import Keyfile.Proofs.ExtractSection

namespace Keyfile

def namesOf (lines : List Line) : List Text := lines.filterMap Line.sectionName?

def sectionsAfter (lines : List Line) : Sections :=
  Sections.ofItems (Reader.start.readAll lines).items

theorem sectionsAfter_scan {content : Bytes} {sections : Sections}
    (parsed : parse content = .ok sections) : sectionsAfter (Line.scan content) = sections := by
  obtain ⟨blocks, laidOut, same⟩ := exists_laidOut parsed
  rw [sectionsAfter, ← readContent, readContent_eq_iff.mpr ⟨blocks, laidOut, rfl⟩, same]

theorem namesOf_append (xs ys : List Line) : namesOf (xs ++ ys) = namesOf xs ++ namesOf ys :=
  List.filterMap_append

theorem namesOf_cons_of_named {line : Line} {name : Text} (named : line.sectionName? = some name)
    (rest : List Line) : namesOf (line :: rest) = name :: namesOf rest :=
  List.filterMap_cons_some named

theorem Block.Sound.namesOf_numberFrom {b : Block} (sound : b.Sound) (n : Nat) :
    namesOf (Line.numberFrom n b.raws) = headingsOf b.item?.toList := by
  have nothing (no_heading : ∀ name, b.item? ≠ some (.heading name)) :
      namesOf (Line.numberFrom n b.raws) = [] := by
    refine List.filterMap_eq_nil_iff.mpr fun line mem => ?_
    refine (sound.names_nothing no_heading ?_).1
    rw [← Line.map_raw_numberFrom n b.raws]
    exact List.mem_map_of_mem mem
  cases b with
  | quiet raw => exact nothing (by simp [Block.item?])
  | entry raws key values => exact nothing (by simp [Block.item?])
  | heading raw name =>
    have named : (Line.mk n raw).sectionName? = some name := Line.sectionName?_eq_some.mpr sound.2
    exact namesOf_cons_of_named named []

/-- Of lines that are read without fault only the headings name a section. -/
theorem Laid.namesOf_numberFrom {inSection : Bool} {blocks : List Block}
    (laid : Laid inSection blocks) (n : Nat) :
    namesOf (Line.numberFrom n (rawsOf blocks)) = headingsOf (itemsOf blocks) := by
  induction blocks generalizing inSection n with
  | nil => rfl
  | cons b rest ih =>
    obtain ⟨sound, _, laid⟩ := laid
    rw [rawsOf_cons, Line.numberFrom_append, namesOf_append, sound.namesOf_numberFrom, ih laid,
      itemsOf_cons, headingsOf_append]

theorem LaidOut.namesOf_scan {content : Bytes} {blocks : List Block} (h : LaidOut content blocks) :
    namesOf (Line.scan content) = headingsOf (itemsOf blocks) := by
  rw [Line.scan, ← h.raws, h.laid.namesOf_numberFrom]

theorem Laid.sectionsAfter_numberFrom {blocks : List Block} (laid : Laid false blocks) (n : Nat) :
    sectionsAfter (Line.numberFrom n (rawsOf blocks)) = Sections.ofItems (itemsOf blocks) := by
  rw [sectionsAfter,
    Reader.readAll_of_laid laid Reader.resting_start rfl (Line.map_raw_numberFrom ..)]

theorem exists_firstHeading {name : Text} {blocks : List Block}
    (h : name ∈ headingsOf (itemsOf blocks)) :
    ∃ before raw after, blocks = before ++ .heading raw name :: after ∧
      name ∉ headingsOf (itemsOf before) := by
  induction blocks with
  | nil => simp at h
  | cons b rest ih =>
    by_cases here : name ∈ headingsOf b.item?.toList
    · cases b with
      | quiet => simp [Block.item?] at here
      | entry => simp [Block.item?] at here
      | heading raw name' =>
        obtain rfl : name = name' := by simpa [Block.item?] using here
        exact ⟨[], raw, rest, rfl, by simp⟩
    · rw [itemsOf_cons, headingsOf_append, List.mem_append] at h
      obtain ⟨before, raw, after, rfl, away⟩ := ih (h.resolve_left here)
      refine ⟨b :: before, raw, after, rfl, ?_⟩
      rw [itemsOf_cons, headingsOf_append, List.mem_append, not_or]
      exact ⟨here, away⟩

theorem LastOccurrence.get?_eq {name : Text} {blocks before own after : List Block} {raw : Bytes}
    (h : LastOccurrence name blocks before raw own after) :
    (Sections.ofItems (itemsOf blocks)).get? name = some (keysAfter ∅ (itemsOf own)) := by
  have there : (Sections.ofItems (itemsOf blocks)).contains name := by
    rw [Sections.contains_ofItems, h.split]
    simp [itemsOf_cons, Block.item?]
  obtain ⟨keys, found⟩ := Option.isSome_iff_exists.mp there
  have same := h.keysOf_eq
  rw [Sections.keysOf, found] at same
  rw [found, ← same]
  rfl

/-- A section that is named has, read on its own, the keys that it has at the end, or right before
it is named a second time. -/
theorem LaidOut.exists_extract_of_named {content : Bytes} {blocks : List Block}
    (h : LaidOut content blocks) {name : Text}
    (named : normalName name ∈ headingsOf (itemsOf blocks)) :
    ∃ found, extract name content = .ok found ∧
      (((headingsOf (itemsOf blocks)).count (normalName name) = 1 ∧
        (Sections.ofItems (itemsOf blocks)).get? (normalName name) = some found.keys) ∨
      ∃ upTo raw rest, blocks = upTo ++ .heading raw (normalName name) :: rest ∧
        (headingsOf (itemsOf upTo)).count (normalName name) = 1 ∧
        (Sections.ofItems (itemsOf upTo)).get? (normalName name) = some found.keys) := by
  obtain ⟨before, raw, behind, rfl, first⟩ := exists_firstHeading named
  obtain ⟨own, after, rfl, entries, bounded⟩ := exists_own behind
  obtain ⟨extent, extracted⟩ := h.exists_extract_of_first first entries bounded
  refine ⟨_, extracted, ?_⟩
  have once {mid : List Block} (away : normalName name ∉ headingsOf (itemsOf mid)) :
      (headingsOf (itemsOf (before ++ .heading raw (normalName name) :: (own ++ mid)))).count
        (normalName name) = 1 := by
    simp [itemsOf_cons, Block.item?, entries, List.count_eq_zero.mpr first,
      List.count_eq_zero.mpr away]
  by_cases again : normalName name ∈ headingsOf (itemsOf after)
  · obtain ⟨mid, raw', rest, rfl, away⟩ := exists_firstHeading again
    have bounded' : mid = [] ∨ ∃ raw' name' rest, mid = .heading raw' name' :: rest := by
      cases mid with
      | nil => exact Or.inl rfl
      | cons b mid =>
        obtain empty | ⟨raw', name', rest', same⟩ := bounded
        · simp at empty
        · exact Or.inr ⟨raw', name', mid, by rw [(List.cons.inj same).1]⟩
    exact Or.inr ⟨before ++ .heading raw (normalName name) :: (own ++ mid), raw', rest, by simp,
      once away, LastOccurrence.get?_eq ⟨rfl, entries, bounded', away⟩⟩
  · exact Or.inl ⟨once again, LastOccurrence.get?_eq ⟨rfl, entries, bounded, again⟩⟩

/-- Where everything can be read, one section can, and the lines that name a section are those that
are read as headings. A section that is not named has no keys either way. One that is named once has
the same keys both ways. One that is named more often has, read on its own, the keys that the lines
before its second heading make. -/
theorem extract_agrees_with_parse {content : Bytes} {sections : Sections}
    (parsed : parse content = .ok sections) (name : Text) :
    namesOf (Line.scan content) = headingsOf (readContent content).items ∧
    sectionsAfter (Line.scan content) = sections ∧
    ∃ found, extract name content = .ok found ∧
      (normalName name ∉ namesOf (Line.scan content) →
        found.keys = ∅ ∧ sections.get? (normalName name) = none) ∧
      ((namesOf (Line.scan content)).count (normalName name) = 1 →
        sections.get? (normalName name) = some found.keys) ∧
      (2 ≤ (namesOf (Line.scan content)).count (normalName name) →
        ∃ before second after, Line.scan content = before ++ second :: after ∧
          second.sectionName? = some (normalName name) ∧
          (namesOf before).count (normalName name) = 1 ∧
          (sectionsAfter before).get? (normalName name) = some found.keys) := by
  have whole := sectionsAfter_scan parsed
  obtain ⟨blocks, laidOut, rfl⟩ := exists_laidOut parsed
  rw [readContent_eq_iff.mpr ⟨blocks, laidOut, rfl⟩, laidOut.namesOf_scan]
  refine ⟨rfl, whole, ?_⟩
  by_cases named : normalName name ∈ headingsOf (itemsOf blocks)
  · obtain ⟨found, extracted, ⟨once, keys⟩ | ⟨upTo, raw, rest, rfl, once, keys⟩⟩ :=
      laidOut.exists_extract_of_named named
    · exact ⟨found, extracted, fun absent => absurd named absent, fun _ => keys,
        fun twice => by omega⟩
    · obtain ⟨laid, sound, _⟩ := laid_append.mp laidOut.laid
      refine ⟨found, extracted, fun absent => absurd named absent, fun single => ?_, fun _ => ?_⟩
      · simp [itemsOf_cons, Block.item?, once] at single
      · refine ⟨Line.numberFrom 1 (rawsOf upTo), ⟨1 + (rawsOf upTo).length, raw⟩,
          Line.numberFrom (1 + (rawsOf upTo).length + 1) (rawsOf rest), ?_,
          Line.sectionName?_eq_some.mpr sound.2, ?_, ?_⟩
        · rw [Line.scan, ← laidOut.raws, rawsOf_append, Line.numberFrom_append]
          rfl
        · rw [laid.namesOf_numberFrom, once]
        · rw [laid.sectionsAfter_numberFrom, keys]
  · have missing := mt (Sections.contains_ofItems _ _).mp named
    rw [Table.contains, Bool.not_eq_true, Option.isSome_eq_false_iff, Option.isNone_iff_eq_none]
      at missing
    have never : (headingsOf (itemsOf blocks)).count (normalName name) = 0 :=
      List.count_eq_zero.mpr named
    exact ⟨_, laidOut.extract_of_absent named, fun _ => ⟨rfl, missing⟩, fun once => by omega,
      fun twice => by omega⟩

def repeatingContent : Bytes := encode (chars "[s]\na = 1\n[t]\nb = 2\n[ S ]\nc = 3\n")

theorem extract_agrees_with_parse_repeating :
    ∃ sections, parse repeatingContent = .ok sections ∧
      (∃ found before second after, extract (chars "S") repeatingContent = .ok found ∧
        found.keys = (∅ : Section).insert (chars "a") [chars "1"] ∧
        Line.scan repeatingContent = before ++ second :: after ∧
        (namesOf before).count (chars "s") = 1 ∧
        (sectionsAfter before).get? (chars "s") = some found.keys) ∧
      (∃ found, extract (chars "t") repeatingContent = .ok found ∧
        sections.get? (chars "t") = some found.keys) ∧
      ∃ found, extract (chars "u") repeatingContent = .ok found ∧ found.keys = ∅ ∧
        sections.get? (chars "u") = none := by
  have parsed : parse repeatingContent = .ok _ := rfl
  obtain ⟨_, _, found, extracted, _, _, more⟩ := extract_agrees_with_parse parsed (chars "S")
  obtain ⟨_, _, found', extracted', _, once, _⟩ := extract_agrees_with_parse parsed (chars "t")
  obtain ⟨_, _, found'', extracted'', none, _, _⟩ := extract_agrees_with_parse parsed (chars "u")
  obtain ⟨before, second, after, split, _, count, keys⟩ := more (by decide)
  have first : found.keys = (∅ : Section).insert (chars "a") [chars "1"] := by
    cases extracted
    rfl
  exact ⟨_, parsed, ⟨found, before, second, after, extracted, first, split, count, keys⟩,
    ⟨found', extracted', once (by decide)⟩, found'', extracted'', none (by decide)⟩

end Keyfile
