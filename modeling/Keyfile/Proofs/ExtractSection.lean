import Keyfile.Extract
import Keyfile.Proofs.Occurrence
import Keyfile.Proofs.ReaderRun

namespace Keyfile

def keysAfter (keys : Section) (items : List Item) : Section :=
  items.foldl (fun keys item => match item with
    | .heading _ => keys
    | .entry key values => keys.insert key values) keys

theorem keysOf_foldl {items : List Item} (entries : headingsOf items = []) (s : Sections)
    (name : Text) :
    (items.foldl Draft.add ⟨s, some name⟩).sections.keysOf name =
      keysAfter (s.keysOf name) items := by
  induction items generalizing s with
  | nil => rfl
  | cons item items ih =>
    cases item with
    | heading other => simp at entries
    | entry key values =>
      rw [List.foldl_cons, Draft.add, ih entries, Sections.keysOf_put, if_pos rfl]
      rfl

theorem Text.Names.opens {t name : Text} (h : t.Names name) :
    t.HasBare '[' ∧ ¬ t.Blank ∧ ¬ t.Comment := by
  obtain ⟨w, inner, v, rfl, first, _⟩ := h.exists_split
  refine ⟨Text.hasBare_append_cons_self (Text.not_escapes_of_not_mem fun mem => ?_) _, ?_, ?_⟩
  · exact absurd (first _ mem) (by decide)
  · intro blank
    exact absurd (blank '[' (by simp)) (by decide)
  · rw [Text.comment_append_of_blank first, Text.Comment, Text.trimStart_of_head (by decide)]
    simp

/-- A line that is not read as a heading neither names a section nor opens with a bracket. -/
theorem Reads.names_nothing {inSection : Bool} {before? after? : Option Pending}
    {item? : Option Item} {line : Line} (h : Reads inSection before? line.text after? item?)
    (no_heading : ∀ name, item? ≠ some (.heading name)) :
    line.sectionName? = none ∧ line.opensBracket = false := by
  have said := h.quiet_or_no_bracket no_heading
  constructor
  · cases named : line.sectionName? with
    | none => rfl
    | some name =>
      obtain ⟨bracket, filled, no_comment⟩ := (Line.sectionName?_eq_some.mp named).opens
      rcases said with (blank | comment) | no_bracket
      · exact absurd blank filled
      · exact absurd comment no_comment
      · exact absurd bracket no_bracket
  · rcases said with (blank | comment) | no_bracket
    · simp [Line.opensBracket, Text.trimStart_eq_nil.mpr blank]
    · have head : line.text.trimStart.head? = some '#' := comment
      simp [Line.opensBracket, head]
    · exact Search.opensBracket_eq_false no_bracket

namespace Block

/-- Only a heading names a section, and no other line of blocks opens with a bracket. -/
theorem Sound.names_nothing {b : Block} (sound : b.Sound)
    (no_heading : ∀ name, b.item? ≠ some (.heading name)) {line : Line} (mem : line.raw ∈ b.raws) :
    line.sectionName? = none ∧ line.opensBracket = false := by
  cases b with
  | quiet raw =>
    obtain rfl := List.mem_singleton.mp mem
    have reads : Reads true none line.text none none := .of_blank_or_comment sound
    exact reads.names_nothing (by simp)
  | heading raw name => exact absurd rfl (no_heading name)
  | entry raws key values =>
    obtain ⟨_, _, _, reads, other⟩ := Fills.exists_reads sound mem
    rw [← text_eq_textOf] at reads
    exact reads.names_nothing other

end Block

theorem Laid.sectionName?_ne {inSection : Bool} {blocks : List Block} (laid : Laid inSection blocks)
    {name : Text} (away : name ∉ headingsOf (itemsOf blocks)) {line : Line}
    (mem : line.raw ∈ rawsOf blocks) : line.sectionName? ≠ some name := by
  induction blocks generalizing inSection with
  | nil => simp at mem
  | cons b rest ih =>
    obtain ⟨sound, _, laid⟩ := laid
    rw [itemsOf_cons, headingsOf_append, List.mem_append, not_or] at away
    rw [rawsOf_cons, List.mem_append] at mem
    rcases mem with mem | mem
    · cases b with
      | heading raw other =>
        obtain rfl := List.mem_singleton.mp mem
        have apart : name ≠ other := by simpa [Block.item?] using away.1
        have named : line.sectionName? = some other := Line.sectionName?_eq_some.mpr sound.2
        rw [named]
        simpa using Ne.symm apart
      | quiet => simp [(sound.names_nothing (by simp [Block.item?]) mem).1]
      | entry => simp [(sound.names_nothing (by simp [Block.item?]) mem).1]
    · exact ih laid away.2 mem

theorem Laid.opensBracket_eq_false {inSection : Bool} {blocks : List Block}
    (laid : Laid inSection blocks) (entries : headingsOf (itemsOf blocks) = []) {line : Line}
    (mem : line.raw ∈ rawsOf blocks) : line.opensBracket = false := by
  induction blocks generalizing inSection with
  | nil => simp at mem
  | cons b rest ih =>
    obtain ⟨sound, _, laid⟩ := laid
    rw [itemsOf_cons, headingsOf_append, List.append_eq_nil_iff] at entries
    rw [rawsOf_cons, List.mem_append] at mem
    rcases mem with mem | mem
    · refine (sound.names_nothing ?_ mem).2
      intro name heading
      simp [heading] at entries
    · exact ih laid entries.2 mem

namespace Extract

theorem find_append {name : Text} {xs : List Line}
    (away : ∀ line ∈ xs, line.sectionName? ≠ some name)
    (ys : List Line) : find name (xs ++ ys) = find name ys := by
  induction xs with
  | nil => rfl
  | cons line xs ih =>
    rw [List.cons_append, find, if_neg (away line (by simp))]
    exact ih fun l hl => away l (List.mem_cons_of_mem _ hl)

/-- The entries that a reader completes before the next bracket are collected. -/
theorem collect_append {r r' : Reader} {xs : List Line} {items : List Item}
    (goes : r.Goes xs items r') (no_bracket : ∀ line ∈ xs, line.opensBracket = false)
    (entries : headingsOf items = []) (keys : Section) (ys : List Line) :
    collect r keys (xs ++ ys) = collect r' (keysAfter keys items) ys := by
  induction goes generalizing keys with
  | done => rfl
  | @line r r₁ r' line rest item? items read _ ih =>
    rw [headingsOf_append, List.append_eq_nil_iff] at entries
    have own := no_bracket line (by simp)
    have others : ∀ l ∈ rest, l.opensBracket = false :=
      fun l hl => no_bracket l (List.mem_cons_of_mem _ hl)
    cases item? with
    | none => simpa [collect, own, read] using ih others entries.2 keys
    | some item =>
      cases item with
      | heading name => simp at entries
      | entry key values =>
        rw [List.cons_append, collect, own, read]
        exact ih others entries.2 (keys.insert key values)

end Extract

theorem LastOccurrence.keysOf_eq {name : Text} {blocks before own after : List Block} {raw : Bytes}
    (h : LastOccurrence name blocks before raw own after) :
    (Sections.ofItems (itemsOf blocks)).keysOf name = keysAfter ∅ (itemsOf own) := by
  obtain ⟨s, draft⟩ := h.exists_draft
  rw [Sections.ofItems, draft, Sections.keysOf, h.get?_foldl_after, ← Sections.keysOf,
    keysOf_foldl h.entries, Sections.keysOf_insert, if_pos rfl]

theorem mem_rawsOf_of_mem_numberFrom {n : Nat} {blocks : List Block} {line : Line}
    (h : line ∈ Line.numberFrom n (rawsOf blocks)) : line.raw ∈ rawsOf blocks := by
  rw [← Line.map_raw_numberFrom n (rawsOf blocks)]
  exact List.mem_map_of_mem h

/-- The entries between the first heading of a section and the next heading are collected. -/
theorem LaidOut.exists_extract_of_first {content : Bytes} {name : Text} {raw : Bytes}
    {before own after : List Block}
    (h : LaidOut content (before ++ .heading raw (normalName name) :: (own ++ after)))
    (first : normalName name ∉ headingsOf (itemsOf before)) (entries : headingsOf (itemsOf own) = [])
    (bounded : after = [] ∨ ∃ raw' name' rest, after = .heading raw' name' :: rest) :
    ∃ extent, extract name content = .ok ⟨keysAfter ∅ (itemsOf own), extent⟩ := by
  obtain ⟨laid_before, sound, _, laid_own⟩ := laid_append.mp h.laid
  obtain ⟨laid_own, laid_after⟩ := laid_append.mp laid_own
  rw [extract, Line.scan, ← h.raws, rawsOf_append, rawsOf_cons, rawsOf_append, Line.numberFrom_append,
    Extract.find_append fun line hl =>
      laid_before.sectionName?_ne first (mem_rawsOf_of_mem_numberFrom hl)]
  have names : (Line.mk (1 + (rawsOf before).length) raw).sectionName? =
      some (normalName name) := Line.sectionName?_eq_some.mpr sound.2
  rw [Block.raws, List.singleton_append, Line.numberFrom, Line.numberFrom_append, Extract.find,
    if_pos names, Reader.read_heading Reader.idle_start sound]
  have idle : (Reader.start.next (1 + (rawsOf before).length) none
      (some (.heading (normalName name)))).Idle true := ⟨.next .., Reader.open?_next .., rfl⟩
  obtain ⟨r, goes, idle_r⟩ := Reader.exists_goes_of_laid laid_own
    (1 + (rawsOf before).length + 1) idle
  have closed := Reader.fault?_eq_none.mpr idle_r.closed
  simp only
  rw [Extract.collect_append goes (fun line hl =>
    laid_own.opensBracket_eq_false entries (mem_rawsOf_of_mem_numberFrom hl)) entries]
  rcases bounded with rfl | ⟨raw', name', rest, rfl⟩
  · exact ⟨.toEnd, by simp [Line.numberFrom, Extract.collect, closed]⟩
  · have opens (n : Nat) : (Line.mk n raw').opensBracket = true :=
      Search.opensBracket_of_startsBracket laid_after.1.1
    exact ⟨.toBracket, by simp [Block.raws, Line.numberFrom, Extract.collect, closed, opens]⟩

theorem LaidOut.extract_of_absent {content : Bytes} {blocks : List Block}
    (h : LaidOut content blocks)
    {name : Text} (absent : normalName name ∉ headingsOf (itemsOf blocks)) :
    extract name content = .ok ⟨∅, .absent⟩ := by
  have nothing := Extract.find_append (fun line hl =>
    h.laid.sectionName?_ne absent (mem_rawsOf_of_mem_numberFrom (n := 1) hl)) []
  rwa [List.append_nil, h.raws] at nothing

/-- A section that is named at most once is found with all of its keys. -/
theorem LaidOut.exists_extract {content : Bytes} {blocks : List Block} (h : LaidOut content blocks)
    (distinct : (headingsOf (itemsOf blocks)).Nodup) (name : Text) :
    ∃ found, extract name content = .ok found ∧
      found.keys = (Sections.ofItems (itemsOf blocks)).keysOf (normalName name) := by
  by_cases named : normalName name ∈ headingsOf (itemsOf blocks)
  · obtain ⟨before, raw, own, after, occurs⟩ := exists_lastOccurrence named
    rw [occurs.keysOf_eq]
    obtain ⟨rfl, entries, bounded, _⟩ := occurs
    have first : normalName name ∉ headingsOf (itemsOf before) := by
      intro earlier
      rw [itemsOf_append, itemsOf_cons, headingsOf_append, headingsOf_append] at distinct
      exact (List.nodup_append.mp distinct).2.2 _ earlier _ (by simp [Block.item?]) rfl
    obtain ⟨extent, extracted⟩ := h.exists_extract_of_first first entries bounded
    exact ⟨_, extracted, rfl⟩
  · exact ⟨_, h.extract_of_absent named, (Sections.keysOf_ofItems_of_not_mem named).symm⟩

end Keyfile
