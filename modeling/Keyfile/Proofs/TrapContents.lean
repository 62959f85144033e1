import Keyfile.Proofs.EditBlocks

namespace Keyfile

/-- No line of the content is a trap unless it says the text. The section has no such key, but a
search finds one, and with an empty value written there the content does not say what it should. -/
structure Misleads (t : Text) (content : Bytes) (name key : Text) : Prop where
  only : ∀ u : Text, u.TrapIn content → u = t
  accepted : Setting.ofRequest name key [] = .ok ⟨name, key, [[]]⟩
  found : (Slot.find name key (Line.scan content)).hasKey
  misread : ∃ sections sections', parse content = .ok sections ∧
    ¬ (sections.keysOf name).contains key ∧
    parse (Setting.applyTo ⟨name, key, [[]]⟩ content) = .ok sections' ∧
    sections' ≠ sections.put name key [[]]

theorem Text.TrapIn.exists_reads {t : Text} {content : Bytes} {sections : Sections}
    (h : t.TrapIn content) (parsed : parse content = .ok sections) :
    ∃ raw before? after? item?, Line.IsClosed raw ∧ textOf raw = t ∧
      Reads true before? t after? item? ∧ ∀ name, item? ≠ some (.heading name) := by
  obtain ⟨trap, line, mem, rfl⟩ := h
  obtain ⟨blocks, laidOut, _⟩ := exists_laidOut parsed
  have mem_raw : line.raw ∈ rawsOf blocks := by
    rw [laidOut.raws, ← map_raw_scan]
    exact List.mem_map_of_mem mem
  have closed : Line.IsClosed (Line.closeRaw line.raw) := by
    have lined := Line.lined_pieces content
    rw [← laidOut.raws] at lined
    exact lined.isClosed_closeRaw _ (List.mem_map_of_mem mem_raw)
  obtain ⟨b, hb, mem_b⟩ := List.mem_flatMap.mp mem_raw
  obtain ⟨xs, ys, rfl⟩ := List.append_of_mem hb
  obtain ⟨_, sound, _, _⟩ := laid_append.mp laidOut.laid
  cases b with
  | quiet raw =>
    obtain rfl := List.mem_singleton.mp mem_b
    exact absurd trap (Text.not_trap_of_quiet sound)
  | heading raw name =>
    obtain rfl := List.mem_singleton.mp mem_b
    exact absurd trap sound.2.not_trap
  | entry raws key values =>
    obtain ⟨before?, after?, item?, reads, other⟩ := Fills.exists_reads sound mem_b
    exact ⟨_, before?, after?, item?, closed, textOf_closeRaw _, reads, other⟩

/-- A content whose last entry a search takes for that of another key, or of another section. -/
theorem misleads_of_laid {t name key k : Text} {xs : List Block} {raws : List Bytes}
    {values : List Text} (laid : Laid false (xs ++ [.entry raws k values]))
    (named : namedAfterAll false xs)
    (lines : ∀ raw ∈ rawsOf (xs ++ [.entry raws k values]),
      Line.IsClosed raw ∧ ((textOf raw).Trap → textOf raw = t))
    (accepted : Setting.ofRequest name key [] = .ok ⟨name, key, [[]]⟩)
    (slot : ((Line.numberFrom 1 (rawsOf (xs ++ [.entry raws k values]))).foldl
      (Search.step name key) .start).slot =
        ⟨(rawsOf xs).length, (rawsOf xs).length + raws.length + 1, true, true⟩)
    (absent : ¬ ((Sections.ofItems (itemsOf xs ++ [.entry k values])).keysOf name).contains key)
    (differs : Sections.ofItems (itemsOf xs ++ [.entry key [[]]]) ≠
      (Sections.ofItems (itemsOf xs ++ [.entry k values])).put name key [[]]) :
    Misleads t (rawsOf (xs ++ [.entry raws k values])).flatten name key := by
  obtain ⟨_, valid⟩ := Setting.ofRequest_eq_ok accepted
  have lined := Line.lined_of_closed fun raw hr => (lines raw hr).1
  have pieces := Line.pieces_flatten lined
  have laidOut : LaidOut (rawsOf (xs ++ [.entry raws k values])).flatten
      (xs ++ ([.entry raws k values] ++ [])) := ⟨pieces.symm, laid⟩
  have found : Slot.find name key (Line.scan (rawsOf (xs ++ [.entry raws k values])).flatten) =
      ⟨(rawsOf xs).length, (rawsOf xs).length + (rawsOf [.entry raws k values]).length + 1, true,
        true⟩ := by
    rw [Slot.find, Line.scan, pieces, slot]
    simp [Block.raws]
  have edited := laidOut.applyTo valid found fun _ => named
  refine ⟨?_, accepted, by rw [found], _, _, laidOut.parse_eq, ?_, edited.parse_eq, ?_⟩
  · rintro _ ⟨trap, line, hl, rfl⟩
    refine (lines line.raw ?_).2 trap
    rw [← pieces, ← map_raw_scan]
    exact List.mem_map_of_mem hl
  · rw [itemsOf_append]
    exact absent
  · rw [itemsOf_append, itemsOf_append, itemsOf_map_mapRaws, List.append_nil,
      Setting.itemsOf_blocks, if_pos rfl, List.nil_append, itemsOf_append]
    exact differs

theorem Setting.ofRequest_nil {name key : Text} (plain : checkChars sectionReserved name = .ok ())
    (valid : checkKey key = .ok ()) :
    ofRequest name key [] = .ok ⟨normalName name, normalName key, [[]]⟩ := by
  simp [ofRequest, plain, valid, checkValues, bind, Except.bind, pure, Except.pure]

def firstName : Text := chars "s"

def otherName : Text := chars "u"

theorem heading_line (name : Text) (accepted : Setting.ofRequest name [] [] = .ok ⟨name, [], [[]]⟩) :
    (Block.heading (Setting.headingLine name) name).Sound ∧
      Line.IsClosed (Setting.headingLine name) ∧ ¬ (textOf (Setting.headingLine name)).Trap := by
  obtain ⟨sound, closed⟩ := Setting.names_headingLine (Setting.ofRequest_eq_ok accepted).2
  exact ⟨sound, closed, sound.2.not_trap⟩

namespace Search

variable {name key : Text} {s : Search} {n : Nat}

/-- A search that takes the heading of another section for values finds there the key of its own
section. -/
theorem slot_of_swallowed (within : s.within? = some false) (here : s.here? = some ⟨n, none⟩)
    (valid : Setting.Valid ⟨name, key, [[]]⟩) :
    ((Line.numberFrom (n + 1) (Setting.headingLine otherName ::
      Setting.rawLines ⟨name, key, [[]]⟩)).foldl (step name key) s).slot =
        ⟨n + 1, n + 1 + (Setting.rawLines ⟨name, key, [[]]⟩).length + 1, true, true⟩ := by
  have swallowed := step_values name key ⟨n + 1, Setting.headingLine otherName⟩ within here
    (show textOf (Setting.headingLine otherName) ≠ [] by decide)
    (show ¬ (textOf (Setting.headingLine otherName)).Comment by decide)
  rw [show withinAfter ⟨n + 1, Setting.headingLine otherName⟩ false = none from rfl] at swallowed
  have entry := foldl_step_entry name key
    (s := ⟨n + 1, some ⟨n + 1, none⟩, s.earlier?, none⟩) (Setting.fills_rawLines valid) rfl rfl
    (fun raw hr => (Setting.plain_of_mem_rawLines valid hr).2) valid.checkKey_key
  rw [Line.numberFrom, List.foldl_cons, swallowed]
  simp only [Sighting.extend] at entry ⊢
  rw [if_neg (by simp), entry]
  simp [slot]

end Search

theorem ofItems_elsewhere (k key : Text) (values : List Text) :
    Sections.ofItems [.heading firstName, .entry k values, .heading otherName, .entry key [[]]] =
      (Sections.put ∅ firstName k values).put otherName key [[]] := by
  have first : Sections.ofItems [.heading firstName, .entry k values] =
      Sections.put ∅ firstName k values := rfl
  have apart : otherName ≠ firstName := by decide
  rw [← first, ← Sections.ofItems_new (by simpa using apart)]
  rfl

theorem not_contains_elsewhere {k key : Text} (apart : k ≠ key) (values : List Text) :
    ¬ ((Sections.ofItems [.heading firstName, .entry k values, .heading otherName,
      .entry key [[]]]).keysOf firstName).contains key := by
  rw [ofItems_elsewhere, Sections.keysOf_put, if_neg (by decide), Sections.keysOf_put, if_pos rfl,
    Table.contains_insert]
  rintro (same | there)
  · exact apart same.symm
  · cases there

theorem Sections.contains_keysOf_put (s : Sections) (name key : Text) (values : List Text) :
    ((s.put name key values).keysOf name).contains key := by
  rw [keysOf_put, if_pos rfl, Table.contains_insert]
  exact Or.inl rfl

/-- Where a search goes on with values although the reader is through with them, the heading of
another section misleads it. -/
theorem exists_misleads_of_open_end {t key k : Text} {raws : List Bytes} {values : List Text}
    (accepted : Setting.ofRequest firstName key [] = .ok ⟨firstName, key, [[]]⟩)
    (fills : Fills none raws k values) (apart : k ≠ key)
    (lines : ∀ raw ∈ raws, Line.IsClosed raw ∧ ((textOf raw).Trap → textOf raw = t)) {s : Search}
    (within : s.within? = some false) (here : s.here? = some ⟨raws.length + 1, none⟩)
    (reached : (Line.numberFrom 1 (Setting.headingLine firstName :: raws)).foldl
      (Search.step firstName key) .start = s) :
    ∃ content name key, Misleads t content name key := by
  obtain ⟨_, valid⟩ := Setting.ofRequest_eq_ok accepted
  obtain ⟨first, first_closed, first_plain⟩ := heading_line firstName rfl
  obtain ⟨other, other_closed, other_plain⟩ := heading_line otherName rfl
  let xs : List Block := [.heading (Setting.headingLine firstName) firstName,
    .entry raws k values, .heading (Setting.headingLine otherName) otherName]
  have laid : Laid false (xs ++ [.entry (Setting.rawLines ⟨firstName, key, [[]]⟩) key [[]]]) :=
    ⟨first, trivial, fills, rfl, other, trivial, Setting.fills_rawLines valid, rfl, trivial⟩
  have raws_xs : rawsOf xs = (Setting.headingLine firstName :: raws) ++
      [Setting.headingLine otherName] := by
    simp [xs, Block.raws]
  have all_raws : rawsOf (xs ++ [.entry (Setting.rawLines ⟨firstName, key, [[]]⟩) key [[]]]) =
      (Setting.headingLine firstName :: raws) ++
        Setting.headingLine otherName :: Setting.rawLines ⟨firstName, key, [[]]⟩ := by
    simp [raws_xs, Block.raws]
  have absent := not_contains_elsewhere apart values
  refine ⟨_, firstName, key, misleads_of_laid laid rfl ?_ accepted ?_ absent ?_⟩
  · rw [all_raws]
    intro raw hr
    simp only [List.mem_append, List.mem_cons] at hr
    rcases hr with (rfl | hr) | rfl | hr
    · exact ⟨first_closed, fun trap => absurd trap first_plain⟩
    · exact lines raw hr
    · exact ⟨other_closed, fun trap => absurd trap other_plain⟩
    · obtain ⟨closed, plain⟩ := Setting.plain_of_mem_rawLines valid hr
      exact ⟨closed, fun trap => absurd trap plain⟩
  · have swallowed := Search.slot_of_swallowed within here valid
    rw [all_raws, Line.numberFrom_append, List.foldl_append, reached, List.length_cons,
      Nat.add_comm 1, swallowed, raws_xs]
    simp
  · intro same
    apply absent
    rw [show [Item.heading firstName, .entry k values, .heading otherName, .entry key [[]]] =
      itemsOf xs ++ [.entry key [[]]] from rfl, same]
    exact Sections.contains_keysOf_put ..

/-- A line with a loose end completes an entry, that of a key on the line itself or that of whatever
key is open. -/
theorem Reads.of_loose {before? after? : Option Pending} {t : Text} {item? : Option Item}
    (h : Reads true before? t after? item?) (loose : t.Loose) (no_comment : ¬ t.Comment)
    (no_heading : ∀ name, item? ≠ some (.heading name)) :
    (∃ left right values, t.Assigns left right ∧
      Reads true none t none (some (.entry (normalName left) values))) ∨
    ∀ p : Pending, ∃ values, Reads true (some p) t none (some (.entry p.key values)) := by
  cases h with
  | skip skipped =>
    rcases skipped with rfl | comment
    · exact absurd Text.blank_nil loose.not_blank
    · exact absurd comment no_comment
  | blank blank => exact absurd blank loose.not_blank
  | lastBlank _ blank => exact absurd blank loose.not_blank
  | heading => exact absurd rfl (no_heading _)
  | entry filled _ starts inSection even bracket assigns cuts =>
    have loose_right := loose
    rw [assigns.split, Text.loose_append_equals] at loose_right
    exact Or.inl ⟨_, _, _, assigns, .entry filled no_comment starts inSection even bracket assigns
      cuts (Pending.after_of_loose cuts loose_right _)⟩
  | values filled _ even bracket equals cuts =>
    exact Or.inr fun p => ⟨_, .values filled no_comment even bracket equals cuts
      (Pending.after_of_loose cuts loose p)⟩

theorem Text.Loose.endsInComma {t : Text} (h : t.Loose) : endsInComma t = true := by
  obtain ⟨p, w, split, even, blank, _⟩ := h
  exact endsInComma_iff.mpr ⟨p, w, split, even, blank⟩

theorem Search.step_firstLine (key : Text) :
    start.step firstName key ⟨1, Setting.headingLine firstName⟩ = ⟨1, some ⟨1, none⟩, none, none⟩ :=
  rfl

theorem exists_other_key (n? : Option Text) :
    ∃ key, n? ≠ some key ∧ Setting.ofRequest firstName key [] = .ok ⟨firstName, key, [[]]⟩ := by
  by_cases same : n? = some (chars "z")
  · exact ⟨chars "y", by rw [same]; decide, rfl⟩
  · exact ⟨chars "z", same, rfl⟩

theorem exists_misleads_of_loose_entry {raw : Bytes} {left right : Text} {values : List Text}
    (closed : Line.IsClosed raw) (loose : (textOf raw).Loose) (assigns : (textOf raw).Assigns left right)
    (reads : Reads true none (textOf raw) none (some (.entry (normalName left) values))) :
    ∃ content name key, Misleads (textOf raw) content name key := by
  obtain ⟨key, other, accepted⟩ := exists_other_key (leftName? (textOf raw))
  obtain ⟨filled, no_comment, bracket, _⟩ := reads.exists_assigns (Or.inr ⟨rfl, values, rfl⟩)
  have apart : normalName left ≠ key := by
    by_cases equals : '=' ∈ left
    · exact Setting.normalName_ne_of_equals equals
        (Setting.ofRequest_eq_ok accepted).2.checkKey_key
    · rw [assigns.leftName?_eq equals] at other
      exact fun same => other (congrArg some same)
  have entry := Search.step_entry firstName key (s := ⟨1, some ⟨1, none⟩, none, none⟩) ⟨2, raw⟩ rfl
    rfl filled no_comment bracket
  rw [text_eq_textOf, decide_eq_false other, Search.withinAfter, text_eq_textOf, loose.endsInComma]
    at entry
  refine exists_misleads_of_open_end accepted (.last reads) apart ?_ (s := ⟨2, some ⟨2, none⟩, none,
    some false⟩) rfl rfl ?_
  · intro r hr
    obtain rfl := List.mem_singleton.mp hr
    exact ⟨closed, fun _ => rfl⟩
  · rw [Line.numberFrom, List.foldl_cons, Search.step_firstLine, Line.numberFrom, List.foldl_cons,
      entry]
    rfl

def openLine : Bytes := lineOf (chars "k = ,")

theorem reads_openLine : Reads true none (textOf openLine) (some ⟨chars "k", [[]]⟩) none := by
  have valid : Setting.Valid ⟨firstName, chars "k", [[]]⟩ :=
    (Setting.ofRequest_eq_ok (show Setting.ofRequest firstName (chars "k") [] = .ok _ from rfl)).2
  have no_comma : ¬ Text.HasBare ',' [' '] := Text.not_hasBare_of_not_mem (by decide)
  have cuts : Text.Cuts [' ', ','] [[' ']] [] :=
    .next no_comma (by decide) (.none (Text.not_hasBare_nil ','))
  exact @Setting.reads_lead _ valid [','] _ _ _ _ (by decide) (by decide) (by decide) cuts rfl

theorem exists_misleads_of_loose_values {raw : Bytes} {values : List Text}
    (closed : Line.IsClosed raw) (loose : (textOf raw).Loose) (no_comment : ¬ (textOf raw).Comment)
    (reads : Reads true (some ⟨chars "k", [[]]⟩) (textOf raw) none
      (some (.entry (chars "k") values))) :
    ∃ content name key, Misleads (textOf raw) content name key := by
  have full : textOf raw ≠ [] := fun empty => loose.not_blank (empty ▸ Text.blank_nil)
  have step := Search.step_values firstName (chars "z") (s := ⟨2, some ⟨2, none⟩, none, some false⟩)
    ⟨3, raw⟩ rfl rfl full no_comment
  rw [Search.withinAfter, text_eq_textOf, loose.endsInComma] at step
  refine exists_misleads_of_open_end (show Setting.ofRequest firstName (chars "z") [] = .ok _ from rfl)
    (.more reads_openLine (.last reads)) (by decide) ?_ (s := ⟨3, some ⟨3, none⟩, none, some false⟩)
    rfl rfl ?_
  · intro r hr
    simp only [List.mem_cons, List.not_mem_nil, or_false] at hr
    rcases hr with rfl | rfl
    · exact ⟨isClosed_lineOf (by decide), fun trap => absurd trap (Text.not_trap_of_all (by decide))⟩
    · exact ⟨closed, fun _ => rfl⟩
  · rw [Line.numberFrom, List.foldl_cons, Search.step_firstLine, Line.numberFrom, List.foldl_cons,
      Line.numberFrom, List.foldl_cons, show Search.step firstName (chars "z")
        ⟨1, some ⟨1, none⟩, none, none⟩ ⟨2, openLine⟩ = ⟨2, some ⟨2, none⟩, none, some false⟩
        from rfl, step]
    rfl

theorem Text.Assigns.left_eq {t left right left' right' : Text} (h : t.Assigns left right)
    (h' : t.Assigns left' right') : left = left' :=
  (append_cons_inj_of_not_hasBare (h.split.symm.trans h'.split) h.once h.even h'.once h'.even).1

theorem Reads.of_assigns {before? after? : Option Pending} {t left right : Text}
    {item? : Option Item} (h : Reads true before? t after? item?) (assigns : t.Assigns left right)
    (no_comment : ¬ t.Comment) (no_heading : ∀ name, item? ≠ some (.heading name)) :
    Reads true none t after? item? ∧
      ((∃ values, after? = some ⟨normalName left, values⟩ ∧ item? = none) ∨
        (after? = none ∧ ∃ values, item? = some (.entry (normalName left) values))) := by
  have filled : ¬ t.Blank := fun blank => absurd (blank _ assigns.hasBare.mem) (by decide)
  have entry := h
  cases h with
  | skip skipped =>
    rcases skipped with rfl | comment
    · exact absurd Text.blank_nil filled
    · exact absurd comment no_comment
  | blank blank => exact absurd blank filled
  | lastBlank _ blank => exact absurd blank filled
  | heading => exact absurd rfl (no_heading _)
  | entry _ _ _ _ _ _ assigns' _ after =>
    rw [assigns.left_eq assigns']
    exact ⟨entry, Pending.after_cases after⟩
  | values _ _ _ _ equals => exact absurd assigns.hasBare equals

/-- A line that is taken for that of another key misleads a search once the entry is complete. -/
theorem exists_misleads_of_entry {t key k : Text} {raws : List Bytes} {values : List Text}
    (accepted : Setting.ofRequest firstName key [] = .ok ⟨firstName, key, [[]]⟩)
    (fills : Fills none raws k values) (apart : k ≠ key)
    (lines : ∀ raw ∈ raws, Line.IsClosed raw ∧ ((textOf raw).Trap → textOf raw = t)) {s : Search}
    (here : s.here? = some ⟨raws.length + 1, some (2, raws.length + 1)⟩)
    (reached : (Line.numberFrom 1 (Setting.headingLine firstName :: raws)).foldl
      (Search.step firstName key) .start = s) :
    ∃ content name key, Misleads t content name key := by
  obtain ⟨first, first_closed, first_plain⟩ := heading_line firstName rfl
  have laid : Laid false ([.heading (Setting.headingLine firstName) firstName] ++
      [.entry raws k values]) := ⟨first, trivial, fills, rfl, trivial⟩
  have all_raws : rawsOf ([.heading (Setting.headingLine firstName) firstName] ++
      [.entry raws k values]) = Setting.headingLine firstName :: raws := by
    simp [Block.raws]
  have keys (key : Text) (values : List Text) :
      (Sections.ofItems ([.heading firstName] ++ [.entry key values])).keysOf firstName =
        (∅ : Section).insert key values := by
    change (Sections.put (Table.insert ∅ firstName ∅) firstName key values).keysOf firstName = _
    rw [Sections.keysOf_put, if_pos rfl, Sections.keysOf_insert, if_pos rfl]
  refine ⟨_, firstName, key, misleads_of_laid laid rfl ?_ accepted ?_ ?_ ?_⟩
  · rw [all_raws]
    intro raw hr
    rcases List.mem_cons.mp hr with rfl | hr
    · exact ⟨first_closed, fun trap => absurd trap first_plain⟩
    · exact lines raw hr
  · rw [all_raws, reached, Search.slot, here]
    simp [Block.raws, Nat.add_comm]
  · rw [show itemsOf [.heading (Setting.headingLine firstName) firstName] = [.heading firstName] from
      rfl, keys, Table.contains_insert]
    rintro (same | there)
    · exact apart same.symm
    · cases there
  · intro same
    change Sections.ofItems ([.heading firstName] ++ [.entry key [[]]]) =
      (Sections.ofItems ([.heading firstName] ++ [.entry k values])).put firstName key [[]] at same
    have kept : ((Sections.ofItems ([.heading firstName] ++ [.entry key [[]]])).keysOf
        firstName).contains k := by
      rw [same, Sections.keysOf_put, if_pos rfl, keys, Table.contains_insert, Table.contains_insert]
      exact Or.inr (Or.inl rfl)
    rw [keys, Table.contains_insert] at kept
    rcases kept with rfl | there
    · exact apart rfl
    · cases there

def blankLine : Bytes := lineOf [' ']

theorem reads_blankLine (p : Pending) :
    Reads true (some p) (textOf blankLine) none (some (.entry p.key (p.values ++ [[]]))) :=
  .lastBlank (show [' '] ≠ [] by simp) (show Text.Blank [' '] by simp [Text.Blank, isBlank])

theorem exists_misleads_of_misnamed {raw : Bytes} {before? after? : Option Pending}
    {item? : Option Item} (closed : Line.IsClosed raw) (misnamed : (textOf raw).Misnamed)
    (tight : ¬ (textOf raw).Loose) (no_comment : ¬ (textOf raw).Comment)
    (h : Reads true before? (textOf raw) after? item?)
    (no_heading : ∀ name, item? ≠ some (.heading name)) :
    ∃ content name key, Misleads (textOf raw) content name key := by
  obtain ⟨left, right, key, assigns, equals, seen, valid⟩ := misnamed
  have apart : normalName left ≠ key := Setting.normalName_ne_of_equals equals valid
  have accepted : Setting.ofRequest firstName key [] = .ok ⟨firstName, key, [[]]⟩ := by
    have normal : normalName key = key := by
      rw [eq_of_leftName?_eq_some seen, normalName_normalName]
    rw [Setting.ofRequest_nil rfl valid, normal]
    rfl
  obtain ⟨reads, opens⟩ := h.of_assigns assigns no_comment no_heading
  obtain ⟨filled, _, bracket, _⟩ := reads.exists_assigns opens
  have ends := reads.endsInComma_iff (fun empty => filled (empty ▸ Text.blank_nil)) no_comment
    (reads.not_startsBracket no_heading) tight
  have entry := Search.step_entry firstName key (s := ⟨1, some ⟨1, none⟩, none, none⟩) ⟨2, raw⟩ rfl
    rfl filled no_comment bracket
  rw [text_eq_textOf, decide_eq_true seen, Search.withinAfter, text_eq_textOf] at entry
  have own : Line.IsClosed raw ∧ ((textOf raw).Trap → textOf raw = textOf raw) :=
    ⟨closed, fun _ => rfl⟩
  rcases opens with ⟨values, rfl, rfl⟩ | ⟨rfl, values, rfl⟩
  · have goes_on : endsInComma (textOf raw) = true := by simpa using ends
    have last := Search.step_values firstName key
      (s := ⟨2, some ⟨2, some (2, 2)⟩, none, some true⟩) ⟨3, blankLine⟩ rfl rfl
      (show [' '] ≠ [] by simp) (show ¬ Text.Comment [' '] by decide)
    rw [goes_on] at entry
    refine exists_misleads_of_entry accepted (.more reads (.last (reads_blankLine _))) apart ?_
      (s := ⟨3, some ⟨3, some (2, 3)⟩, none, none⟩) rfl ?_
    · intro r hr
      simp only [List.mem_cons, List.not_mem_nil, or_false] at hr
      rcases hr with rfl | rfl
      · exact own
      · exact ⟨isClosed_lineOf (by decide), fun trap => absurd trap (Text.not_trap_of_all (by decide))⟩
    · rw [Line.numberFrom, List.foldl_cons, Search.step_firstLine, Line.numberFrom, List.foldl_cons,
        entry, Line.numberFrom, List.foldl_cons]
      exact last
  · have closes : endsInComma (textOf raw) = false := by simpa using ends
    rw [closes] at entry
    refine exists_misleads_of_entry accepted (.last reads) apart ?_
      (s := ⟨2, some ⟨2, some (2, 2)⟩, none, none⟩) rfl ?_
    · intro r hr
      obtain rfl := List.mem_singleton.mp hr
      exact own
    · rw [Line.numberFrom, List.foldl_cons, Search.step_firstLine, Line.numberFrom, List.foldl_cons,
        entry]
      rfl

/-- Each trap in a content that can be read misleads a search in some content without other
traps. -/
theorem Text.TrapIn.exists_misleads {t : Text} {content : Bytes} {sections : Sections}
    (h : t.TrapIn content) (parsed : parse content = .ok sections) :
    ∃ content' name key, Misleads t content' name key := by
  obtain ⟨raw, before?, after?, item?, closed, rfl, reads, no_heading⟩ := h.exists_reads parsed
  obtain ⟨⟨no_comment, kind⟩, _⟩ := h
  by_cases loose : (textOf raw).Loose
  · rcases reads.of_loose loose no_comment no_heading with
      ⟨left, right, values, assigns, reads⟩ | reads
    · exact exists_misleads_of_loose_entry closed loose assigns reads
    · obtain ⟨values, reads⟩ := reads ⟨chars "k", [[]]⟩
      exact exists_misleads_of_loose_values closed loose no_comment reads
  · exact exists_misleads_of_misnamed closed (kind.resolve_left loose) loose no_comment reads
      no_heading

end Keyfile
