import Keyfile.Proofs.Trap

namespace Keyfile

/-- A line that does not name a section has no bare bracket, unless it says nothing. -/
theorem Reads.quiet_or_no_bracket {inSection : Bool} {before? after? : Option Pending} {t : Text}
    {item? : Option Item} (h : Reads inSection before? t after? item?)
    (no_heading : ∀ name, item? ≠ some (.heading name)) :
    (t.Blank ∨ t.Comment) ∨ ¬ t.HasBare '[' := by
  cases h with
  | skip skipped =>
    rcases skipped with rfl | comment
    · exact Or.inl (Or.inl Text.blank_nil)
    · exact Or.inl (Or.inr comment)
  | blank blank => exact Or.inl (Or.inl blank)
  | lastBlank _ blank => exact Or.inl (Or.inl blank)
  | heading => exact absurd rfl (no_heading _)
  | entry _ _ _ _ _ bracket => exact Or.inr bracket
  | values _ _ _ bracket => exact Or.inr bracket

theorem Reads.not_startsBracket {inSection : Bool} {before? after? : Option Pending} {t : Text}
    {item? : Option Item} (h : Reads inSection before? t after? item?)
    (no_heading : ∀ name, item? ≠ some (.heading name)) : ¬ t.StartsBracket := by
  intro starts
  rcases h.quiet_or_no_bracket no_heading with (blank | comment) | bracket
  · exact starts.not_blank blank
  · exact starts.not_comment comment
  · exact bracket starts.hasBare

theorem Reads.exists_assigns {inSection : Bool} {after? : Option Pending} {t k : Text}
    {item? : Option Item} (h : Reads inSection none t after? item?)
    (opens : (∃ values, after? = some ⟨k, values⟩ ∧ item? = none) ∨
      (after? = none ∧ ∃ values, item? = some (.entry k values))) :
    ¬ t.Blank ∧ ¬ t.Comment ∧ ¬ t.HasBare '[' ∧
      ∃ left right, t.Assigns left right ∧ normalName left = k := by
  cases h with
  | skip => simp at opens
  | blank => simp at opens
  | heading => simp at opens
  | @entry _ left right _ _ _ _ filled no_comment _ _ _ bracket assigns _ after =>
    refine ⟨filled, no_comment, bracket, left, right, assigns, ?_⟩
    rcases Pending.after_cases after with ⟨values, rfl, rfl⟩ | ⟨rfl, values, rfl⟩
    · simpa using opens
    · simpa using opens

namespace Search

variable (sectionName key : Text) {s : Search} {o : Sighting}

/-- What a block changes in a search that is not inside values. -/
def pass (sectionName key : Text) (s : Search) : Block → Search
  | .quiet _ => { s with count := s.count + 1 }
  | .heading _ name =>
    { s with
      count := s.count + 1
      here? := if name = sectionName then some ⟨s.count + 1, none⟩ else none
      earlier? := s.here?.or s.earlier? }
  | .entry raws k _ =>
    { s with
      count := s.count + raws.length
      here? := s.here?.map fun o =>
        ⟨s.count + raws.length,
          if k = key then some (s.count + 1, s.count + raws.length) else o.span?⟩ }

theorem opensBracket_eq_false {line : Line} (h : ¬ line.text.HasBare '[') :
    line.opensBracket = false := by
  rw [Bool.eq_false_iff]
  intro opens
  obtain ⟨w, blank, split⟩ := line.text.exists_trimStart
  obtain ⟨q, start⟩ := List.head?_eq_some_iff.mp (of_decide_eq_true opens)
  rw [start] at split
  refine h (split ▸ Text.hasBare_append_cons_self (Text.not_escapes_of_not_mem ?_) q)
  intro backslash
  exact absurd (blank _ backslash) (by decide)

theorem opensBracket_of_startsBracket {line : Line} (h : line.text.StartsBracket) :
    line.opensBracket = true := by
  obtain ⟨q, start⟩ := h.trimStart_eq
  rw [Line.opensBracket, start]
  rfl

theorem step_skip (line : Line) (h : line.text = [] ∨ line.text.Comment) :
    s.step sectionName key line = { s with count := line.number } := by
  have not_content : line.isContent = false := by
    rw [Bool.eq_false_iff, ne_eq, Line.isContent_iff]
    rintro ⟨filled, no_comment⟩
    rcases h with empty | comment
    · exact filled (empty ▸ Text.blank_nil)
    · exact no_comment comment
  have skipped : (line.isEmpty || line.isComment) = true := by
    simpa [Line.isEmpty_eq, Line.isComment_eq] using h
  unfold step
  cases within : s.within? with
  | none => simp [takeLine, not_content]
  | some ofKey => simp [continueValues, skipped]

theorem step_quiet (line : Line) (within : s.within? = none)
    (h : line.text.Blank ∨ line.text.Comment) :
    s.step sectionName key line = { s with count := line.number } := by
  have not_content : line.isContent = false := by
    rw [Bool.eq_false_iff, ne_eq, Line.isContent_iff]
    tauto
  simp [step, within, takeLine, not_content]

theorem step_heading (line : Line) (within : s.within? = none)
    (starts : line.text.StartsBracket) {name : Text} (names : line.text.Names name) :
    s.step sectionName key line =
      { s with
        count := line.number
        here? := if name = sectionName then some ⟨line.number, none⟩ else none
        earlier? := s.here?.or s.earlier? } := by
  have content : line.isContent = true :=
    Line.isContent_iff.mpr ⟨starts.not_blank, starts.not_comment⟩
  simp [step, within, takeLine, content, opensBracket_of_startsBracket starts,
    Line.sectionName?_eq_some.mpr names]

theorem step_elsewhere (line : Line) (within : s.within? = none) (here : s.here? = none)
    (bracket : ¬ line.text.HasBare '[') :
    s.step sectionName key line = { s with count := line.number } := by
  simp [step, within, takeLine, opensBracket_eq_false bracket, here]

theorem step_entry (line : Line) (within : s.within? = none) (here : s.here? = some o)
    (filled : ¬ line.text.Blank) (no_comment : ¬ line.text.Comment)
    (bracket : ¬ line.text.HasBare '[') :
    s.step sectionName key line =
      { s with
        count := line.number
        here? := some (o.follow line.number (leftName? line.text = some key))
        within? := withinAfter line (leftName? line.text = some key) } := by
  have content : line.isContent = true := Line.isContent_iff.mpr ⟨filled, no_comment⟩
  simp [step, within, takeLine, content, opensBracket_eq_false bracket, here]

theorem step_values (line : Line) {ofKey : Bool} (within : s.within? = some ofKey)
    (here : s.here? = some o) (full : line.text ≠ []) (no_comment : ¬ line.text.Comment) :
    s.step sectionName key line =
      { s with
        count := line.number
        here? := some (o.extend line.number ofKey)
        within? := withinAfter line ofKey } := by
  have filled : (line.isEmpty || line.isComment) = false := by
    simp [Line.isEmpty_eq, Line.isComment_eq, full, no_comment]
  simp [step, within, continueValues, filled, here]

theorem foldl_step_elsewhere {before? : Option Pending} {raws : List Bytes} {k : Text}
    {values : List Text} (fills : Fills before? raws k values) (within : s.within? = none)
    (here : s.here? = none) :
    (Line.numberFrom (s.count + 1) raws).foldl (step sectionName key) s =
      { s with count := s.count + raws.length } := by
  induction fills generalizing s with
  | last reads =>
    rcases reads.quiet_or_no_bracket (by simp) with quiet | bracket
    · exact step_quiet sectionName key ⟨_, _⟩ within quiet
    · exact step_elsewhere sectionName key ⟨_, _⟩ within here bracket
  | @more _ p raw raws k values reads _ ih =>
    have first : s.step sectionName key ⟨s.count + 1, raw⟩ = { s with count := s.count + 1 } := by
      rcases reads.quiet_or_no_bracket (by simp) with quiet | bracket
      · exact step_quiet sectionName key ⟨_, _⟩ within quiet
      · exact step_elsewhere sectionName key ⟨_, _⟩ within here bracket
    rw [Line.numberFrom, List.foldl_cons, first]
    have later := ih (s := { s with count := s.count + 1 }) within here
    simp only at later
    rw [later, List.length_cons]
    congr 1
    omega

/-- Of further lines of an entry the last one counts. -/
theorem foldl_step_values {before? : Option Pending} {raws : List Bytes} {k : Text}
    {values : List Text} {ofKey : Bool} (fills : Fills before? raws k values)
    (within : s.within? = some ofKey) (here : s.here? = some o)
    (plain : ∀ raw ∈ raws, ¬ (textOf raw).Trap) :
    (Line.numberFrom (s.count + 1) raws).foldl (step sectionName key) s =
      { s with
        count := s.count + raws.length
        here? := some (o.extend (s.count + raws.length) ofKey)
        within? := none } := by
  -- The search leaves the values on the line on which the reader completes the entry, and not on an
  -- earlier one: without traps both see the same commas.
  induction fills generalizing s o with
  | @last _ raw k values reads =>
    have spoken : ¬ (textOf raw = [] ∨ (textOf raw).Comment) := by
      intro skipped
      obtain ⟨_, wrong⟩ := reads.of_skip skipped
      cases wrong
    rw [not_or] at spoken
    have closes := reads.endsInComma_iff spoken.1 spoken.2 (reads.not_startsBracket (by simp))
      (Text.not_loose_of_not_trap (plain raw (by simp)) spoken.2)
    have ends : endsInComma (textOf raw) = false := by simpa using closes
    have first := step_values sectionName key ⟨s.count + 1, raw⟩ within here spoken.1 spoken.2
    rw [Line.numberFrom, List.foldl_cons, first, withinAfter, text_eq_textOf, ends]
    rfl
  | @more _ p raw raws k values reads _ ih =>
    have later_plain : ∀ raw ∈ raws, ¬ (textOf raw).Trap :=
      fun raw hr => plain raw (List.mem_cons_of_mem _ hr)
    by_cases skipped : textOf raw = [] ∨ (textOf raw).Comment
    · have first := step_skip sectionName key (s := s) ⟨s.count + 1, raw⟩ skipped
      have later := ih (s := { s with count := s.count + 1 }) within here later_plain
      simp only at later
      rw [Line.numberFrom, List.foldl_cons, first, later, List.length_cons,
        show s.count + 1 + raws.length = s.count + (raws.length + 1) by omega]
    · rw [not_or] at skipped
      have goes_on := reads.endsInComma_iff skipped.1 skipped.2 (reads.not_startsBracket (by simp))
        (Text.not_loose_of_not_trap (plain raw (by simp)) skipped.2)
      have ends : endsInComma (textOf raw) = true := by simpa using goes_on
      have first := step_values sectionName key ⟨s.count + 1, raw⟩ within here skipped.1 skipped.2
      rw [withinAfter, text_eq_textOf, ends, if_pos rfl] at first
      have later := ih (s := { s with
        count := s.count + 1, here? := some (o.extend (s.count + 1) ofKey),
        within? := some ofKey }) rfl rfl later_plain
      simp only at later
      rw [Line.numberFrom, List.foldl_cons, first, later, List.length_cons,
        show s.count + 1 + raws.length = s.count + (raws.length + 1) by omega]
      cases ofKey <;> simp [Sighting.extend, Function.comp_def]

theorem step_opens {raw : Bytes} {after? : Option Pending} {item? : Option Item} {k : Text}
    (reads : Reads true none (textOf raw) after? item?)
    (opens : (∃ values, after? = some ⟨k, values⟩ ∧ item? = none) ∨
      (after? = none ∧ ∃ values, item? = some (.entry k values)))
    (within : s.within? = none) (here : s.here? = some o) (plain : ¬ (textOf raw).Trap)
    (valid : Setting.checkKey key = .ok ()) :
    s.step sectionName key ⟨s.count + 1, raw⟩ =
      { s with
        count := s.count + 1
        here? := some (o.follow (s.count + 1) (k = key))
        within? := if after?.isSome then some (decide (k = key)) else none } := by
  obtain ⟨filled, no_comment, bracket, left, right, assigns, rfl⟩ := reads.exists_assigns opens
  have no_heading : ¬ (textOf raw).StartsBracket := fun starts => bracket starts.hasBare
  have names := assigns.leftName?_eq_some_iff no_comment plain valid
  have ends := reads.endsInComma_iff (fun empty => filled (empty ▸ Text.blank_nil)) no_comment
    no_heading (Text.not_loose_of_not_trap plain no_comment)
  rw [step_entry _ _ ⟨s.count + 1, raw⟩ within here filled no_comment bracket, withinAfter,
    text_eq_textOf]
  simp only [names, ends]

/-- Of the lines of an entry the first and the last one count. -/
theorem foldl_step_entry {raws : List Bytes} {k : Text} {values : List Text}
    (fills : Fills none raws k values) (within : s.within? = none) (here : s.here? = some o)
    (plain : ∀ raw ∈ raws, ¬ (textOf raw).Trap) (valid : Setting.checkKey key = .ok ()) :
    (Line.numberFrom (s.count + 1) raws).foldl (step sectionName key) s =
      { s with
        count := s.count + raws.length
        here? := some ⟨s.count + raws.length,
          if k = key then some (s.count + 1, s.count + raws.length) else o.span?⟩ } := by
  cases fills with
  | @last _ raw _ _ reads =>
    have first := step_opens sectionName key reads (Or.inr ⟨rfl, values, rfl⟩) within here
      (plain raw (by simp)) valid
    rw [Line.numberFrom, List.foldl_cons, first]
    simp [Line.numberFrom, Sighting.follow, within]
  | @more _ p raw raws _ _ reads more =>
    obtain rfl := more.key_eq
    have first := step_opens sectionName key reads (Or.inl ⟨p.values, rfl, rfl⟩) within here
      (plain raw (by simp)) valid
    have later := foldl_step_values sectionName key (s := { s with
      count := s.count + 1, here? := some (o.follow (s.count + 1) (p.key = key)),
      within? := some (decide (p.key = key)) }) more rfl rfl
      fun raw hr => plain raw (List.mem_cons_of_mem _ hr)
    simp only at later
    rw [Line.numberFrom, List.foldl_cons, first, Option.isSome_some, if_pos rfl, later,
      List.length_cons, show s.count + 1 + raws.length = s.count + (raws.length + 1) by omega]
    by_cases same : p.key = key <;> simp [Sighting.extend, Sighting.follow, same, within]

/-- A search passes over the lines of a block. -/
theorem foldl_step_block {b : Block} (sound : b.Sound) (within : s.within? = none)
    (plain : ∀ raw ∈ b.raws, ¬ (textOf raw).Trap) (valid : Setting.checkKey key = .ok ()) :
    (Line.numberFrom (s.count + 1) b.raws).foldl (step sectionName key) s =
      s.pass sectionName key b := by
  cases b with
  | quiet raw => exact step_quiet sectionName key ⟨s.count + 1, raw⟩ within sound
  | heading raw name =>
    exact step_heading sectionName key ⟨s.count + 1, raw⟩ within sound.1 sound.2
  | entry raws k values =>
    cases here : s.here? with
    | none =>
      rw [Block.raws, foldl_step_elsewhere _ _ sound within here, pass]
      simp [here]
    | some o =>
      rw [Block.raws, foldl_step_entry _ _ sound within here plain valid, pass]
      simp [here]

theorem count_pass (s : Search) (b : Block) :
    (s.pass sectionName key b).count = s.count + b.raws.length := by
  cases b <;> rfl

theorem within?_pass (s : Search) (b : Block) :
    (s.pass sectionName key b).within? = s.within? := by
  cases b <;> rfl

theorem foldl_step_blocks {inSection : Bool} {blocks : List Block} (laid : Laid inSection blocks)
    (within : s.within? = none) (plain : ∀ raw ∈ rawsOf blocks, ¬ (textOf raw).Trap)
    (valid : Setting.checkKey key = .ok ()) :
    (Line.numberFrom (s.count + 1) (rawsOf blocks)).foldl (step sectionName key) s =
      blocks.foldl (pass sectionName key) s := by
  induction blocks generalizing s inSection with
  | nil => rfl
  | cons b rest ih =>
    obtain ⟨sound, _, laid⟩ := laid
    rw [rawsOf_cons] at plain
    have own := foldl_step_block sectionName key sound within
      (fun raw hr => plain raw (List.mem_append_left _ hr)) valid
    have others := ih (s := s.pass sectionName key b) laid ((within?_pass _ _ s b).trans within)
      fun raw hr => plain raw (List.mem_append_right _ hr)
    rw [count_pass] at others
    rw [rawsOf_cons, Line.numberFrom_append, List.foldl_append, own, List.foldl_cons, ← others]
    congr 2
    omega

end Search

/-- In a content without traps the place of a key is found from the blocks. -/
theorem LaidOut.find_eq {content : Bytes} {blocks : List Block} (h : LaidOut content blocks)
    (plain : ∀ raw ∈ rawsOf blocks, ¬ (textOf raw).Trap) (sectionName : Text) {key : Text}
    (valid : Setting.checkKey key = .ok ()) :
    Slot.find sectionName key (Line.scan content) =
      (blocks.foldl (Search.pass sectionName key) .start).slot := by
  rw [Slot.find, Line.scan, ← h.raws]
  exact congrArg Search.slot (Search.foldl_step_blocks _ _ (s := .start) h.laid rfl plain valid)

end Keyfile
