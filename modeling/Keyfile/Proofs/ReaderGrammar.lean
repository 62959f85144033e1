import Keyfile.Proofs.ReaderChars

namespace Keyfile

theorem Line.sectionName?_eq_some {line : Line} {name : Text} :
    line.sectionName? = some name ↔ line.text.Names name := by
  unfold sectionName? Text.Names
  constructor
  · intro h
    split at h
    next rest start =>
      split at h
      next closing =>
        obtain ⟨inner, rfl⟩ := List.getLast?_eq_some_iff.mp closing
        refine ⟨inner, start, ?_⟩
        simp_all
      next => simp at h
    next => simp at h
  · rintro ⟨inner, start, opening, closing, rfl⟩
    rw [start]
    simp [opening, closing]

theorem Line.isEmpty_eq {line : Line} : line.isEmpty = decide (line.text = []) := by
  cases h : line.text <;> simp [isEmpty, h]

theorem Line.isComment_eq {line : Line} : line.isComment = decide line.text.Comment := rfl

theorem Line.isBlank_iff {line : Line} : line.isBlank ↔ line.text.Blank := by
  rw [isBlank, List.isEmpty_iff, Text.trim_eq_nil]

theorem Line.isContent_iff {line : Line} :
    line.isContent ↔ ¬ line.text.Blank ∧ ¬ line.text.Comment := by
  have blank := @isBlank_iff line
  simp only [isContent, isComment_eq]
  cases h : line.isBlank <;> simp_all

namespace Text

theorem StartsBracket.trimStart_eq {t : Text} (h : t.StartsBracket) :
    ∃ q, t.trimStart = '[' :: q := by
  obtain ⟨p, q, rfl, all⟩ := h.exists_split
  refine ⟨q, ?_⟩
  rw [trimStart_append_of_blank fun c hc => isBlank_of_isGap (List.all_eq_true.mp all c hc),
    trimStart_of_head (by decide)]

theorem StartsBracket.not_blank {t : Text} (h : t.StartsBracket) : ¬ t.Blank := by
  obtain ⟨q, start⟩ := h.trimStart_eq
  rw [← trimStart_eq_nil, start]
  simp

theorem StartsBracket.not_comment {t : Text} (h : t.StartsBracket) : ¬ t.Comment := by
  obtain ⟨q, start⟩ := h.trimStart_eq
  rw [Comment, start]
  simp

theorem Comment.not_blank {t : Text} (h : t.Comment) : ¬ t.Blank := by
  intro blank
  rw [Comment, trimStart_eq_nil.mpr blank] at h
  simp at h

theorem Comment.of_append {t w : Text} (h : Comment (t ++ w)) (filled : ¬ t.Blank) : t.Comment := by
  rw [Comment, trimStart_append_of_not_blank filled, List.head?_append] at h
  cases head : t.trimStart.head? with
  | none => exact absurd (trimStart_eq_nil.mp (List.head?_eq_none_iff.mp head)) filled
  | some c =>
    rw [head] at h
    exact head.trans h

theorem comment_append_of_blank {w : Text} (h : Blank w) (t : Text) :
    Comment (w ++ t) ↔ t.Comment := by
  rw [Comment, trimStart_append_of_blank h, Comment]

end Text

namespace Reads

variable {inSection : Bool} {before? after? : Option Pending} {t : Text} {item? : Option Item}

theorem of_skip (h : Reads inSection before? t after? item?) (skipped : t = [] ∨ t.Comment) :
    after? = before? ∧ item? = none := by
  cases h with
  | skip => exact ⟨rfl, rfl⟩
  | blank => exact ⟨rfl, rfl⟩
  | lastBlank full blank =>
    rcases skipped with empty | comment
    · exact absurd empty full
    · exact absurd blank comment.not_blank
  | heading starts =>
    rcases skipped with rfl | comment
    · exact absurd Text.blank_nil starts.not_blank
    · exact absurd comment starts.not_comment
  | entry filled no_comment =>
    rcases skipped with rfl | comment
    · exact absurd Text.blank_nil filled
    · exact absurd comment no_comment
  | values filled no_comment =>
    rcases skipped with rfl | comment
    · exact absurd Text.blank_nil filled
    · exact absurd comment no_comment

theorem of_blank (h : Reads inSection none t after? item?) (blank : t.Blank) :
    after? = none ∧ item? = none := by
  cases h with
  | skip => exact ⟨rfl, rfl⟩
  | blank => exact ⟨rfl, rfl⟩
  | heading starts => exact absurd blank starts.not_blank
  | entry filled => exact absurd blank filled

theorem of_lastBlank {p : Pending} (h : Reads inSection (some p) t after? item?) (full : t ≠ [])
    (blank : t.Blank) : after? = none ∧ item? = some (.entry p.key (p.values ++ [[]])) := by
  cases h with
  | skip skipped =>
    rcases skipped with empty | comment
    · exact absurd empty full
    · exact absurd blank comment.not_blank
  | lastBlank => exact ⟨rfl, rfl⟩
  | values filled => exact absurd blank filled

theorem closed_iff (filled : ¬ t.Blank) (no_comment : ¬ t.Comment) :
    Reads inSection none t after? item? ↔
      (t.StartsBracket ∧ ∃ name, t.Names name ∧ after? = none ∧ item? = some (.heading name)) ∨
      (¬ t.StartsBracket ∧ inSection ∧ ¬ t.Escapes ∧ ¬ t.HasBare '[' ∧
        ∃ left right, t.Assigns left right ∧ ∃ pieces last, right.Cuts pieces last ∧
          Pending.after ⟨normalName left, []⟩ pieces last = (after?, item?)) := by
  constructor
  · intro h
    cases h with
    | skip skipped =>
      rcases skipped with rfl | comment
      · exact absurd Text.blank_nil filled
      · exact absurd comment no_comment
    | blank blank => exact absurd blank filled
    | heading starts names => exact Or.inl ⟨starts, _, names, rfl, rfl⟩
    | entry _ _ starts named even bracket assigns cuts after =>
      exact Or.inr ⟨starts, named, even, bracket, _, _, assigns, _, _, cuts, after⟩
  · rintro (⟨starts, name, names, rfl, rfl⟩ |
      ⟨starts, named, even, bracket, left, right, assigns, pieces, last, cuts, after⟩)
    · exact .heading starts names
    · exact .entry filled no_comment starts named even bracket assigns cuts after

theorem open_iff {p : Pending} (filled : ¬ t.Blank) (no_comment : ¬ t.Comment) :
    Reads inSection (some p) t after? item? ↔
      ¬ t.Escapes ∧ ¬ t.HasBare '[' ∧ ¬ t.HasBare '=' ∧
        ∃ pieces last, t.Cuts pieces last ∧ p.after pieces last = (after?, item?) := by
  constructor
  · intro h
    cases h with
    | skip skipped =>
      rcases skipped with rfl | comment
      · exact absurd Text.blank_nil filled
      · exact absurd comment no_comment
    | lastBlank _ blank => exact absurd blank filled
    | values _ _ even bracket equals cuts after =>
      exact ⟨even, bracket, equals, _, _, cuts, after⟩
  · rintro ⟨even, bracket, equals, pieces, last, cuts, after⟩
    exact .values filled no_comment even bracket equals cuts after

end Reads

namespace Reader

/-- The reader after a line that leaves a key open and completes an item. -/
def next (r : Reader) (number : Nat) (open? : Option Pending) (item? : Option Item) : Reader :=
  ⟨match item? with
    | some (.heading _) => true
    | _ => r.inSection,
    open?.map (·.key), false, false, [], (open?.map (·.values)).getD [],
    if open? = r.open? ∧ item? = none then r.last else number⟩

theorem Resting.next (r : Reader) (number : Nat) (open? : Option Pending) (item? : Option Item) :
    (r.next number open? item?).Resting := by
  refine ⟨rfl, rfl, rfl, ?_⟩
  cases open? <;> simp [Reader.next]

theorem open?_next (r : Reader) (number : Nat) (open? : Option Pending) (item? : Option Item) :
    (r.next number open? item?).open? = open? := by
  cases open? <;> simp [Reader.next, Reader.open?]

theorem Resting.next_same {r : Reader} (rest : r.Resting) (number : Nat) :
    r.next number r.open? none = r := by
  obtain ⟨inSection, key?, afterComma, escaping, buffer, values, last⟩ := r
  obtain ⟨rfl, rfl, rfl, empty⟩ := rest
  cases key? with
  | none =>
    obtain rfl := empty rfl
    simp [Reader.next, Reader.open?]
  | some key => simp [Reader.next, Reader.open?]

theorem finish_eq_next {r : Reader} {key : Text} (opened : r.key? = some key)
    (afterComma : r.afterComma = false) (number : Nat) (pieces : List Text) (last : Text) :
    r.finish number key pieces last =
      (r.next number (Pending.after ⟨key, r.values⟩ pieces last).1
          (Pending.after ⟨key, r.values⟩ pieces last).2,
        (Pending.after ⟨key, r.values⟩ pieces last).2) := by
  by_cases goes_on : pieces ≠ [] ∧ last.all isGap
  · rw [finish, if_pos ⟨Or.inr goes_on.1, goes_on.2⟩, Pending.after, if_pos goes_on]
    simp [Reader.next, Reader.open?, opened, goes_on.1]
  · rw [finish, if_neg (by simpa [afterComma] using goes_on), Pending.after, if_neg goes_on]
    simp [Reader.next]

theorem finish_openKey {r : Reader} (closed : r.key? = none) (values : r.values = [])
    (number : Nat) (left : Text) (pieces : List Text) (last : Text) :
    (r.openKey number left).finish number (normalName left) pieces last =
      (r.next number (Pending.after ⟨normalName left, []⟩ pieces last).1
          (Pending.after ⟨normalName left, []⟩ pieces last).2,
        (Pending.after ⟨normalName left, []⟩ pieces last).2) := by
  by_cases goes_on : pieces ≠ [] ∧ last.all isGap
  · rw [finish, if_pos ⟨Or.inr goes_on.1, goes_on.2⟩, Pending.after, if_pos goes_on]
    simp [Reader.next, Reader.open?, openKey, closed, values]
  · rw [finish, if_neg (by simpa [openKey] using goes_on), Pending.after, if_neg goes_on]
    simp [Reader.next, openKey, values]

theorem Resting.heading_eq_next {r : Reader} (rest : r.Resting) (closed : r.key? = none)
    (number : Nat) (name : Text) :
    { r with inSection := true, last := number } = r.next number none (some (.heading name)) := by
  obtain ⟨inSection, key?, afterComma, escaping, buffer, values, last⟩ := r
  obtain ⟨rfl, rfl, rfl, empty⟩ := rest
  obtain rfl : key? = none := closed
  obtain rfl := empty rfl
  simp [Reader.next]

/-- Where the grammar leaves a line no choice, a reader that makes this one does what it says. -/
theorem read_iff_of_only {r r' : Reader} {line : Line} {after? : Option Pending}
    {item? said? : Option Item}
    (read : r.read line = .ok (r.next line.number after? said?, said?))
    (reads : Reads r.inSection r.open? line.text after? said?)
    (only : ∀ open? item?, Reads r.inSection r.open? line.text open? item? →
      open? = after? ∧ item? = said?) :
    r.read line = .ok (r', item?) ↔
      ∃ open?, Reads r.inSection r.open? line.text open? item? ∧
        r' = r.next line.number open? item? := by
  constructor
  · intro same
    rw [read] at same
    cases same
    exact ⟨_, reads, rfl⟩
  · rintro ⟨open?, reads', rfl⟩
    obtain ⟨rfl, rfl⟩ := only _ _ reads'
    exact read

section

variable {r r' : Reader} {line : Line} {item? : Option Item}

theorem readChars_iff_of_closed (rest : r.Resting) (state : r.key? = none)
    (filled : ¬ line.text.Blank) (no_comment : ¬ line.text.Comment) :
    readChars line r line.text = .ok (r', item?) ↔
      ∃ open?, Reads r.inSection none line.text open? item? ∧
        r' = r.next line.number open? item? := by
  rw [readChars_closed state rest.afterComma rest.buffer rest.escaping]
  simp only [Reads.closed_iff filled no_comment, finish_openKey state (rest.values state),
    Line.sectionName?_eq_some]
  constructor
  · rintro (⟨starts, name, names, same⟩ |
      ⟨starts, named, even, bracket, left, right, assigns, pieces, last, cuts, same⟩)
    · obtain ⟨rfl, rfl⟩ := Prod.mk.inj same
      exact ⟨none, Or.inl ⟨starts, name, names, rfl, rfl⟩, rest.heading_eq_next state _ _⟩
    · obtain ⟨rfl, rfl⟩ := Prod.mk.inj same
      exact ⟨_, Or.inr ⟨starts, named, even, bracket, left, right, assigns, pieces, last, cuts,
        rfl⟩, rfl⟩
  · rintro ⟨open?, ⟨starts, name, names, rfl, rfl⟩ |
      ⟨starts, named, even, bracket, left, right, assigns, pieces, last, cuts, after⟩, rfl⟩
    · exact Or.inl ⟨starts, name, names, by rw [rest.heading_eq_next state]⟩
    · exact Or.inr ⟨starts, named, even, bracket, left, right, assigns, pieces, last, cuts,
        by rw [after]⟩

theorem readChars_iff_of_open {key : Text} (rest : r.Resting) (state : r.key? = some key)
    (filled : ¬ line.text.Blank) (no_comment : ¬ line.text.Comment) :
    readChars line r line.text = .ok (r', item?) ↔
      ∃ open?, Reads r.inSection (some ⟨key, r.values⟩) line.text open? item? ∧
        r' = r.next line.number open? item? := by
  rw [readChars_values state rest.buffer rest.escaping]
  simp only [Reads.open_iff filled no_comment, finish_eq_next state rest.afterComma]
  constructor
  · rintro ⟨even, bracket, equals, pieces, last, cuts, same⟩
    obtain ⟨rfl, rfl⟩ := Prod.mk.inj same
    exact ⟨_, ⟨even, bracket, equals, pieces, last, cuts, rfl⟩, rfl⟩
  · rintro ⟨open?, ⟨even, bracket, equals, pieces, last, cuts, after⟩, rfl⟩
    exact ⟨even, bracket, equals, pieces, last, cuts, by rw [after]⟩

end

/-- A line that is neither blank nor a comment is read by its characters. -/
theorem read_eq_readChars {line : Line} (filled : ¬ line.text.Blank)
    (no_comment : ¬ line.text.Comment) (r : Reader) : r.read line = readChars line r line.text := by
  have full : line.text ≠ [] := fun empty => filled (empty ▸ Text.blank_nil)
  have said : (line.isEmpty || line.isComment) = false := by
    simp [Line.isEmpty_eq, Line.isComment_eq, full, no_comment]
  have isBlank : line.isBlank = false := by
    rw [Bool.eq_false_iff]
    exact fun h => filled (Line.isBlank_iff.mp h)
  simp [read, said, isBlank]

/-- Between lines a reader does with a line what the grammar says, and nothing else. -/
theorem read_eq_ok_iff {r r' : Reader} {line : Line} {item? : Option Item} (rest : r.Resting) :
    r.read line = .ok (r', item?) ↔
      ∃ open?, Reads r.inSection r.open? line.text open? item? ∧
        r' = r.next line.number open? item? := by
  by_cases skipped : line.text = [] ∨ line.text.Comment
  · have quiet : r.read line = .ok (r.next line.number r.open? none, none) := by
      rw [rest.next_same]
      simp [read, Line.isEmpty_eq, Line.isComment_eq, skipped]
    exact read_iff_of_only quiet (.skip skipped) fun _ _ reads => reads.of_skip skipped
  have full : line.text ≠ [] := fun empty => skipped (Or.inl empty)
  have no_comment : ¬ line.text.Comment := fun comment => skipped (Or.inr comment)
  have content : (line.isEmpty || line.isComment) = false := by
    simp [Line.isEmpty_eq, Line.isComment_eq, full, no_comment]
  by_cases blank : line.text.Blank
  · have isBlank : line.isBlank = true := Line.isBlank_iff.mpr blank
    cases state : r.key? with
    | none =>
      have closed : r.open? = none := by simp [Reader.open?, state]
      have same : r.next line.number none none = r := by
        have unchanged := rest.next_same line.number
        rwa [closed] at unchanged
      have quiet : r.read line = .ok (r.next line.number none none, none) := by
        rw [same]
        simp [read, content, isBlank, state]
      refine read_iff_of_only quiet ?_ ?_ <;> rw [closed]
      · exact .blank blank
      · exact fun _ _ reads => reads.of_blank blank
    | some key =>
      have opened : r.open? = some ⟨key, r.values⟩ := by simp [Reader.open?, state]
      have complete : r.read line = .ok (r.next line.number none
          (some (.entry key (r.values ++ [[]]))), some (.entry key (r.values ++ [[]]))) := by
        simp [read, content, isBlank, state, closeLine, rest.escaping, rest.buffer, piece,
          Reader.next]
        rfl
      refine read_iff_of_only complete ?_ ?_ <;> rw [opened]
      · exact .lastBlank full blank
      · exact fun _ _ reads => reads.of_lastBlank full blank
  · rw [read_eq_readChars blank no_comment]
    cases state : r.key? with
    | none =>
      rw [show r.open? = none by simp [Reader.open?, state]]
      exact readChars_iff_of_closed rest state blank no_comment
    | some key =>
      rw [show r.open? = some ⟨key, r.values⟩ by simp [Reader.open?, state]]
      exact readChars_iff_of_open rest state blank no_comment

end Reader

end Keyfile
