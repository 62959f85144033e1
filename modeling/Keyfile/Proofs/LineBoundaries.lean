import Keyfile.Proofs.ReaderRun

namespace Keyfile

theorem Pending.of_after_eq_some {p q : Pending} {pieces : List Text} {last : Text}
    {item? : Option Item} (h : q.after pieces last = (some p, item?)) :
    pieces ≠ [] ∧ p = ⟨q.key, q.values ++ pieces.map Text.trim⟩ ∧ item? = none := by
  unfold Pending.after at h
  split at h
  next goes_on =>
    obtain ⟨same, rfl⟩ := Prod.mk.inj h
    exact ⟨goes_on.1, (Option.some.inj same).symm, rfl⟩
  next => simp at h

/-- A line behind which a key is open was passed over, or it ended a value. -/
theorem Reads.of_open {inSection : Bool} {before? : Option Pending} {t : Text} {p : Pending}
    {item? : Option Item} (h : Reads inSection before? t (some p) item?) :
    item? = none ∧ ((before? = some p ∧ (t = [] ∨ t.Comment)) ∨
      before? ≠ some p ∧ p.values ≠ [] ∧ (before? = none → inSection)) := by
  cases h with
  | skip skipped => exact ⟨rfl, Or.inl ⟨rfl, skipped⟩⟩
  | entry _ _ _ named _ _ _ _ after =>
    obtain ⟨some_piece, rfl, rfl⟩ := Pending.of_after_eq_some after
    exact ⟨rfl, Or.inr ⟨by simp, by simpa using some_piece, fun _ => named⟩⟩
  | @values q _ _ pieces _ _ _ _ _ _ _ _ after =>
    obtain ⟨some_piece, rfl, rfl⟩ := Pending.of_after_eq_some after
    have longer : q ≠ ⟨q.key, q.values ++ pieces.map Text.trim⟩ := fun same =>
      some_piece (by simpa using congrArg Pending.values same)
    exact ⟨rfl, Or.inr ⟨by simpa using longer, by simp [some_piece], by simp⟩⟩

namespace Draft

/-- Entries go to the last section that was started. -/
theorem open?_foldl_add (items : List Item) (d : Draft) :
    (items.foldl add d).open? = (headingsOf items).getLast?.or d.open? := by
  induction items generalizing d with
  | nil => rfl
  | cons item items ih =>
    rw [List.foldl_cons, ih]
    cases item with
    | heading name => simp [add, List.getLast?_cons]
    | entry key values =>
      obtain ⟨sections, open?⟩ := d
      cases open? <;> rfl

end Draft

theorem mem_headingsOf {name : Text} {items : List Item} :
    name ∈ headingsOf items ↔ Item.heading name ∈ items := by
  rw [headingsOf, List.mem_filterMap]
  constructor
  · rintro ⟨item, mem, named⟩
    cases item with
    | heading other =>
      obtain rfl := Option.some.inj named
      exact mem
    | entry key values => cases named
  · exact fun mem => ⟨_, mem, rfl⟩

namespace Reader

variable {r r' : Reader} {fed lines : List Line} {said items : List Item} {line : Line}
  {item? : Option Item}

/-- The line on which the reader got on last is among the lines, and those behind it were passed
over. -/
def GotOn (r : Reader) (fed : List Line) : Prop :=
  ∃ before line after, fed = before ++ line :: after ∧ line.number = r.last ∧
    ∀ l ∈ after, l.isEmpty ∨ l.isComment

/-- A reader between lines, with the lines that it was fed and what these said. -/
structure Between (r : Reader) (fed : List Line) (said : List Item) : Prop where
  resting : r.Resting
  named : r.inSection ↔ headingsOf said ≠ []
  opened : ∀ p, r.open? = some p → r.inSection ∧ p.values ≠ [] ∧ r.GotOn fed
  placed : ∀ before key values after,
    said = before ++ .entry key values :: after → headingsOf before ≠ []

theorem between_start : start.Between [] [] := by
  refine ⟨resting_start, by simp [start], fun p opened => ?_,
    fun before key values after wrong => ?_⟩
  · cases opened
  · simp at wrong

theorem GotOn.pass (h : r.GotOn fed) (passed : line.isEmpty ∨ line.isComment) :
    r.GotOn (fed ++ [line]) := by
  obtain ⟨before, own, after, rfl, number, skipped⟩ := h
  refine ⟨before, own, after ++ [line], by simp, number, fun l mem => ?_⟩
  rcases List.mem_append.mp mem with mem | mem
  · exact skipped l mem
  · exact List.mem_singleton.mp mem ▸ passed

theorem Between.read (h : r.Between fed said) (read : r.read line = .ok (r', item?)) :
    r'.Between (fed ++ [line]) (said ++ item?.toList) := by
  obtain ⟨open?, reads, rfl⟩ := (read_eq_ok_iff h.resting).mp read
  have named_of_open : r.open?.isSome → r.inSection := fun some => by
    obtain ⟨p, opened⟩ := Option.isSome_iff_exists.mp some
    exact (h.opened p opened).1
  refine ⟨.next .., ?_, fun p opened => ?_, fun before key values after split => ?_⟩
  · rw [inSection_next, headingsOf_append, ne_eq, List.append_eq_nil_iff, not_and_or, ← ne_eq,
      ← h.named]
    cases item? with
    | none => simp
    | some item => cases item <;> simp
  · rw [open?_next] at opened
    subst opened
    obtain ⟨rfl, ⟨same, skipped⟩ | ⟨other, filled, named⟩⟩ := reads.of_open
    · obtain ⟨inSection, filled, got⟩ := h.opened p same
      have unchanged := h.resting.next_same line.number
      rw [same] at unchanged
      rw [unchanged]
      refine ⟨inSection, filled, got.pass ?_⟩
      simpa [Line.isEmpty_eq, Line.isComment_eq] using skipped
    · refine ⟨?_, filled, fed, line, [], rfl, ?_, by simp⟩
      · cases before : r.open? with
        | none => exact named before
        | some q => exact named_of_open (by simp [before])
      · have changed : ¬ (some p = r.open? ∧ (none : Option Item) = none) :=
          fun same => other same.1.symm
        exact (if_neg changed).symm
  · cases item? with
    | none => exact h.placed before key values after (by simpa using split)
    | some item =>
      rcases List.eq_nil_or_concat after with rfl | ⟨after, last, rfl⟩
      · obtain ⟨rfl, same⟩ := List.append_inj' split rfl
        obtain rfl : item = .entry key values := by simpa using same
        exact h.named.mp (reads.named_of_entry named_of_open)
      · have shorter : said ++ [item] = (before ++ .entry key values :: after) ++ [last] := by
          simpa using split
        exact h.placed before key values after (List.append_inj' shorter rfl).1

theorem Between.goes (h : r.Between fed said) (run : r.Goes lines items r') :
    r'.Between (fed ++ lines) (said ++ items) := by
  induction run generalizing fed said with
  | done => simpa using h
  | line read _ ih => simpa using ih (h.read read)

end Reader

/-- Between any two lines that are read without fault a reader is not escaping, no comma is pending
and its buffer is empty. With no key open it holds no values. With a key open a section is named and
there is a value, and only empty lines and comments stand behind the line on which it got on last.
And every entry comes behind a heading, so that it is put into the section of the last one. -/
theorem reader_between_lines {lines : List Line} {items : List Item} {r : Reader}
    (run : Reader.start.Goes lines items r) :
    r.escaping = false ∧ r.afterComma = false ∧ r.buffer = [] ∧
    (r.key? = none → r.values = []) ∧
    (r.key?.isSome →
      r.inSection ∧ (∃ name, Item.heading name ∈ items) ∧ r.values ≠ [] ∧
      (∃ before line after, lines = before ++ line :: after ∧ line.number = r.last ∧
        ∀ l ∈ after, l.isEmpty ∨ l.isComment) ∧
      ((∀ l ∈ lines, 1 ≤ l.number) → 1 ≤ r.last)) ∧
    ∀ before key values after, items = before ++ .entry key values :: after →
      ∃ name, Item.heading name ∈ before ∧ (headingsOf before).getLast? = some name ∧
        Sections.ofItems (before ++ [.entry key values]) =
          (Sections.ofItems before).put name key values := by
  have between := Reader.between_start.goes run
  obtain ⟨escaping, afterComma, buffer, closed⟩ := between.resting
  refine ⟨escaping, afterComma, buffer, closed, fun some_key => ?_,
    fun before key values after split => ?_⟩
  · obtain ⟨key, key_open⟩ := Option.isSome_iff_exists.mp some_key
    have opened : r.open? = some ⟨key, r.values⟩ := by simp [Reader.open?, key_open]
    obtain ⟨inSection, filled, got⟩ := between.opened _ opened
    obtain ⟨name, mem⟩ := List.exists_mem_of_ne_nil _ (between.named.mp inSection)
    refine ⟨inSection, ⟨name, mem_headingsOf.mp mem⟩, filled, got, fun positive => ?_⟩
    obtain ⟨before, line, after, split, number, _⟩ := got
    rw [List.nil_append] at split
    exact number ▸ positive line (by simp [split])
  · have headed := between.placed before key values after split
    obtain ⟨name, last⟩ := Option.isSome_iff_exists.mp (List.getLast?_isSome.mpr headed)
    have target : (before.foldl Draft.add .start).open? = some name := by
      rw [Draft.open?_foldl_add, last]
      rfl
    refine ⟨name, mem_headingsOf.mp (List.mem_of_getLast? last), last, ?_⟩
    rw [Sections.ofItems, List.foldl_append, List.foldl_cons, List.foldl_nil, Draft.add, target]
    rfl

/-- A key with a value on one line and a comment behind it, after a key with its values on two lines
under a repeated heading. -/
theorem reader_between_lines_open_key :
    ∃ items r, Reader.start.Goes
        (Line.scan (encode (chars "[s]\n[S]\nj = 1,\n 2\nk = v,  \n\n# c\n"))) items r ∧
      r.key? = some (chars "k") ∧ r.escaping = false ∧ r.afterComma = false ∧ r.buffer = [] ∧
      r.values ≠ [] ∧ r.last = 5 ∧ 1 ≤ r.last ∧
      items = [.heading (chars "s"), .heading (chars "s"),
        .entry (chars "j") [chars "1", chars "2"]] ∧
      Sections.ofItems items = (Sections.ofItems [.heading (chars "s"), .heading (chars "s")]).put
        (chars "s") (chars "j") [chars "1", chars "2"] := by
  have run : Reader.start.Goes
      (Line.scan (encode (chars "[s]\n[S]\nj = 1,\n 2\nk = v,  \n\n# c\n"))) _ _ :=
    .line rfl (.line rfl (.line rfl (.line rfl (.line rfl (.line rfl (.line rfl .done))))))
  obtain ⟨escaping, afterComma, buffer, _, opened, placed⟩ := reader_between_lines run
  obtain ⟨_, _, filled, _, positive⟩ := opened rfl
  obtain ⟨name, _, last, put⟩ := placed [.heading (chars "s"), .heading (chars "s")] _ _ [] rfl
  obtain rfl : chars "s" = name := Option.some.inj last
  exact ⟨_, _, run, rfl, escaping, afterComma, buffer, filled, rfl, positive (by decide), rfl, put⟩

end Keyfile
