import Keyfile.Proofs.ExtractAgreement

namespace Keyfile

/-- A line that is read without fault names the section that it is a heading of, or none. -/
theorem Reads.namesOf_eq {inSection : Bool} {before? after? : Option Pending} {line : Line}
    {item? : Option Item} (h : Reads inSection before? line.text after? item?) :
    namesOf [line] = headingsOf item?.toList := by
  have nothing (no_heading : ∀ name, item? ≠ some (.heading name)) : namesOf [line] = [] :=
    List.filterMap_cons_none (h.names_nothing no_heading).1
  cases item? with
  | none => exact nothing (by simp)
  | some item =>
    cases item with
    | entry key values => exact nothing (by simp)
    | heading name =>
      obtain ⟨_, _, names⟩ := h.of_heading
      exact namesOf_cons_of_named (Line.sectionName?_eq_some.mpr names) []

namespace Reader

variable {r r' : Reader} {lines : List Line} {items : List Item} {line : Line} {name : Text}

theorem Goes.namesOf_eq (run : r.Goes lines items r') (resting : r.Resting) :
    namesOf lines = headingsOf items := by
  induction run with
  | done => rfl
  | @line _ _ _ line rest _ _ read _ ih =>
    obtain ⟨_, reads, rfl⟩ := (read_eq_ok_iff resting).mp read
    rw [← List.singleton_append, namesOf_append, reads.namesOf_eq, ih (.next ..),
      headingsOf_append]

theorem read_eq_heading_iff (resting : r.Resting) (closed : r.key? = none) :
    (∃ r', r.read line = .ok (r', some (.heading name))) ↔
      line.sectionName? = some name ∧ line.text.StartsBracket := by
  have opened : r.open? = none := key?_eq_none.mp closed
  rw [Line.sectionName?_eq_some]
  constructor
  · rintro ⟨r', read⟩
    obtain ⟨_, reads, _⟩ := (read_eq_ok_iff resting).mp read
    obtain ⟨_, starts, names⟩ := reads.of_heading
    exact ⟨names, starts⟩
  · rintro ⟨names, starts⟩
    refine ⟨_, (read_eq_ok_iff resting).mpr ⟨none, ?_, rfl⟩⟩
    rw [opened]
    exact .heading starts names

/-- A blank that is no gap is taken for the start of a key, so that the bracket comes too late. -/
theorem read_eq_error_of_outset (resting : r.Resting) (closed : r.key? = none)
    (named : line.sectionName? = some name) (outset : ¬ line.text.StartsBracket) :
    r.read line = .error line.number := by
  have names := Line.sectionName?_eq_some.mp named
  obtain ⟨_, filled, no_comment⟩ := names.opens
  obtain ⟨w, inner, v, split, blank, _⟩ := names.exists_split
  have bracket : Text.EndsPiece '[' := Or.inl rfl
  have other : ¬ w.all isGap := by
    intro gaps
    rw [split, Text.startsBracket_iff_of_clean blank.clean blank.not_escapes bracket] at outset
    exact outset ⟨gaps, rfl⟩
  have opening : readChars line (r.hold w) ('[' :: (inner ++ ']' :: v)) =
      (r.hold w).openSection line := by
    simp [readChars, hold, blank.not_escapes]
  rw [read_eq_readChars filled no_comment, split,
    readChars_append _ resting.buffer resting.escaping blank.clean, opening,
    openSection_hold closed, if_neg other]

end Reader

/-- Whatever was read before, and with no key open, a line is read as a heading exactly if it names
a section and only gaps stand before its bracket. One that names a section behind any other blank is
at fault. So among lines that were read without fault the headings are those that name a section. -/
theorem heading_iff_named {lines : List Line} {items : List Item} {r : Reader}
    (run : Reader.start.Goes lines items r) (closed : r.key? = none) (line : Line) :
    (∀ name, (∃ r', r.read line = .ok (r', some (.heading name))) ↔
      line.sectionName? = some name ∧ line.text.StartsBracket) ∧
    (∀ name, line.sectionName? = some name → ¬ line.text.StartsBracket →
      r.read line = .error line.number) ∧
    namesOf lines = headingsOf items := by
  have resting := run.resting Reader.resting_start
  exact ⟨fun _ => Reader.read_eq_heading_iff resting closed,
    fun _ => Reader.read_eq_error_of_outset resting closed,
    run.namesOf_eq Reader.resting_start⟩

/-- Behind a section with a key, a heading that is indented by gaps, and one by a no-break space. -/
theorem heading_iff_named_indented :
    ∃ items r, Reader.start.Goes (Line.scan (encode (chars "[s]\nk = 1,\n\n 2\n"))) items r ∧
      r.key? = none ∧
      (∃ r', r.read ⟨5, encode (chars "\t [ T ] \r\n")⟩ = .ok (r', some (.heading (chars "t")))) ∧
      r.read ⟨5, encode (chars "\u00a0[t]\n")⟩ = .error 5 ∧ headingsOf items = [chars "s"] := by
  have run : Reader.start.Goes (Line.scan (encode (chars "[s]\nk = 1,\n\n 2\n"))) _ _ :=
    .line rfl (.line rfl (.line rfl (.line rfl .done)))
  obtain ⟨heading, _, names⟩ := heading_iff_named run rfl ⟨5, encode (chars "\t [ T ] \r\n")⟩
  obtain ⟨_, fault, _⟩ := heading_iff_named run rfl ⟨5, encode (chars "\u00a0[t]\n")⟩
  exact ⟨_, _, run, rfl, (heading (chars "t")).mpr ⟨rfl, rfl⟩, fault (chars "t") rfl (by decide),
    names.symm⟩

/-- A reader refuses a line that names a section behind a no-break space. -/
theorem not_heading_of_named :
    ¬ ∀ (lines : List Line) (items : List Item) (r : Reader), Reader.start.Goes lines items r →
      r.key? = none → ∀ (line : Line) (name : Text),
        (∃ r', r.read line = .ok (r', some (.heading name))) ↔ line.sectionName? = some name := by
  intro same
  have named : (Line.mk 1 (encode (chars "\u00a0[s]"))).sectionName? = some (chars "s") := rfl
  have fault := Reader.read_eq_error_of_outset Reader.resting_start rfl named (by decide)
  obtain ⟨r', read⟩ := (same [] [] Reader.start .done rfl _ _).mpr named
  rw [fault] at read
  cases read

end Keyfile
