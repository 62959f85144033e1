import Keyfile.Proofs.Pieces
import Keyfile.Proofs.ReaderRun

namespace Keyfile

namespace Reader

variable {r r' : Reader} {n : Nat}

theorem fault_of_push {number : Nat} {c : Char} (h : r.push number c = .error n) : n = number := by
  unfold push at h
  split at h
  · cases h
  · split at h
    · split at h
      · exact (Except.error.inj h).symm
      · cases h
    · split at h
      · split at h
        · exact (Except.error.inj h).symm
        · cases h
      · split at h <;> cases h

/-- A character that opens a key or ends a value is on the line that is at fault from then on. -/
theorem fault?_of_push {number : Nat} {c : Char} (h : r.push number c = .ok r')
    (fault : r'.fault? = some n) : n = number ∨ r.fault? = some n := by
  unfold push at h
  split at h
  · cases h
    exact Or.inr fault
  · split at h
    · split at h
      · cases h
      · cases h
        exact Or.inl (Option.some.inj fault).symm
    · split at h
      · split at h
        · cases h
        next opened =>
          cases h
          have key : r.key?.isSome = true := by simpa [Option.isSome_iff_ne_none] using opened
          simp only [fault?, key, if_true] at fault
          exact Or.inl (Option.some.inj fault).symm
      · split at h <;> cases h <;> exact Or.inr fault

theorem fault_of_openSection {line : Line} (h : r.openSection line = .error n) :
    n = line.number ∨ r.fault? = some n := by
  unfold openSection at h
  split at h
  next opened =>
    obtain rfl := Except.error.inj h
    exact Or.inr (if_pos opened)
  next =>
    split at h
    · exact Or.inl (Except.error.inj h).symm
    · split at h
      · exact Or.inl (Except.error.inj h).symm
      · cases h

theorem fault_of_closeLine {number : Nat} (h : r.closeLine number = .error n) : n = number := by
  unfold closeLine at h
  split at h
  · exact (Except.error.inj h).symm
  · split at h
    · exact (Except.error.inj h).symm
    · split at h <;> cases h

theorem fault_of_readChars {line : Line} {t : Text} (h : readChars line r t = .error n) :
    n = line.number ∨ r.fault? = some n := by
  induction t generalizing r with
  | nil => exact Or.inl (fault_of_closeLine h)
  | cons c t ih =>
    rw [readChars] at h
    split at h
    · exact fault_of_openSection h
    · split at h
      next pushed =>
        obtain rfl := Except.error.inj h
        exact Or.inl (fault_of_push pushed)
      next r' pushed =>
        rcases ih h with here | before
        · exact Or.inl here
        · exact fault?_of_push pushed before

/-- A line at which reading fails says something, and the fault is reported there or where the open
key got on last. -/
theorem fault_of_read {line : Line} (resting : r.Resting) (h : r.read line = .error n) :
    line.isContent ∧ (n = line.number ∨ r.fault? = some n) := by
  unfold read at h
  split at h
  · cases h
  next said =>
    rw [Bool.or_eq_true, not_or] at said
    split at h
    next blank =>
      split at h
      · cases h
      next opened =>
        obtain ⟨key, open_key⟩ := Option.ne_none_iff_exists'.mp
          (fun none => opened (by rw [none]; rfl) : r.key? ≠ none)
        simp [closeLine, open_key, resting.escaping] at h
    next filled =>
      refine ⟨?_, fault_of_readChars h⟩
      simp [Line.isContent, filled, said.2]

/-- A line that is read with a key left open was passed over, or got on and says something. -/
theorem fault?_of_read {line : Line} {item? : Option Item} (resting : r.Resting)
    (h : r.read line = .ok (r', item?)) (fault : r'.fault? = some n) :
    r'.fault? = r.fault? ∨ line.isContent ∧ n = line.number := by
  obtain ⟨open?, reads, rfl⟩ := (read_eq_ok_iff resting).mp h
  by_cases same : open? = r.open? ∧ item? = none
  · left
    rw [same.1, same.2, resting.next_same]
  · right
    have opened : open?.isSome ∧ n = line.number := by
      cases open? with
      | none => simp [fault?, next] at fault
      | some p =>
        simp only [fault?, next, Option.map_some, Option.isSome_some, if_true, same, if_false]
          at fault
        exact ⟨rfl, (Option.some.inj fault).symm⟩
    refine ⟨?_, opened.2⟩
    rw [Line.isContent_iff]
    generalize before : r.open? = before? at reads same
    cases reads with
    | skip => exact absurd ⟨rfl, rfl⟩ same
    | blank => simp at opened
    | lastBlank => simp at opened
    | heading => simp at opened
    | entry filled no_comment => exact ⟨filled, no_comment⟩
    | values filled no_comment => exact ⟨filled, no_comment⟩

/-- The line says something, and it is at fault behind lines that are read: it cannot be read, or
nothing comes behind it to go on with. -/
structure FaultsAt (r : Reader) (before : List Line) (line : Line) : Prop where
  content : line.isContent
  fault : ∃ items r', r.Goes before items r' ∧ (r'.readAll [line]).fault? = some line.number

theorem FaultsAt.cons {line faulty : Line} {before : List Line} {item? : Option Item}
    (read : r.read line = .ok (r', item?)) (h : r'.FaultsAt before faulty) :
    r.FaultsAt (line :: before) faulty := by
  obtain ⟨content, items, r'', goes, fault⟩ := h
  exact ⟨content, _, r'', .line read goes, fault⟩

/-- A fault is reported at the line that is at fault, or was there before all of the lines. -/
theorem exists_faultsAt {lines : List Line} (resting : r.Resting)
    (h : (r.readAll lines).fault? = some n) :
    r.fault? = some n ∨ ∃ before line behind, lines = before ++ line :: behind ∧
      line.number = n ∧ r.FaultsAt before line := by
  induction lines generalizing r with
  | nil => exact Or.inl h
  | cons line rest ih =>
    cases read : r.read line with
    | error m =>
      have single : ∀ tail, (r.readAll (line :: tail)).fault? = some m := by
        intro tail
        rw [readAll, read]
      obtain rfl : m = n := Option.some.inj ((single rest).symm.trans h)
      obtain ⟨content, rfl | before⟩ := fault_of_read resting read
      · exact Or.inr ⟨[], line, rest, rfl, rfl, content, [], r, .done, single []⟩
      · exact Or.inl before
    | ok out =>
      obtain ⟨r', item?⟩ := out
      have later : (r'.readAll rest).fault? = some n := by
        rw [readAll, read] at h
        exact h
      obtain ⟨_, _, rfl⟩ := (read_eq_ok_iff resting).mp read
      rcases ih (.next ..) later with here | ⟨before, faulty, behind, rfl, number, faults⟩
      · rcases fault?_of_read resting read here with same | ⟨content, rfl⟩
        · exact Or.inl (same ▸ here)
        · refine Or.inr ⟨[], line, rest, rfl, rfl, content, [], r, .done, ?_⟩
          rw [readAll, read]
          exact here
      · exact Or.inr ⟨line :: before, faulty, behind, rfl, number, faults.cons read⟩

end Reader

def firstLines (k : Nat) (content : Bytes) : Bytes := ((Line.pieces content).take k).flatten

namespace Line

theorem numberFrom_take (n k : Nat) (raws : List Bytes) :
    numberFrom n (raws.take k) = (numberFrom n raws).take k := by
  induction raws generalizing n k with
  | nil => simp [numberFrom]
  | cons raw raws ih =>
    cases k with
    | zero => rfl
    | succ k => simp [numberFrom, ih]

theorem scan_firstLines (k : Nat) (content : Bytes) :
    scan (firstLines k content) = (scan content).take k := by
  have lined := lined_pieces content
  rw [← List.take_append_drop k (pieces content)] at lined
  rw [scan, firstLines, pieces_flatten lined.append_left, numberFrom_take, scan]

section

variable {content : Bytes} {before behind : List Line} {line : Line}

theorem number_of_scan (split : scan content = before ++ line :: behind) :
    line.number = before.length + 1 := by
  have rest := (numberFrom_eq_append split).2
  rw [List.map_cons, numberFrom] at rest
  rw [(List.cons.inj rest).1, Nat.add_comm]

/-- A line that is written behind lines that others follow is a line of its own. -/
theorem scan_firstLines_append (split : scan content = before ++ line :: behind) {t : Text}
    (single : '\n' ∉ t) :
    scan (firstLines before.length content ++ lineOf t) =
      before ++ [⟨line.number, lineOf t⟩] := by
  have cut : pieces content = before.map raw ++ line.raw :: behind.map raw := by
    rw [← map_raw_scan, split, List.map_append, List.map_cons]
  have first : (pieces content).take before.length = before.map raw := by
    rw [cut, ← List.length_map raw, List.take_left]
  have closed : ∀ bytes ∈ before.map raw ++ [lineOf t], IsClosed bytes := by
    intro bytes mem
    rcases List.mem_append.mp mem with mem | mem
    · exact (cut ▸ lined_pieces content).isClosed_of_append bytes mem
    · exact List.mem_singleton.mp mem ▸ isClosed_lineOf single
  have numbered : numberFrom 1 (before.map raw) = before := (numberFrom_eq_append split).1.symm
  have written : firstLines before.length content ++ lineOf t =
      (before.map raw ++ [lineOf t]).flatten := by
    rw [firstLines, first, List.flatten_append, List.flatten_singleton]
  rw [scan, written, pieces_flatten (lined_of_closed closed), numberFrom_append, numbered,
    List.length_map, number_of_scan split, Nat.add_comm 1]
  rfl

end

end Line

theorem parse_eq_error_iff {content : Bytes} {n : Nat} :
    parse content = .error n ↔ (readContent content).fault? = some n := by
  rw [parse, Reading.sections]
  cases (readContent content).fault? <;> simp

theorem exists_parse_eq_ok {content : Bytes} (faultless : (readContent content).fault? = none) :
    ∃ s, parse content = .ok s := by
  rw [parse, Reading.sections, faultless]
  exact ⟨_, rfl⟩

/-- One more value brings those of an open key to an end. -/
theorem Reader.fault?_readAll_value {r : Reader} {p : Pending} (resting : r.Resting)
    (opened : r.open? = some p) (n : Nat) :
    (r.readAll [⟨n, lineOf ['v']⟩]).fault? = none := by
  have text : (Line.mk n (lineOf ['v'])).text = ['v'] := textOf_lineOf (by decide)
  have cuts : Text.Cuts ['v'] [] ['v'] := .none fun bare => absurd bare.mem (by decide)
  have filled : ¬ Text.Blank ['v'] := fun blank => absurd (blank 'v' (by simp)) (by decide)
  have reads : Reads r.inSection r.open? (Line.mk n (lineOf ['v'])).text none
      (some (.entry p.key (p.values ++ [['v']]))) := by
    rw [text, opened]
    exact .values filled (by decide) (by decide) (fun bare => absurd bare.mem (by decide))
      (fun bare => absurd bare.mem (by decide)) cuts (by simp [Pending.after]; rfl)
  have read := (read_eq_ok_iff resting).mpr ⟨none, reads, rfl⟩
  have closed := open?_next r n none (some (.entry p.key (p.values ++ [['v']])))
  rw [readAll, read]
  exact fault?_eq_none.mpr closed

/-- A content that cannot be read is at fault on a line that says something. It is so on the same
line if it ends there, and the lines before that line can be read, as they are or with one more
line. -/
theorem faults_where_reported {content : Bytes} {n : Nat} (rejected : parse content = .error n) :
    (∃ line ∈ Line.scan content, line.number = n ∧ line.isContent) ∧
      parse (firstLines n content) = .error n ∧
      ((∃ s, parse (firstLines (n - 1) content) = .ok s) ∨
        ∃ t s, '\n' ∉ t ∧ parse (firstLines (n - 1) content ++ lineOf t) = .ok s) := by
  rcases Reader.exists_faultsAt Reader.resting_start (parse_eq_error_iff.mp rejected) with
    wrong | ⟨before, line, behind, split, rfl, content_line, items, r, goes, fault⟩
  · cases wrong
  have resting := goes.resting Reader.resting_start
  have number := Line.number_of_scan split
  have behind_before (rest : List Line) :
      (Reader.start.readAll (before ++ rest)).fault? = (r.readAll rest).fault? := by
    rw [goes.readAll_append]
  refine ⟨⟨line, by simp [split], rfl, content_line⟩, ?_, ?_⟩
  · have lines : Line.scan (firstLines line.number content) = before ++ [line] := by
      rw [Line.scan_firstLines, split, List.append_cons]
      exact List.take_left' (by simp [number])
    rw [parse_eq_error_iff, readContent, lines, behind_before]
    exact fault
  · rw [number, Nat.add_sub_cancel]
    cases opened : r.open? with
    | none =>
      left
      have lines : Line.scan (firstLines before.length content) = before ++ [] := by
        rw [Line.scan_firstLines, split, List.append_nil, List.take_left]
      apply exists_parse_eq_ok
      rw [readContent, lines, behind_before]
      exact Reader.fault?_eq_none.mpr opened
    | some p =>
      right
      have lines := Line.scan_firstLines_append split (show '\n' ∉ ['v'] by decide)
      have faultless := Reader.fault?_readAll_value resting opened line.number
      rw [← behind_before, ← lines] at faultless
      obtain ⟨s, read⟩ := exists_parse_eq_ok faultless
      exact ⟨['v'], s, by decide, read⟩

/-- A bracket on the last line is reported where the key before it got on, behind a comment, an
empty line and a key with values on two lines. -/
theorem faults_where_reported_open_key :
    parse (encode (chars "[s]\nk = 1,\n# c\n  2,\n\n# [\n[t]")) = .error 4 ∧
      firstLines 4 (encode (chars "[s]\nk = 1,\n# c\n  2,\n\n# [\n[t]")) =
        encode (chars "[s]\nk = 1,\n# c\n  2,\n") ∧
      parse (encode (chars "[s]\nk = 1,\n# c\n  2,\n")) = .error 4 := by
  have rejected : parse (encode (chars "[s]\nk = 1,\n# c\n  2,\n\n# [\n[t]")) = .error 4 := rfl
  obtain ⟨_, cut, _⟩ := faults_where_reported rejected
  exact ⟨rejected, rfl, cut⟩

end Keyfile
