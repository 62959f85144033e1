import Keyfile.Proofs.DraftItems
import Keyfile.Proofs.Layout

namespace Keyfile

namespace Reader

/-- A reader goes through lines without fault and completes items on the way. -/
inductive Goes : Reader → List Line → List Item → Reader → Prop
  | done {r : Reader} : Goes r [] [] r
  | line {r r' r'' : Reader} {line : Line} {rest : List Line} {item? : Option Item}
      {items : List Item} :
      r.read line = .ok (r', item?) → Goes r' rest items r'' →
      Goes r (line :: rest) (item?.toList ++ items) r''

/-- The lines are those of one entry: the first one opens the key, and the last one completes the
entry. -/
structure ReadsEntry (r : Reader) (key : Text) (lines : List Line) (r' : Reader) : Prop where
  closed : r.key? = none
  opens : ∃ line rest r₁ item?, lines = line :: rest ∧ r.read line = .ok (r₁, item?) ∧
    (r₁.key? = some key ∨ ∃ values, item? = some (.entry key values))
  completes : ∃ init line r₁ values, lines = init ++ [line] ∧ r.Goes init [] r₁ ∧
    r₁.read line = .ok (r', some (.entry key values))

/-- A reader between blocks. -/
structure Idle (r : Reader) (inSection : Bool) : Prop where
  resting : r.Resting
  closed : r.open? = none
  named : r.inSection = inSection

theorem Goes.append {r r' r'' : Reader} {xs ys : List Line} {is js : List Item}
    (h : r.Goes xs is r') (h' : r'.Goes ys js r'') : r.Goes (xs ++ ys) (is ++ js) r'' := by
  induction h with
  | done => exact h'
  | line read _ ih =>
    rw [List.append_assoc]
    exact .line read (ih h')

theorem Goes.single {r r' : Reader} {line : Line} {item? : Option Item}
    (read : r.read line = .ok (r', item?)) : r.Goes [line] item?.toList r' := by
  have h := Goes.line read .done
  rwa [List.append_nil] at h

theorem Goes.resting {r r' : Reader} {lines : List Line} {items : List Item}
    (h : r.Goes lines items r') (resting : r.Resting) : r'.Resting := by
  induction h with
  | done => exact resting
  | line read _ ih =>
    obtain ⟨_, _, rfl⟩ := (read_eq_ok_iff resting).mp read
    exact ih (.next ..)

/-- What is read of lines is read before what follows them. -/
theorem Goes.readAll_append {r r' : Reader} {xs : List Line} {items : List Item}
    (h : r.Goes xs items r') (ys : List Line) :
    r.readAll (xs ++ ys) = ⟨items ++ (r'.readAll ys).items, (r'.readAll ys).fault?⟩ := by
  induction h with
  | done => rfl
  | line read _ ih =>
    rw [List.cons_append, readAll, read]
    simp [ih]

theorem ReadsEntry.goes {r r' : Reader} {key : Text} {lines : List Line}
    (h : r.ReadsEntry key lines r') : ∃ values, r.Goes lines [.entry key values] r' := by
  obtain ⟨init, line, r₁, values, rfl, goes, read⟩ := h.completes
  exact ⟨values, goes.append (.single read)⟩

theorem idle_start : start.Idle false := ⟨resting_start, rfl, rfl⟩

theorem key?_eq_none {r : Reader} : r.key? = none ↔ r.open? = none := by
  cases h : r.key? <;> simp [open?, h]

/-- The lines that complete an entry, up to the last one and with it. -/
theorem exists_goes_of_fills {r : Reader} {before? : Option Pending} {raws : List Bytes}
    {key : Text} {values : List Text} (fills : Fills before? raws key values) (n : Nat)
    (resting : r.Resting) (opened : r.open? = before?) (named : r.inSection = true) :
    ∃ init line r₁ r', Line.numberFrom n raws = init ++ [line] ∧ r.Goes init [] r₁ ∧
      r₁.read line = .ok (r', some (.entry key values)) ∧ r'.Idle true ∧
      r'.last + 1 = n + raws.length := by
  induction fills generalizing r n with
  | @last before? raw key values reads =>
    have read : r.read ⟨n, raw⟩ = .ok (r.next n none (some (.entry key values)),
        some (.entry key values)) := by
      refine (read_eq_ok_iff resting).mpr ⟨none, ?_, rfl⟩
      rw [opened, named]
      exact reads
    exact ⟨[], ⟨n, raw⟩, r, _, rfl, .done, read, ⟨.next .., open?_next .., named⟩,
      by simp [Reader.next]⟩
  | @more before? p raw raws key values reads _ ih =>
    have read : r.read ⟨n, raw⟩ = .ok (r.next n (some p) none, none) := by
      refine (read_eq_ok_iff resting).mpr ⟨some p, ?_, rfl⟩
      rw [opened, named]
      exact reads
    obtain ⟨init, line, r₁, r', lines, goes, completes, idle, last⟩ :=
      ih (r := r.next n (some p) none) (n + 1) (.next ..) (open?_next ..) named
    refine ⟨⟨n, raw⟩ :: init, line, r₁, r', ?_, .line read goes, completes, idle, ?_⟩
    · rw [Line.numberFrom, lines, List.cons_append]
    · rw [last, List.length_cons]
      omega

theorem exists_readsEntry {r : Reader} {raws : List Bytes} {key : Text} {values : List Text}
    (fills : Fills none raws key values) (n : Nat) (idle : r.Idle true) :
    ∃ r', r.ReadsEntry key (Line.numberFrom n raws) r' ∧
      r.Goes (Line.numberFrom n raws) [.entry key values] r' ∧ r'.Idle true ∧
      r'.last + 1 = n + raws.length := by
  obtain ⟨init, line, r₁, r', lines, goes, completes, idle', last⟩ :=
    exists_goes_of_fills fills n idle.resting idle.closed idle.named
  refine ⟨r', ⟨key?_eq_none.mpr idle.closed, ?_, init, line, r₁, values, lines, goes, completes⟩,
    ?_, idle', last⟩
  · cases fills with
    | @last _ raw _ _ reads =>
      refine ⟨⟨n, raw⟩, [], r.next n none (some (.entry key values)), _, rfl, ?_,
        Or.inr ⟨values, rfl⟩⟩
      refine (read_eq_ok_iff idle.resting).mpr ⟨none, ?_, rfl⟩
      rw [idle.closed, idle.named]
      exact reads
    | @more _ p raw raws _ _ reads more =>
      refine ⟨⟨n, raw⟩, _, r.next n (some p) none, none, rfl, ?_, Or.inl ?_⟩
      · refine (read_eq_ok_iff idle.resting).mpr ⟨some p, ?_, rfl⟩
        rw [idle.closed, idle.named]
        exact reads
      · exact congrArg some more.key_eq
  · rw [lines]
    exact goes.append (.single completes)

theorem read_quiet {r : Reader} {inSection : Bool} {raw : Bytes} (idle : r.Idle inSection)
    (sound : (Block.quiet raw).Sound) (n : Nat) : r.read ⟨n, raw⟩ = .ok (r, none) := by
  refine (read_eq_ok_iff idle.resting).mpr ⟨none, ?_, ?_⟩
  · rw [idle.closed]
    exact .of_blank_or_comment sound
  · have same := idle.resting.next_same n
    rw [idle.closed] at same
    exact same.symm

theorem read_heading {r : Reader} {inSection : Bool} {raw : Bytes} {name : Text}
    (idle : r.Idle inSection) (sound : (Block.heading raw name).Sound) (n : Nat) :
    r.read ⟨n, raw⟩ =
      .ok (r.next n none (some (.heading name)), some (.heading name)) := by
  refine (read_eq_ok_iff idle.resting).mpr ⟨none, ?_, rfl⟩
  rw [idle.closed]
  exact .heading sound.1 sound.2

theorem exists_goes_of_laid {blocks : List Block} {r : Reader} {inSection : Bool}
    (laid : Laid inSection blocks) (n : Nat) (idle : r.Idle inSection) :
    ∃ r', r.Goes (Line.numberFrom n (rawsOf blocks)) (itemsOf blocks) r' ∧
      r'.Idle (namedAfterAll inSection blocks) := by
  induction blocks generalizing r inSection n with
  | nil => exact ⟨r, .done, idle⟩
  | cons b rest ih =>
    obtain ⟨sound, fits, laid⟩ := laid
    rw [rawsOf_cons, Line.numberFrom_append, itemsOf_cons]
    have own : ∃ r₁ : Reader, r.Goes (Line.numberFrom n b.raws) b.item?.toList r₁ ∧
        r₁.Idle (b.namedAfter inSection) := by
      cases b with
      | quiet raw => exact ⟨r, .single (read_quiet idle sound n), idle⟩
      | heading raw name =>
        exact ⟨_, .single (read_heading idle sound n), .next .., open?_next .., rfl⟩
      | entry raws key values =>
        obtain rfl : inSection = true := fits
        obtain ⟨r₁, _, goes, idle₁, _⟩ := exists_readsEntry sound n idle
        exact ⟨r₁, goes, idle₁⟩
    obtain ⟨r₁, goes, idle₁⟩ := own
    obtain ⟨r', goes', idle'⟩ := ih laid (n + b.raws.length) idle₁
    exact ⟨r', goes.append goes', idle'⟩

theorem goes_of_silent {blocks : List Block} {r : Reader} {inSection : Bool}
    (laid : Laid inSection blocks) (silent : itemsOf blocks = []) (n : Nat)
    (idle : r.Idle inSection) : r.Goes (Line.numberFrom n (rawsOf blocks)) [] r := by
  induction blocks generalizing n with
  | nil => exact .done
  | cons b rest ih =>
    obtain ⟨sound, _, laid⟩ := laid
    rw [itemsOf_cons, List.append_eq_nil_iff] at silent
    cases b with
    | quiet raw => exact .line (read_quiet idle sound n) (ih laid silent.2 (n + 1))
    | heading => simp [Block.item?] at silent
    | entry => simp [Block.item?] at silent

end Reader

end Keyfile
