import Keyfile.Proofs.ReaderGrammar

namespace Keyfile

theorem Reads.named {inSection : Bool} {before? after? : Option Pending} {t : Text}
    {item? : Option Item} (h : Reads inSection before? t after? item?)
    (named : before?.isSome → inSection) : after?.isSome → inSection := by
  cases h with
  | skip => exact named
  | blank => simp
  | lastBlank => simp
  | heading => simp
  | entry _ _ _ inSection => exact fun _ => inSection
  | values => exact fun _ => named rfl

/-- Only an open key or a heading before it completes an entry. -/
theorem Reads.named_of_entry {inSection : Bool} {before? after? : Option Pending} {t key : Text}
    {values : List Text} (h : Reads inSection before? t after? (some (.entry key values)))
    (named : before?.isSome → inSection) : inSection := by
  cases h with
  | lastBlank => exact named rfl
  | entry _ _ _ inSection => exact inSection
  | values => exact named rfl

namespace Reader

theorem fault?_eq_none {r : Reader} : r.fault? = none ↔ r.open? = none := by
  cases h : r.key? <;> simp [fault?, open?, h]

/-- A line is read if the grammar says what it is. -/
theorem readAll_cons {r : Reader} {line : Line} {rest : List Line} {items : List Item}
    (resting : r.Resting) :
    r.readAll (line :: rest) = ⟨items, none⟩ ↔
      ∃ open? item? later, Reads r.inSection r.open? line.text open? item? ∧
        (r.next line.number open? item?).readAll rest = ⟨later, none⟩ ∧
        items = item?.toList ++ later := by
  constructor
  · intro h
    cases result : r.read line with
    | error n => simp [readAll, result] at h
    | ok out =>
      obtain ⟨r', item?⟩ := out
      obtain ⟨open?, reads, rfl⟩ := (read_eq_ok_iff resting).mp result
      rw [readAll, result] at h
      obtain ⟨rfl, faultless⟩ := Reading.mk.inj h
      exact ⟨open?, item?, _, reads, congrArg (Reading.mk _) faultless, rfl⟩
  · rintro ⟨open?, item?, later, reads, tail, rfl⟩
    rw [readAll, (read_eq_ok_iff resting).mpr ⟨open?, reads, rfl⟩]
    simp [tail]

theorem inSection_next (r : Reader) (number : Nat) (open? : Option Pending) (item? : Option Item) :
    (r.next number open? item?).inSection =
      match item? with
      | some (.heading _) => true
      | _ => r.inSection := rfl

/-- What a reader between lines makes of the lines that follow is what the grammar makes of
them. -/
theorem accepted_iff {r : Reader} {name? : Option Text} {s s' : Sections} {lines : List Line}
    (resting : r.Resting) (inSection : r.inSection = name?.isSome)
    (named : r.open?.isSome → r.inSection) :
    Accepted name? r.open? s lines s' ↔
      ∃ items, r.readAll lines = ⟨items, none⟩ ∧
        (items.foldl Draft.add ⟨s, name?⟩).sections = s' := by
  -- A key is open only under a heading, which the reader knows and the grammar has to be told.
  induction lines generalizing r name? s with
  | nil =>
    constructor
    · intro h
      generalize same : r.open? = open? at h
      cases h
      exact ⟨[], by rw [readAll, fault?_eq_none.mpr same], rfl⟩
    · rintro ⟨items, read, rfl⟩
      obtain ⟨rfl, faultless⟩ := Reading.mk.inj read
      rw [fault?_eq_none.mp faultless]
      exact .done
  | cons line rest ih =>
    simp only [readAll_cons resting]
    constructor
    · intro h
      generalize same : r.open? = before? at h named
      cases h with
      | @quiet _ _ open? _ _ _ _ reads more =>
        rw [← inSection] at reads
        obtain ⟨items, tail, rfl⟩ := (ih (r := r.next line.number open? none) (.next ..) inSection
          (by rw [open?_next]; exact reads.named named)).mp (by rwa [open?_next])
        exact ⟨_, ⟨open?, none, items, same ▸ reads, tail, rfl⟩, rfl⟩
      | @heading _ _ open? _ _ _ name _ reads more =>
        rw [← inSection] at reads
        obtain ⟨items, tail, rfl⟩ := (ih (r := r.next line.number open? (some (.heading name)))
          (.next ..) rfl fun _ => rfl).mp (by rwa [open?_next])
        exact ⟨_, ⟨open?, _, items, same ▸ reads, tail, rfl⟩, rfl⟩
      | @entry name key values _ open? _ _ _ _ reads more =>
        have named' : r.inSection = true := inSection
        rw [← named'] at reads
        obtain ⟨items, tail, rfl⟩ := (ih (r := r.next line.number open? (some (.entry key values)))
          (.next ..) inSection (by rw [open?_next]; exact reads.named named)).mp
          (by rwa [open?_next])
        exact ⟨_, ⟨open?, _, items, same ▸ reads, tail, rfl⟩, rfl⟩
    · rintro ⟨_, ⟨open?, item?, items, reads, tail, rfl⟩, rfl⟩
      cases item? with
      | none =>
        have more := (ih (.next r line.number open? none) inSection
          (by rw [open?_next]; exact reads.named named)).mpr ⟨items, tail, rfl⟩
        rw [open?_next] at more
        exact .quiet (inSection ▸ reads) more
      | some item =>
        cases item with
        | heading name =>
          have more : Accepted (some name) _ _ _ _ :=
            (ih (.next r line.number open? _) rfl fun _ => rfl).mpr ⟨items, tail, rfl⟩
          rw [open?_next] at more
          exact .heading (inSection ▸ reads) more
        | entry key values =>
          have named' := reads.named_of_entry named
          obtain ⟨name, rfl⟩ := Option.isSome_iff_exists.mp (inSection ▸ named')
          have more : Accepted (some name) _ _ _ _ :=
            (ih (.next r line.number open? (some (.entry key values))) inSection
              (by rw [open?_next]; exact reads.named named)).mpr ⟨items, tail, rfl⟩
          rw [open?_next] at more
          exact .entry (named' ▸ reads) more

theorem resting_start : start.Resting := ⟨rfl, rfl, rfl, fun _ => rfl⟩

end Reader

/-- A content is read as sections exactly if the grammar accepts its lines with these sections. -/
theorem parse_eq_ok_iff_accepted (content : Bytes) (s : Sections) :
    parse content = .ok s ↔ Accepted none none ∅ (Line.scan content) s := by
  rw [show (none : Option Pending) = Reader.start.open? from rfl,
    Reader.accepted_iff Reader.resting_start rfl (by simp [Reader.start, Reader.open?])]
  cases read : readContent content with
  | mk items fault? =>
    simp only [parse, read, Reading.sections]
    rw [readContent] at read
    cases fault? with
    | none => simp [read, Sections.ofItems, Draft.start]
    | some n => simp [read]

end Keyfile
