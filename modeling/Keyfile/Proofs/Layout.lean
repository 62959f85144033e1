import Keyfile.Proofs.Acceptance

namespace Keyfile

def textOf (raw : Bytes) : Text := (Line.mk 0 raw).text

theorem text_eq_textOf (line : Line) : line.text = textOf line.raw := rfl

inductive Block where
  | quiet (raw : Bytes)
  | heading (raw : Bytes) (name : Text)
  | entry (raws : List Bytes) (key : Text) (values : List Text)

/-- Lines that complete one entry, the last of them and no other one. -/
inductive Fills : Option Pending → List Bytes → Text → List Text → Prop
  | last {before? : Option Pending} {raw : Bytes} {key : Text} {values : List Text} :
      Reads true before? (textOf raw) none (some (.entry key values)) →
      Fills before? [raw] key values
  | more {before? : Option Pending} {p : Pending} {raw : Bytes} {raws : List Bytes} {key : Text}
      {values : List Text} :
      Reads true before? (textOf raw) (some p) none → Fills (some p) raws key values →
      Fills before? (raw :: raws) key values

namespace Block

def raws : Block → List Bytes
  | quiet raw => [raw]
  | heading raw _ => [raw]
  | entry raws _ _ => raws

def item? : Block → Option Item
  | quiet _ => none
  | heading _ name => some (.heading name)
  | entry _ key values => some (.entry key values)

/-- The lines are what the block takes them for. -/
def Sound : Block → Prop
  | quiet raw => (textOf raw).Blank ∨ (textOf raw).Comment
  | heading raw name => (textOf raw).StartsBracket ∧ (textOf raw).Names name
  | entry raws key values => Fills none raws key values

def namedAfter (inSection : Bool) : Block → Bool
  | heading _ _ => true
  | _ => inSection

def Fits (inSection : Bool) : Block → Prop
  | entry _ _ _ => inSection
  | _ => True

end Block

def Laid : Bool → List Block → Prop
  | _, [] => True
  | inSection, b :: rest => b.Sound ∧ b.Fits inSection ∧ Laid (b.namedAfter inSection) rest

def rawsOf (blocks : List Block) : List Bytes := blocks.flatMap Block.raws

def itemsOf (blocks : List Block) : List Item := blocks.filterMap Block.item?

@[simp]
theorem rawsOf_nil : rawsOf [] = [] := rfl

@[simp]
theorem rawsOf_cons (b : Block) (rest : List Block) : rawsOf (b :: rest) = b.raws ++ rawsOf rest :=
  rfl

@[simp]
theorem rawsOf_append (xs ys : List Block) : rawsOf (xs ++ ys) = rawsOf xs ++ rawsOf ys :=
  List.flatMap_append

@[simp]
theorem itemsOf_nil : itemsOf [] = [] := rfl

theorem itemsOf_cons (b : Block) (rest : List Block) :
    itemsOf (b :: rest) = b.item?.toList ++ itemsOf rest := by
  cases h : b.item? <;> simp [itemsOf, h]

@[simp]
theorem itemsOf_append (xs ys : List Block) : itemsOf (xs ++ ys) = itemsOf xs ++ itemsOf ys :=
  List.filterMap_append

def namedAfterAll (inSection : Bool) (blocks : List Block) : Bool :=
  blocks.foldl Block.namedAfter inSection

@[simp]
theorem namedAfterAll_true (blocks : List Block) : namedAfterAll true blocks = true := by
  induction blocks with
  | nil => rfl
  | cons b rest ih =>
    cases b <;> exact ih

theorem namedAfterAll_append (inSection : Bool) (xs ys : List Block) :
    namedAfterAll inSection (xs ++ ys) = namedAfterAll (namedAfterAll inSection xs) ys :=
  List.foldl_append

theorem laid_append {inSection : Bool} {xs ys : List Block} :
    Laid inSection (xs ++ ys) ↔ Laid inSection xs ∧ Laid (namedAfterAll inSection xs) ys := by
  induction xs generalizing inSection with
  | nil => simp [Laid, namedAfterAll]
  | cons b xs ih =>
    simp only [List.cons_append, Laid, ih, namedAfterAll, List.foldl_cons, and_assoc]

theorem Laid.sound {inSection : Bool} {blocks : List Block} (laid : Laid inSection blocks)
    {b : Block} (mem : b ∈ blocks) : b.Sound := by
  induction blocks generalizing inSection with
  | nil => cases mem
  | cons a rest ih =>
    obtain ⟨sound, _, laid⟩ := laid
    rcases List.mem_cons.mp mem with rfl | mem
    · exact sound
    · exact ih laid mem

/-- Where no section is named, the first thing that blocks complete is a heading. -/
theorem Laid.exists_heading {blocks : List Block} (laid : Laid false blocks) :
    itemsOf blocks = [] ∨ ∃ name items, itemsOf blocks = .heading name :: items := by
  induction blocks with
  | nil => exact Or.inl rfl
  | cons b rest ih =>
    obtain ⟨_, fits, laid⟩ := laid
    rw [itemsOf_cons]
    cases b with
    | quiet raw => exact ih laid
    | heading raw name => exact Or.inr ⟨name, itemsOf rest, rfl⟩
    | entry raws key values => exact absurd fits Bool.false_ne_true

/-- A line of values keeps its key open or completes the key's entry. -/
theorem Pending.after_cases {p : Pending} {pieces : List Text} {last : Text}
    {open? : Option Pending} {item? : Option Item} (h : p.after pieces last = (open?, item?)) :
    (∃ values, open? = some ⟨p.key, values⟩ ∧ item? = none) ∨
      (open? = none ∧ ∃ values, item? = some (.entry p.key values)) := by
  unfold Pending.after at h
  split at h
  · obtain ⟨rfl, rfl⟩ := Prod.mk.inj h
    exact Or.inl ⟨_, rfl, rfl⟩
  · obtain ⟨rfl, rfl⟩ := Prod.mk.inj h
    exact Or.inr ⟨rfl, _, rfl⟩

namespace Reads

variable {inSection : Bool} {before? after? : Option Pending} {t : Text} {item? : Option Item}

theorem blank_or_comment (h : Reads inSection none t none none) : t.Blank ∨ t.Comment := by
  cases h with
  | skip skipped =>
    rcases skipped with rfl | comment
    · exact Or.inl Text.blank_nil
    · exact Or.inr comment
  | blank blank => exact Or.inl blank
  | entry _ _ _ _ _ _ _ _ after =>
    rcases Pending.after_cases after with ⟨_, wrong, _⟩ | ⟨_, _, wrong⟩ <;> simp at wrong

theorem of_blank_or_comment (h : t.Blank ∨ t.Comment) : Reads inSection none t none none := by
  rcases h with blank | comment
  · exact .blank blank
  · exact .skip (Or.inr comment)

/-- An open key is not given up by a line that completes nothing. -/
theorem open_of_quiet {p : Pending} (h : Reads inSection (some p) t after? none) :
    ∃ values, after? = some ⟨p.key, values⟩ := by
  cases h with
  | skip => exact ⟨p.values, rfl⟩
  | values _ _ _ _ _ _ after =>
    rcases Pending.after_cases after with ⟨values, rfl, _⟩ | ⟨_, _, wrong⟩
    · exact ⟨values, rfl⟩
    · simp at wrong

theorem key_of_entry {p : Pending} {key : Text} {values : List Text}
    (h : Reads inSection (some p) t after? (some (.entry key values))) : key = p.key := by
  cases h with
  | lastBlank => rfl
  | values _ _ _ _ _ _ after =>
    rcases Pending.after_cases after with ⟨_, _, wrong⟩ | ⟨_, _, same⟩
    · simp at wrong
    · simp_all

theorem closed_of_item {item : Item} (h : Reads inSection before? t after? (some item)) :
    after? = none := by
  cases h with
  | lastBlank => rfl
  | heading => rfl
  | entry _ _ _ _ _ _ _ _ after =>
    rcases Pending.after_cases after with ⟨_, _, wrong⟩ | ⟨rfl, _⟩
    · simp at wrong
    · rfl
  | values _ _ _ _ _ _ after =>
    rcases Pending.after_cases after with ⟨_, _, wrong⟩ | ⟨rfl, _⟩
    · simp at wrong
    · rfl

theorem of_heading {name : Text} (h : Reads inSection before? t after? (some (.heading name))) :
    before? = none ∧ t.StartsBracket ∧ t.Names name := by
  cases h with
  | heading starts names => exact ⟨rfl, starts, names⟩
  | entry _ _ _ _ _ _ _ _ after =>
    rcases Pending.after_cases after with ⟨_, _, wrong⟩ | ⟨_, _, wrong⟩ <;> simp at wrong
  | values _ _ _ _ _ _ after =>
    rcases Pending.after_cases after with ⟨_, _, wrong⟩ | ⟨_, _, wrong⟩ <;> simp at wrong

end Reads

theorem Fills.key_eq {p : Pending} {raws : List Bytes} {k : Text} {values : List Text}
    (h : Fills (some p) raws k values) : p.key = k := by
  generalize same : some p = before? at h
  induction h generalizing p with
  | last reads =>
    subst same
    exact (reads.key_of_entry).symm
  | more reads _ ih =>
    subst same
    obtain ⟨values, after⟩ := reads.open_of_quiet
    rw [← ih rfl, Option.some.inj after]

/-- Each line of an entry is read as something, and not as a heading. -/
theorem Fills.exists_reads {before? : Option Pending} {raws : List Bytes} {key : Text}
    {values : List Text} (h : Fills before? raws key values) {raw : Bytes} (mem : raw ∈ raws) :
    ∃ before? after? item?, Reads true before? (textOf raw) after? item? ∧
      ∀ name, item? ≠ some (.heading name) := by
  induction h with
  | last reads =>
    obtain rfl := List.mem_singleton.mp mem
    exact ⟨_, _, _, reads, by simp⟩
  | more reads _ ih =>
    rcases List.mem_cons.mp mem with rfl | mem
    · exact ⟨_, _, _, reads, by simp⟩
    · exact ih mem

namespace Reader

/-- The lines of an entry are read as this entry, whatever follows them. -/
theorem readAll_of_fills {r : Reader} {before? : Option Pending} {raws : List Bytes} {key : Text}
    {values : List Text} (fills : Fills before? raws key values) (resting : r.Resting)
    (opened : r.open? = before?) (named : r.inSection = true) {lines : List Line}
    (same : lines.map Line.raw = raws) :
    ∃ r' : Reader, r'.Resting ∧ r'.open? = none ∧ r'.inSection = true ∧
      ∀ rest items, r'.readAll rest = ⟨items, none⟩ →
        r.readAll (lines ++ rest) = ⟨.entry key values :: items, none⟩ := by
  induction fills generalizing r lines with
  | @last before? raw key values reads =>
    obtain ⟨line, rfl, rfl⟩ : ∃ line, lines = [line] ∧ line.raw = raw := by
      simpa [List.map_eq_cons_iff] using same
    refine ⟨r.next line.number none (some (.entry key values)), .next .., open?_next .., named, ?_⟩
    intro rest items tail
    refine (readAll_cons resting).mpr ⟨none, some (.entry key values), items, ?_, tail, rfl⟩
    rw [opened, named, text_eq_textOf]
    exact reads
  | @more before? p raw raws key values reads _ ih =>
    obtain ⟨line, lines, rfl, rfl, others⟩ := List.map_eq_cons_iff.mp same
    obtain ⟨r', resting', closed, named', tail⟩ := ih (.next r line.number (some p) none)
      (open?_next ..) named others
    refine ⟨r', resting', closed, named', fun rest items read => ?_⟩
    refine (readAll_cons resting).mpr ⟨some p, none, _, ?_, tail rest items read, rfl⟩
    rw [opened, named, text_eq_textOf]
    exact reads

theorem readAll_of_laid {r : Reader} {blocks : List Block} {lines : List Line}
    (laid : Laid r.inSection blocks) (resting : r.Resting) (closed : r.open? = none)
    (same : lines.map Line.raw = rawsOf blocks) : r.readAll lines = ⟨itemsOf blocks, none⟩ := by
  induction blocks generalizing r lines with
  | nil =>
    obtain rfl : lines = [] := by simpa using same
    rw [readAll, fault?_eq_none.mpr closed]
    rfl
  | cons b rest ih =>
    obtain ⟨sound, fits, laid⟩ := laid
    cases b with
    | quiet raw =>
      obtain ⟨line, lines, rfl, rfl, others⟩ := List.map_eq_cons_iff.mp same
      have tail := ih (r := r.next line.number none none) laid (.next ..) (open?_next ..) others
      refine (readAll_cons resting).mpr ⟨none, none, _, ?_, tail, rfl⟩
      rw [closed]
      exact .of_blank_or_comment sound
    | heading raw name =>
      obtain ⟨line, lines, rfl, rfl, others⟩ := List.map_eq_cons_iff.mp same
      have tail := ih (r := r.next line.number none (some (.heading name))) laid (.next ..)
        (open?_next ..) others
      refine (readAll_cons resting).mpr ⟨none, some (.heading name), _, ?_, tail, rfl⟩
      rw [closed]
      exact .heading sound.1 sound.2
    | entry raws key values =>
      obtain ⟨own, others, rfl, same_own, same⟩ := List.map_eq_append_iff.mp same
      obtain ⟨r', resting', closed', named', tail⟩ :=
        readAll_of_fills sound resting closed fits same_own
      rw [show r.inSection = true from fits] at laid
      exact tail others _ (ih (named'.symm ▸ laid) resting' closed' same)

theorem exists_laid {r : Reader} {lines : List Line} {items : List Item} (resting : r.Resting)
    (read : r.readAll lines = ⟨items, none⟩) :
    (r.open? = none → ∃ blocks, Laid r.inSection blocks ∧ rawsOf blocks = lines.map Line.raw ∧
      itemsOf blocks = items) ∧
    (∀ p, r.open? = some p → r.inSection = true → ∃ raws key values blocks,
      Fills (some p) raws key values ∧ Laid true blocks ∧
        raws ++ rawsOf blocks = lines.map Line.raw ∧
        .entry key values :: itemsOf blocks = items) := by
  -- Both halves go by one induction: a line that opens a key hands over to the second half, and the
  -- line that completes the entry hands back.
  induction lines generalizing r items with
  | nil =>
    obtain ⟨rfl, faultless⟩ := Reading.mk.inj read
    have closed := fault?_eq_none.mp faultless
    refine ⟨fun _ => ⟨[], trivial, rfl, rfl⟩, fun p opened => ?_⟩
    rw [closed] at opened
    cases opened
  | cons line lines ih =>
    obtain ⟨after?, item?, later, reads, tail, rfl⟩ := (readAll_cons resting).mp read
    rw [text_eq_textOf] at reads
    obtain ⟨ih_closed, ih_open⟩ := ih (.next r line.number after? item?) tail
    rw [open?_next] at ih_closed ih_open
    constructor
    · intro closed
      rw [closed] at reads
      cases item? with
      | none =>
        cases after? with
        | none =>
          obtain ⟨blocks, laid, raws, rfl⟩ := ih_closed rfl
          refine ⟨.quiet line.raw :: blocks, ⟨reads.blank_or_comment, trivial, laid⟩, ?_, rfl⟩
          simp [raws, Block.raws]
        | some p =>
          have named := reads.named (by simp) rfl
          obtain ⟨raws, key, values, blocks, fills, laid, same, rfl⟩ := ih_open p rfl named
          rw [named] at reads ⊢
          refine ⟨.entry (line.raw :: raws) key values :: blocks, ⟨.more reads fills, rfl, laid⟩,
            ?_, rfl⟩
          simp [← same, Block.raws]
      | some item =>
        obtain rfl := reads.closed_of_item
        obtain ⟨blocks, laid, raws, rfl⟩ := ih_closed rfl
        cases item with
        | heading name =>
          refine ⟨.heading line.raw name :: blocks, ⟨reads.of_heading.2, trivial, laid⟩, ?_, rfl⟩
          simp [raws, Block.raws]
        | entry key values =>
          have named := reads.named_of_entry (by simp)
          rw [inSection_next, named] at laid
          rw [named] at reads ⊢
          refine ⟨.entry [line.raw] key values :: blocks, ⟨.last reads, rfl, laid⟩, ?_, rfl⟩
          simp [raws, Block.raws]
    · intro p opened named
      rw [opened, named] at reads
      cases item? with
      | none =>
        obtain ⟨more, rfl⟩ := reads.open_of_quiet
        obtain ⟨raws, key, values, blocks, fills, laid, same, rfl⟩ := ih_open _ rfl named
        refine ⟨line.raw :: raws, key, values, blocks, .more reads fills, laid, ?_, rfl⟩
        simp [← same]
      | some item =>
        obtain rfl := reads.closed_of_item
        cases item with
        | heading name => exact absurd reads.of_heading.1 (by simp)
        | entry key values =>
          obtain ⟨blocks, laid, raws, rfl⟩ := ih_closed rfl
          rw [inSection_next, named] at laid
          refine ⟨[line.raw], key, values, blocks, .last reads, laid, ?_, rfl⟩
          simp [raws]

end Reader

theorem Line.numberFrom_append (n : Nat) (xs ys : List Bytes) :
    numberFrom n (xs ++ ys) = numberFrom n xs ++ numberFrom (n + xs.length) ys := by
  induction xs generalizing n with
  | nil => rfl
  | cons raw xs ih =>
    rw [List.cons_append, numberFrom, numberFrom, ih, List.length_cons, List.cons_append,
      Nat.add_right_comm, Nat.add_assoc]

/-- Consecutive lines cut in two are numbered on. -/
theorem Line.numberFrom_eq_append {n : Nat} {raws : List Bytes} {xs ys : List Line}
    (h : numberFrom n raws = xs ++ ys) :
    xs = numberFrom n (xs.map raw) ∧ ys = numberFrom (n + xs.length) (ys.map raw) := by
  induction xs generalizing n raws with
  | nil =>
    obtain rfl : numberFrom n raws = ys := h
    exact ⟨rfl, by rw [map_raw_numberFrom]; rfl⟩
  | cons line xs ih =>
    cases raws with
    | nil => simp [numberFrom] at h
    | cons raw raws =>
      obtain ⟨rfl, rest⟩ := List.cons.inj h
      obtain ⟨own, others⟩ := ih rest
      refine ⟨congrArg _ own, ?_⟩
      rw [List.length_cons, Nat.add_comm xs.length, ← Nat.add_assoc]
      exact others

theorem map_raw_scan (content : Bytes) : (Line.scan content).map Line.raw = Line.pieces content :=
  Line.map_raw_numberFrom 1 _

/-- The lines of the content are those of the blocks, and each block is what it seems. -/
structure LaidOut (content : Bytes) (blocks : List Block) : Prop where
  raws : rawsOf blocks = Line.pieces content
  laid : Laid false blocks

/-- The contents that can be read are those with a layout. -/
theorem readContent_eq_iff {content : Bytes} {items : List Item} :
    readContent content = ⟨items, none⟩ ↔
      ∃ blocks, LaidOut content blocks ∧ itemsOf blocks = items := by
  constructor
  · intro read
    obtain ⟨blocks, laid, raws, same⟩ := (Reader.exists_laid Reader.resting_start read).1 rfl
    exact ⟨blocks, ⟨raws.trans (map_raw_scan content), laid⟩, same⟩
  · rintro ⟨blocks, ⟨raws, laid⟩, rfl⟩
    exact Reader.readAll_of_laid laid Reader.resting_start rfl ((map_raw_scan content).trans raws.symm)

theorem LaidOut.parse_eq {content : Bytes} {blocks : List Block} (h : LaidOut content blocks) :
    parse content = .ok (Sections.ofItems (itemsOf blocks)) := by
  rw [parse, readContent_eq_iff.mpr ⟨blocks, h, rfl⟩]
  rfl

theorem exists_laidOut {content : Bytes} {s : Sections} (h : parse content = .ok s) :
    ∃ blocks, LaidOut content blocks ∧ Sections.ofItems (itemsOf blocks) = s := by
  cases read : readContent content with
  | mk items fault? =>
    cases fault? with
    | some n => simp [parse, read, Reading.sections] at h
    | none =>
      obtain ⟨blocks, laidOut, rfl⟩ := readContent_eq_iff.mp read
      rw [laidOut.parse_eq] at h
      exact ⟨blocks, laidOut, Except.ok.inj h⟩

end Keyfile
