import Keyfile.Proofs.Occurrence
import Keyfile.Proofs.ReaderRun

namespace Keyfile

/-- The last occurrence of a section among lines, as a reader goes through them: its heading, its
own lines, from the reader behind the heading to the reader at their end, and those after, of which
the first one is another heading. -/
structure LastStretch (name : Text) (lines before : List Line) (heading : Line)
    (own after : List Line) (opened ended : Reader) : Prop where
  split : lines = before ++ heading :: (own ++ after)
  reached : ∃ items r, Reader.start.Goes before items r ∧
    r.read heading = .ok (opened, some (.heading name))
  entries : ∃ items, opened.Goes own items ended ∧ headingsOf items = []
  bounded : after = [] ∨ ∃ line rest r other, after = line :: rest ∧
    ended.read line = .ok (r, some (.heading other))
  last : ∃ items r, ended.Goes after items r ∧ name ∉ headingsOf items

namespace Slot

/-- The lines inside the slot are those of the last entry of the key in the last occurrence of the
section. -/
def HoldsEntry (slot : Slot) (name key : Text) (lines : List Line) : Prop :=
  ∃ before heading own after opened ended,
    LastStretch name lines before heading own after opened ended ∧
    ∃ own₁ run own₂ items₁ items₂ r₁ r₂, own = own₁ ++ (run ++ own₂) ∧
      opened.Goes own₁ items₁ r₁ ∧ r₁.ReadsEntry key run r₂ ∧ r₂.Goes own₂ items₂ ended ∧
      key ∉ keysOf items₂ ∧
      lines.filter (fun l => slot.above < l.number && l.number < slot.below) = run

/-- The slot is right behind the last line of the last occurrence of the section on which the reader
got on. -/
def EndsSection (slot : Slot) (name : Text) (lines : List Line) : Prop :=
  ∃ before heading own after opened ended,
    LastStretch name lines before heading own after opened ended ∧
      slot.above = ended.last ∧ slot.below = ended.last + 1

/-- The slot says of a key what a reader has read. -/
structure Agrees (slot : Slot) (name key : Text) (lines : List Line) (s : Sections) : Prop where
  hasSection : slot.hasSection ↔ s.contains name
  hasKey : slot.hasKey ↔ (s.keysOf name).contains key
  holds : slot.hasKey → slot.HoldsEntry name key lines
  ends : slot.hasSection → ¬ slot.hasKey → slot.EndsSection name lines

end Slot

theorem Line.mem_numberFrom {n : Nat} {raws : List Bytes} {line : Line}
    (h : line ∈ numberFrom n raws) : n ≤ line.number ∧ line.number < n + raws.length := by
  induction raws generalizing n with
  | nil => simp [numberFrom] at h
  | cons raw raws ih =>
    rw [numberFrom, List.mem_cons] at h
    rw [List.length_cons]
    rcases h with rfl | h
    · exact ⟨Nat.le_refl _, by simp only; omega⟩
    · have := ih h
      omega

theorem Line.filter_numberFrom (xs raws ys : List Bytes) (n : Nat) :
    (numberFrom (n + 1) (xs ++ (raws ++ ys))).filter
        (fun l => n + xs.length < l.number && l.number < n + xs.length + raws.length + 1) =
      numberFrom (n + 1 + xs.length) raws := by
  have before : (numberFrom (n + 1) xs).filter
      (fun l => n + xs.length < l.number && l.number < n + xs.length + raws.length + 1) = [] := by
    rw [List.filter_eq_nil_iff]
    intro l hl
    have := mem_numberFrom hl
    simp only [Bool.and_eq_true, decide_eq_true_eq]
    omega
  have inside : (numberFrom (n + 1 + xs.length) raws).filter
      (fun l => n + xs.length < l.number && l.number < n + xs.length + raws.length + 1) =
        numberFrom (n + 1 + xs.length) raws := by
    rw [List.filter_eq_self]
    intro l hl
    have := mem_numberFrom hl
    simp only [Bool.and_eq_true, decide_eq_true_eq]
    omega
  have behind : (numberFrom (n + 1 + xs.length + raws.length) ys).filter
      (fun l => n + xs.length < l.number && l.number < n + xs.length + raws.length + 1) = [] := by
    rw [List.filter_eq_nil_iff]
    intro l hl
    have := mem_numberFrom hl
    simp only [Bool.and_eq_true, decide_eq_true_eq]
    omega
  rw [numberFrom_append, numberFrom_append, List.filter_append, List.filter_append, before, inside,
    behind, List.nil_append, List.append_nil]

namespace LastOccurrence

variable {name key : Text} {blocks before own after : List Block} {raw : Bytes}

/-- Once a reader is through the blocks of the section, it has gone through the last stretch. -/
theorem exists_opened (h : LastOccurrence name blocks before raw own after)
    (laid : Laid false blocks) :
    ∃ opened : Reader, opened.Idle true ∧ opened.last = (rawsOf before).length + 1 ∧
      Laid true own ∧
      ∀ ended, opened.Goes (Line.numberFrom ((rawsOf before).length + 2) (rawsOf own))
          (itemsOf own) ended → ended.Idle true →
        ∃ lines, LastStretch name (Line.numberFrom 1 (rawsOf blocks))
          (Line.numberFrom 1 (rawsOf before)) ⟨(rawsOf before).length + 1, raw⟩
          (Line.numberFrom ((rawsOf before).length + 2) (rawsOf own)) lines opened ended := by
  obtain ⟨rfl, entries, bounded, last⟩ := h
  obtain ⟨laid_before, sound, _, laid_own⟩ := laid_append.mp laid
  obtain ⟨laid_own, laid_after⟩ := laid_append.mp laid_own
  obtain ⟨r, goes, idle⟩ := Reader.exists_goes_of_laid laid_before 1 Reader.idle_start
  have read := Reader.read_heading idle sound ((rawsOf before).length + 1)
  refine ⟨r.next ((rawsOf before).length + 1) none (some (.heading name)),
    ⟨.next .., Reader.open?_next .., rfl⟩, by simp [Reader.next], laid_own, ?_⟩
  intro ended goes_own idle_ended
  have named : namedAfterAll ((Block.heading raw name).namedAfter
      (namedAfterAll false before)) own = true := namedAfterAll_true own
  rw [named] at laid_after
  obtain ⟨r', goes_after, _⟩ := Reader.exists_goes_of_laid laid_after
    ((rawsOf before).length + 2 + (rawsOf own).length) idle_ended
  refine ⟨_, ?_, ⟨_, r, goes, read⟩, ⟨_, goes_own, entries⟩, ?_, ⟨_, r', goes_after, last⟩⟩
  · rw [rawsOf_append, rawsOf_cons, rawsOf_append, Line.numberFrom_append, Block.raws,
      List.singleton_append, Line.numberFrom, Line.numberFrom_append, Nat.add_comm 1]
  · rcases bounded with rfl | ⟨raw', name', rest, rfl⟩
    · exact Or.inl rfl
    · exact Or.inr ⟨_, _, _, name', rfl, Reader.read_heading idle_ended laid_after.1 _⟩

theorem holdsEntry {own' own'' : List Block} {raws : List Bytes} {values : List Text}
    (h : LastOccurrence name blocks before raw (own' ++ .entry raws key values :: own'') after)
    (laid : Laid false blocks) (last : key ∉ keysOf (itemsOf own'')) :
    (blocks.foldl (Search.pass name key) .start).slot.HoldsEntry name key
      (Line.numberFrom 1 (rawsOf blocks)) := by
  obtain ⟨opened, idle, _, laid_own, stretch⟩ := h.exists_opened laid
  obtain ⟨laid₁, sound, _, laid₂⟩ := laid_append.mp laid_own
  obtain ⟨r₁, goes₁, idle₁⟩ := Reader.exists_goes_of_laid laid₁ ((rawsOf before).length + 2) idle
  rw [namedAfterAll_true] at idle₁ laid₂
  obtain ⟨r₂, reads, goes, idle₂, _⟩ := Reader.exists_readsEntry sound
    ((rawsOf before).length + 2 + (rawsOf own').length) idle₁
  obtain ⟨ended, goes₂, idle_ended⟩ := Reader.exists_goes_of_laid laid₂
    ((rawsOf before).length + 2 + (rawsOf own').length + raws.length) idle₂
  rw [show Block.namedAfter true (.entry raws key values) = true from rfl, namedAfterAll_true]
    at idle_ended
  have lines : Line.numberFrom ((rawsOf before).length + 2)
      (rawsOf (own' ++ .entry raws key values :: own'')) =
        Line.numberFrom ((rawsOf before).length + 2) (rawsOf own') ++
          (Line.numberFrom ((rawsOf before).length + 2 + (rawsOf own').length) raws ++
            Line.numberFrom ((rawsOf before).length + 2 + (rawsOf own').length + raws.length)
              (rawsOf own'')) := by
    rw [rawsOf_append, rawsOf_cons, Line.numberFrom_append, Line.numberFrom_append]
    rfl
  obtain ⟨after_lines, stretch⟩ := stretch ended
    (by rw [lines, itemsOf_append, itemsOf_cons]; exact goes₁.append (goes.append goes₂))
    idle_ended
  refine ⟨_, _, _, _, _, _, stretch, _, _, _, _, _, r₁, r₂, lines, goes₁, reads, goes₂, last, ?_⟩
  have split : rawsOf blocks = (rawsOf before ++ raw :: rawsOf own') ++
      (raws ++ (rawsOf own'' ++ rawsOf after)) := by
    rw [h.split]
    simp [Block.raws]
  have filtered := Line.filter_numberFrom (rawsOf before ++ raw :: rawsOf own') raws
    (rawsOf own'' ++ rawsOf after) 0
  rw [h.slot_of_entry last, split]
  simp only [List.length_append, List.length_cons, Nat.zero_add] at filtered ⊢
  rw [show (rawsOf before).length + 1 + (rawsOf own').length =
    (rawsOf before).length + ((rawsOf own').length + 1) by omega, filtered]
  congr 1
  omega

theorem endsSection (h : LastOccurrence name blocks before raw own after)
    (laid : Laid false blocks) (absent : key ∉ keysOf (itemsOf own)) :
    (blocks.foldl (Search.pass name key) .start).slot.EndsSection name
      (Line.numberFrom 1 (rawsOf blocks)) := by
  obtain ⟨opened, idle, opened_last, laid_own, stretch⟩ := h.exists_opened laid
  obtain ⟨spoken, silent, rfl, nothing, ends⟩ := exists_silent h.entries
  obtain ⟨laid₁, laid₂⟩ := laid_append.mp laid_own
  rw [namedAfterAll_true] at laid₂
  have reached : ∃ r : Reader, r.Idle true ∧
      opened.Goes (Line.numberFrom ((rawsOf before).length + 2) (rawsOf spoken)) (itemsOf spoken) r ∧
      r.last = (rawsOf before).length + 1 + (rawsOf spoken).length := by
    rcases ends with rfl | ⟨init, raws, k, values, rfl⟩
    · exact ⟨opened, idle, .done, opened_last⟩
    · obtain ⟨laid_init, sound, _⟩ := laid_append.mp laid₁
      obtain ⟨r₁, goes₁, idle₁⟩ :=
        Reader.exists_goes_of_laid laid_init ((rawsOf before).length + 2) idle
      rw [namedAfterAll_true] at idle₁
      obtain ⟨r₂, _, goes₂, idle₂, last⟩ := Reader.exists_readsEntry sound
        ((rawsOf before).length + 2 + (rawsOf init).length) idle₁
      refine ⟨r₂, idle₂, ?_, ?_⟩
      · rw [rawsOf_append, itemsOf_append, Line.numberFrom_append]
        simpa [rawsOf, itemsOf, Block.raws, Block.item?] using goes₁.append goes₂
      · simp only [rawsOf_append, rawsOf_cons, rawsOf_nil, Block.raws, List.append_nil,
          List.length_append]
        omega
  obtain ⟨r, idle_r, goes, last⟩ := reached
  have goes_silent := Reader.goes_of_silent laid₂ nothing
    ((rawsOf before).length + 2 + (rawsOf spoken).length) idle_r
  obtain ⟨after_lines, stretch⟩ := stretch r
    (by
      rw [rawsOf_append, Line.numberFrom_append, itemsOf_append, nothing]
      exact goes.append goes_silent) idle_r
  refine ⟨_, _, _, _, _, _, stretch, ?_⟩
  rw [h.slot_of_absent absent rfl nothing ends, last]
  exact ⟨rfl, rfl⟩

end LastOccurrence

/-- In a content without traps the place of a key agrees with what is read. -/
theorem LaidOut.agrees {content : Bytes} {blocks : List Block} (h : LaidOut content blocks)
    (plain : ∀ raw ∈ rawsOf blocks, ¬ (textOf raw).Trap) (name : Text) {key : Text}
    (valid : Setting.checkKey key = .ok ()) :
    (Slot.find name key (Line.scan content)).Agrees name key (Line.scan content)
      (Sections.ofItems (itemsOf blocks)) := by
  rw [h.find_eq plain name valid, Line.scan, ← h.raws]
  by_cases named : name ∈ headingsOf (itemsOf blocks)
  · obtain ⟨before, raw, own, after, occurs⟩ := exists_lastOccurrence named
    have has_section := (Sections.contains_ofItems (itemsOf blocks) name).mpr named
    by_cases assigned : key ∈ keysOf (itemsOf own)
    · have has_key := (occurs.contains_keysOf key).mpr assigned
      obtain ⟨own', raws, values, own'', rfl, last⟩ := exists_lastEntry assigned
      have slot := occurs.slot_of_entry last
      refine ⟨?_, ?_, fun _ => occurs.holdsEntry h.laid last, ?_⟩
      · simp [slot, has_section]
      · simp [slot, has_key]
      · simp [slot]
    · have has_key := (occurs.contains_keysOf key).not.mpr assigned
      obtain ⟨spoken, silent, rfl, nothing, ends⟩ := exists_silent occurs.entries
      have slot := occurs.slot_of_absent assigned rfl nothing ends
      refine ⟨?_, ?_, ?_, fun _ _ => occurs.endsSection h.laid assigned⟩
      · simp [slot, has_section]
      · simp [slot, has_key]
      · simp [slot]
  · have no_section := (Sections.contains_ofItems (itemsOf blocks) name).not.mpr named
    have no_keys := Sections.keysOf_ofItems_of_not_mem named
    have slot := slot_of_not_named key named
    refine ⟨?_, ?_, ?_, ?_⟩
    · simp [slot, no_section]
    · simp [slot, no_keys, Table.contains]
    · simp [slot]
    · simp [slot]

end Keyfile
