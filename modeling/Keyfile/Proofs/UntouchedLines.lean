import Keyfile.Proofs.UpdateRun
import Keyfile.Proofs.EditBlocks
import Keyfile.Proofs.SlotAgreement

namespace Keyfile

structure Sighting.Among (o : Sighting) (count : Nat) : Prop where
  tail : o.tail ≤ count
  span : ∀ first last, o.span? = some (first, last) → 1 ≤ first ∧ first ≤ last ∧ last ≤ count

namespace Sighting.Among

variable {o : Sighting} {count : Nat}

theorem mono (h : o.Among count) {count' : Nat} (more : count ≤ count') : o.Among count' := by
  refine ⟨Nat.le_trans h.tail more, fun first last span => ?_⟩
  obtain ⟨positive, ordered, within⟩ := h.span first last span
  exact ⟨positive, ordered, Nat.le_trans within more⟩

theorem start (ofKey : Bool) (o : Sighting) (h : o.Among count) :
    (o.follow (count + 1) ofKey).Among (count + 1) := by
  refine ⟨Nat.le_refl _, fun first last span => ?_⟩
  cases ofKey with
  | true =>
    obtain ⟨rfl, rfl⟩ : count + 1 = first ∧ count + 1 = last := by simpa [follow] using span
    omega
  | false => exact (h.mono (Nat.le_succ count)).span first last span

theorem extend (ofKey : Bool) (h : o.Among count) :
    (o.extend (count + 1) ofKey).Among (count + 1) := by
  refine ⟨Nat.le_refl _, fun first last span => ?_⟩
  cases ofKey with
  | true =>
    obtain ⟨a, b, seen, rfl, rfl⟩ :
        ∃ a b, o.span? = some (a, b) ∧ a = first ∧ count + 1 = last := by
      simpa [Sighting.extend] using span
    have := h.span a b seen
    omega
  | false => exact (h.mono (Nat.le_succ count)).span first last span

end Sighting.Among

structure Search.Among (s : Search) : Prop where
  here : ∀ o, s.here? = some o → o.Among s.count
  earlier : ∀ o, s.earlier? = some o → o.Among s.count

namespace Search

variable (sectionName key : Text) {s : Search}

theorem Among.seen (h : s.Among) {o : Sighting} (seen : s.here?.or s.earlier? = some o) :
    o.Among s.count := by
  rcases Option.or_eq_some_iff.mp seen with here | ⟨_, earlier⟩
  · exact h.here o here
  · exact h.earlier o earlier

theorem count_step (s : Search) (line : Line) :
    (s.step sectionName key line).count = line.number := by
  unfold step
  cases within : s.within? with
  | none =>
    simp only [takeLine]
    repeat' split
    all_goals rfl
  | some ofKey =>
    simp only [continueValues]
    split <;> rfl

/-- Any next line at all leaves what is seen among the lines. -/
theorem Among.step (h : s.Among) {line : Line} (next : line.number = s.count + 1) :
    (s.step sectionName key line).Among := by
  have more : s.count ≤ s.count + 1 := Nat.le_succ _
  have kept : Among { s with count := s.count + 1 } :=
    ⟨fun o here => (h.here o here).mono more, fun o earlier => (h.earlier o earlier).mono more⟩
  unfold Search.step
  cases within : s.within? with
  | some ofKey =>
    simp only [continueValues, next]
    split
    next => exact ⟨kept.here, kept.earlier⟩
    next =>
      refine ⟨fun o here => ?_, kept.earlier⟩
      obtain ⟨o', here', rfl⟩ := Option.map_eq_some_iff.mp here
      exact (h.here o' here').extend ofKey
  | none =>
    simp only [takeLine, next]
    split
    next => exact ⟨kept.here, kept.earlier⟩
    next =>
      split
      next =>
        refine ⟨fun o here => ?_, fun o earlier => (h.seen earlier).mono more⟩
        split at here
        next =>
          obtain rfl := Option.some.inj here
          exact ⟨Nat.le_refl _, by simp⟩
        next => cases here
      next =>
        split
        next => exact ⟨kept.here, kept.earlier⟩
        next o' here' =>
          refine ⟨fun o here => ?_, kept.earlier⟩
          obtain rfl := Option.some.inj here
          exact .start _ o' (h.here o' here')

theorem Among.foldl_step (h : s.Among) (raws : List Bytes) :
    ((Line.numberFrom (s.count + 1) raws).foldl (Search.step sectionName key) s).Among ∧
      ((Line.numberFrom (s.count + 1) raws).foldl (Search.step sectionName key) s).count =
        s.count + raws.length := by
  induction raws generalizing s with
  | nil => exact ⟨h, rfl⟩
  | cons raw raws ih =>
    have count : (s.step sectionName key ⟨s.count + 1, raw⟩).count = s.count + 1 := count_step ..
    have first : (s.step sectionName key ⟨s.count + 1, raw⟩).Among := h.step sectionName key rfl
    have rest := ih first
    rw [count] at rest
    rw [Line.numberFrom, List.foldl_cons, List.length_cons, Nat.add_comm raws.length,
      ← Nat.add_assoc]
    exact rest

theorem among_start : start.Among := ⟨by simp [start], by simp [start]⟩

end Search

/-- The place lies among so many lines. It has lines of its own if the key has, and else stands
between two lines. -/
structure Slot.Among (slot : Slot) (count : Nat) : Prop where
  ordered : slot.above < slot.below
  within : slot.below ≤ count + 1
  between_iff : slot.below = slot.above + 1 ↔ ¬ slot.hasKey
  hasSection : slot.hasKey → slot.hasSection

theorem Search.Among.slot {s : Search} (h : s.Among) : s.slot.Among s.count := by
  unfold Search.slot
  split
  next => exact ⟨by simp, by simp, by simp, by simp⟩
  next tail first last seen =>
    obtain ⟨positive, ordered, within⟩ := (h.seen seen).span first last rfl
    exact ⟨by simp only; omega, by simp only; omega, by simp; omega, by simp⟩
  next tail seen =>
    have within := (h.seen seen).tail
    exact ⟨by simp, by simpa using within, by simp, by simp⟩

theorem Slot.among_find (sectionName key : Text) (content : Bytes) :
    (Slot.find sectionName key (Line.scan content)).Among (Line.scan content).length := by
  obtain ⟨among, count⟩ := Search.among_start.foldl_step sectionName key (Line.pieces content)
  have length : (Line.scan content).length = (Line.pieces content).length := by
    rw [← map_raw_scan, List.length_map]
  have slot := among.slot
  rw [count] at slot
  rw [length, ← Nat.zero_add (Line.pieces content).length]
  exact slot

namespace Slot

def linesAbove (slot : Slot) (lines : List Line) : List Line :=
  lines.filter (·.number ≤ slot.above)

def linesBelow (slot : Slot) (lines : List Line) : List Line :=
  lines.filter (slot.below ≤ ·.number)

variable {slot : Slot}

theorem Among.exists_split {raws : List Bytes} (h : slot.Among raws.length) :
    ∃ xs inside ys, raws = xs ++ (inside ++ ys) ∧ slot.above = xs.length ∧
      slot.below = xs.length + inside.length + 1 := by
  obtain ⟨ordered, within, _, _⟩ := h
  refine ⟨raws.take slot.above, (raws.drop slot.above).take (slot.below - 1 - slot.above),
    (raws.drop slot.above).drop (slot.below - 1 - slot.above), ?_, ?_, ?_⟩
  · rw [List.take_append_drop, List.take_append_drop]
  · rw [List.length_take]
    omega
  · rw [List.length_take, List.length_take, List.length_drop]
    omega

theorem linesAbove_eq {xs rest : List Bytes} (above : slot.above = xs.length) :
    slot.linesAbove (Line.numberFrom 1 (xs ++ rest)) = Line.numberFrom 1 xs := by
  have kept : (Line.numberFrom 1 xs).filter (·.number ≤ slot.above) = Line.numberFrom 1 xs := by
    rw [List.filter_eq_self]
    intro l hl
    have := Line.mem_numberFrom hl
    simp only [decide_eq_true_eq]
    omega
  have dropped : (Line.numberFrom (1 + xs.length) rest).filter (·.number ≤ slot.above) = [] := by
    rw [List.filter_eq_nil_iff]
    intro l hl
    have := Line.mem_numberFrom hl
    simp only [decide_eq_true_eq]
    omega
  rw [linesAbove, Line.numberFrom_append, List.filter_append, kept, dropped, List.append_nil]

theorem linesBelow_eq {before : List Bytes} (ys : List Bytes)
    (below : slot.below = before.length + 1) :
    slot.linesBelow (Line.numberFrom 1 (before ++ ys)) =
      Line.numberFrom (1 + before.length) ys := by
  have dropped : (Line.numberFrom 1 before).filter (slot.below ≤ ·.number) = [] := by
    rw [List.filter_eq_nil_iff]
    intro l hl
    have := Line.mem_numberFrom hl
    simp only [decide_eq_true_eq]
    omega
  have kept : (Line.numberFrom (1 + before.length) ys).filter (slot.below ≤ ·.number) =
      Line.numberFrom (1 + before.length) ys := by
    rw [List.filter_eq_self]
    intro l hl
    have := Line.mem_numberFrom hl
    simp only [decide_eq_true_eq]
    omega
  rw [linesBelow, Line.numberFrom_append, List.filter_append, kept, dropped, List.nil_append]

/-- The line right before the place, if there is one, lacks a newline at its end. -/
def BreaksLine (slot : Slot) (lines : List Line) : Prop :=
  ∃ line ∈ lines, line.number = slot.above ∧ line.isTerminated = false

instance (slot : Slot) (lines : List Line) : Decidable (slot.BreaksLine lines) :=
  inferInstanceAs (Decidable (∃ line ∈ lines, _))

theorem breaksLine_iff {xs : List Bytes} (rest : List Bytes) (above : slot.above = xs.length) :
    slot.BreaksLine (Line.numberFrom 1 (xs ++ rest)) ↔ terminatedAfter true xs = false := by
  rw [Line.numberFrom_append]
  constructor
  · rintro ⟨line, mem, number, unfinished⟩
    rcases List.mem_append.mp mem with mem | mem
    · cases xs using List.reverseRecOn with
      | nil => simp [Line.numberFrom] at mem
      | append_singleton xs raw =>
        rw [Line.numberFrom_append, List.mem_append] at mem
        rcases mem with mem | mem
        · have := Line.mem_numberFrom mem
          rw [List.length_append, List.length_singleton] at above
          omega
        · obtain rfl : line = ⟨1 + xs.length, raw⟩ := by simpa [Line.numberFrom] using mem
          simpa [terminatedAfter, Line.isTerminated] using unfinished
    · have := Line.mem_numberFrom mem
      omega
  · intro unfinished
    cases xs using List.reverseRecOn with
    | nil => simp [terminatedAfter] at unfinished
    | append_singleton xs raw =>
      refine ⟨⟨1 + xs.length, raw⟩, ?_, ?_, ?_⟩
      · simp [Line.numberFrom_append, Line.numberFrom]
      · simp [above, Nat.add_comm]
      · simpa [terminatedAfter, Line.isTerminated] using unfinished

end Slot

theorem Line.map_text_numberFrom (n : Nat) (raws : List Bytes) :
    (numberFrom n raws).map text = raws.map textOf := by
  rw [← map_raw_numberFrom n raws, List.map_map, map_raw_numberFrom]
  rfl

namespace Setting

variable {s : Setting} {content : Bytes}

theorem exists_pieces_eq (s : Setting) (content : Bytes) :
    ∃ xs inside ys, Line.pieces content = xs ++ (inside ++ ys) ∧
      (s.slotIn content).above = xs.length ∧
      (s.slotIn content).below = xs.length + inside.length + 1 := by
  have among : (s.slotIn content).Among (Line.scan content).length := Slot.among_find ..
  rw [← List.length_map Line.raw, map_raw_scan] at among
  exact among.exists_split

/-- The content with the setting in its place: the lines before it, on a line of its own the
setting, and the lines behind it. -/
theorem applyTo_eq (s : Setting) (content : Bytes) :
    s.applyTo content =
      Line.contentOf ((s.slotIn content).linesAbove (Line.scan content)) ++
        ((if (s.slotIn content).BreaksLine (Line.scan content) then [newline] else []) ++
          (encode (s.render (s.slotIn content).hasSection) ++
            Line.contentOf ((s.slotIn content).linesBelow (Line.scan content)))) := by
  obtain ⟨xs, inside, ys, split, above, below⟩ := s.exists_pieces_eq content
  rw [applyTo, Line.scan, split]
  generalize s.slotIn content = slot at above below
  have behind : slot.below = (xs ++ inside).length + 1 := by rw [List.length_append, below]
  have breaks := Slot.breaksLine_iff (inside ++ ys) above
  have kept := Slot.linesBelow_eq ys behind
  rw [List.append_assoc] at kept
  rw [Slot.linesAbove_eq above, kept,
    withBlock_eq _ _ xs inside ys (by rw [above]; omega) (by rw [below]; omega)]
  simp only [breaks, Line.contentOf, Line.map_raw_numberFrom]
  cases terminatedAfter true xs <;> simp [onNewLine]

/-- The lines before and behind the setting say what they said. -/
theorem map_text_scan_applyTo (valid : s.Valid) (content : Bytes) :
    (Line.scan (s.applyTo content)).map Line.text =
      ((s.slotIn content).linesAbove (Line.scan content)).map Line.text ++
        ((Line.scan (encode (s.render (s.slotIn content).hasSection))).map Line.text ++
          ((s.slotIn content).linesBelow (Line.scan content)).map Line.text) := by
  obtain ⟨xs, inside, ys, split, above, below⟩ := s.exists_pieces_eq content
  have place : s.slotIn content = ⟨xs.length, xs.length + inside.length + 1,
      (s.slotIn content).hasSection, (s.slotIn content).hasKey⟩ := by rw [← below, ← above]
  have edited := pieces_applyTo valid split place
  have closed : ∀ raw ∈ rawsOf (s.blocks (s.slotIn content).hasSection), Line.IsClosed raw :=
    fun raw hr => (plain_of_mem_blocks valid hr).1
  have lined := Line.lined_of_closed closed
  rw [Line.scan, edited, Line.scan, split, encode_render, Line.scan, Line.pieces_flatten lined]
  generalize s.slotIn content = slot at above below
  have behind : slot.below = (xs ++ inside).length + 1 := by rw [List.length_append, below]
  have kept := Slot.linesBelow_eq ys behind
  rw [List.append_assoc] at kept
  have same : (xs.map Line.closeRaw).map textOf = xs.map textOf := by
    simp [textOf_closeRaw]
  rw [Slot.linesAbove_eq above, kept]
  simp only [Line.map_text_numberFrom, List.map_append, same]

end Setting

/-- A setting is saved in a file of any content: its place lies among the lines, the file holds the
lines before it, the setting on lines of its own, and the lines behind it, and these lines are as
they were. If no staging file can be made, nothing is changed. -/
theorem saveSetting_keeps_lines {sectionName key : Text} {values : List Text} {s : Setting}
    (accepted : Setting.ofRequest sectionName key values = .ok s) (content : Bytes) :
    (s.slotIn content).Among (Line.scan content).length ∧
      s.applyTo content =
        Line.contentOf ((s.slotIn content).linesAbove (Line.scan content)) ++
          ((if (s.slotIn content).BreaksLine (Line.scan content) then [newline] else []) ++
            (encode (s.render (s.slotIn content).hasSection) ++
              Line.contentOf ((s.slotIn content).linesBelow (Line.scan content)))) ∧
      (Line.scan (s.applyTo content)).map Line.text =
        ((s.slotIn content).linesAbove (Line.scan content)).map Line.text ++
          ((Line.scan (encode (s.render (s.slotIn content).hasSection))).map Line.text ++
            ((s.slotIn content).linesBelow (Line.scan content)).map Line.text) ∧
      ∀ path options h, h.disk.read path = .ok content →
        (∀ d, h.disk.stage options.stagingPath = .ok d →
          ∃ h', (saveSetting path s options).run h = (.ok (), h') ∧
            h'.disk.read path = .ok (s.applyTo content)) ∧
        ∀ e, h.disk.stage options.stagingPath = .error e →
          ∃ h', (saveSetting path s options).run h = (.error (.disk e), h') ∧ h'.disk = h.disk := by
  obtain ⟨_, valid⟩ := Setting.ofRequest_eq_ok accepted
  refine ⟨Slot.among_find .., s.applyTo_eq content, Setting.map_text_scan_applyTo valid content, ?_⟩
  intro path options h read
  constructor
  · intro d staged
    obtain ⟨log, ran⟩ := Update.run_of_stage (s := s) read staged
    exact ⟨_, ran, Disk.read_put_of_read read _⟩
  · intro e refused
    obtain ⟨log, ran⟩ := Update.run_of_not_staged (s := s) read refused
    exact ⟨_, ran, rfl⟩

/-- A key that goes behind a last line with a carriage return and no newline. -/
theorem saveSetting_keeps_lines_unterminated :
    Setting.ofRequest (chars "S") (chars "c") [chars " z"] =
        .ok ⟨chars "s", chars "c", [chars "z"]⟩ ∧
      ∃ h', (saveSetting [0x66] ⟨chars "s", chars "c", [chars "z"]⟩ (.usual [dot])).run
          ⟨⟨[([[0x66]], .file (encode (chars "?\n[s]\na = x\r")))], []⟩, []⟩ = (.ok (), h') ∧
        h'.disk.read [0x66] = .ok (encode (chars "?\n[s]\na = x\r\nc = z\n")) := by
  obtain ⟨_, _, _, saved⟩ := saveSetting_keeps_lines
    (show Setting.ofRequest (chars "S") (chars "c") [chars " z"] = .ok _ from rfl)
    (encode (chars "?\n[s]\na = x\r"))
  exact ⟨rfl, (saved [0x66] (.usual [dot]) _ rfl).1 _ rfl⟩

end Keyfile
