import Mathlib.Data.List.Forall2
import Keyfile.Proofs.SearchTrace

namespace Keyfile

namespace Line

def EndsBare (l : Line) : Prop :=
  l.isTerminated ∧ l.raw.dropLast.getLast? ≠ some carriageReturn

instance (l : Line) : Decidable l.EndsBare := inferInstanceAs (Decidable (_ ∧ _))

/-- A line with a carriage return before its newline, if it is among the chosen ones. -/
def returned (chosen : Nat → Bool) (l : Line) : Line :=
  if chosen l.number then { l with raw := l.raw.dropLast ++ [carriageReturn, newline] } else l

end Line

def returnAt (chosen : Nat → Bool) (content : Bytes) : Bytes :=
  Line.contentOf ((Line.scan content).map (Line.returned chosen))

namespace Line

variable {chosen : Nat → Bool} {l : Line} {lines : List Line} {n : Nat} {raws : List Bytes}

theorem EndsBare.exists_raw (h : l.EndsBare) :
    ∃ b, l.raw = b ++ [newline] ∧ b.getLast? ≠ some carriageReturn := by
  obtain ⟨terminated, last⟩ := h
  obtain ⟨b, split⟩ := List.getLast?_eq_some_iff.mp (of_decide_eq_true terminated)
  rw [split, List.dropLast_concat] at last
  exact ⟨b, split, last⟩

@[simp]
theorem number_returned (chosen : Nat → Bool) (l : Line) :
    (l.returned chosen).number = l.number := by
  unfold returned
  split <;> rfl

theorem text_returned (bare : chosen l.number → l.EndsBare) :
    (l.returned chosen).text = l.text := by
  unfold returned
  split
  next here =>
    obtain ⟨b, split, last⟩ := (bare here).exists_raw
    have longer : b ++ [carriageReturn, newline] = b ++ [carriageReturn] ++ [newline] :=
      (List.append_assoc b [carriageReturn] [newline]).symm
    rw [text, text, body, body, split, List.dropLast_concat, longer]
    simp only [dropFinal, List.getLast?_concat, List.dropLast_concat, if_pos, last, if_false]
  next => rfl

theorem isTerminated_returned (bare : chosen l.number → l.EndsBare) :
    (l.returned chosen).isTerminated = l.isTerminated := by
  unfold returned
  split
  next here =>
    obtain ⟨b, split, _⟩ := (bare here).exists_raw
    simp [isTerminated, split]
  next => rfl

theorem isClosed_returned (closed : IsClosed l.raw) : IsClosed (l.returned chosen).raw := by
  unfold returned
  split
  next =>
    obtain ⟨b, split, inner⟩ := closed
    have apart : newline ∉ b ++ [carriageReturn] := by
      rw [List.mem_append, not_or]
      exact ⟨inner, by decide⟩
    exact ⟨b ++ [carriageReturn], by simp [split], apart⟩
  next => exact closed

theorem alike_returned (bare : ∀ l ∈ lines, chosen l.number → l.EndsBare) :
    List.Forall₂ Alike (lines.map (returned chosen)) lines := by
  rw [List.forall₂_map_left_iff, List.forall₂_same]
  exact fun l mem => ⟨number_returned chosen l, text_returned (bare l mem)⟩

theorem lined_returned (lined : Lined raws)
    (bare : ∀ l ∈ numberFrom n raws, chosen l.number → l.EndsBare) :
    Lined (((numberFrom n raws).map (returned chosen)).map raw) := by
  induction lined generalizing n with
  | nil => exact .nil
  | @last own filled open_end =>
    have spared : returned chosen ⟨n, own⟩ = ⟨n, own⟩ := by
      refine if_neg fun here => open_end ?_
      obtain ⟨b, split, _⟩ := (bare ⟨n, own⟩ (List.mem_singleton_self _) here).exists_raw
      obtain rfl : own = b ++ [newline] := split
      simp
    rw [numberFrom, numberFrom, List.map_singleton, spared]
    exact .last filled open_end
  | cons closed _ ih =>
    exact .cons (isClosed_returned closed) (ih fun l mem => bare l (List.mem_cons_of_mem _ mem))

theorem numberFrom_map_returned (chosen : Nat → Bool) (n : Nat) (raws : List Bytes) :
    numberFrom n (((numberFrom n raws).map (returned chosen)).map raw) =
      (numberFrom n raws).map (returned chosen) := by
  induction raws generalizing n with
  | nil => rfl
  | cons own raws ih =>
    have first : Line.mk n (returned chosen ⟨n, own⟩).raw = returned chosen ⟨n, own⟩ := by
      unfold returned
      split <;> rfl
    rw [numberFrom, List.map_cons, List.map_cons, numberFrom, first, ih]

theorem scan_returnAt {content : Bytes}
    (bare : ∀ l ∈ scan content, chosen l.number → l.EndsBare) :
    scan (returnAt chosen content) = (scan content).map (returned chosen) := by
  have lined := lined_returned (lined_pieces content) bare
  rw [scan, returnAt, contentOf, scan, pieces_flatten lined, numberFrom_map_returned]

end Line

section alike

variable {line line' : Line} {lines lines' : List Line}

namespace Reader

theorem readChars_congr (same : line.Alike line') (r : Reader) (t : Text) :
    readChars line r t = readChars line' r t := by
  induction t generalizing r with
  | nil => rw [readChars, readChars, same.number]
  | cons c t ih =>
    simp only [readChars, openSection, Line.sectionName?, same.number, same.text, ih]

theorem read_congr (same : line.Alike line') (r : Reader) : r.read line = r.read line' := by
  simp only [read, Line.isEmpty, Line.isComment, Line.isBlank, same.number, same.text,
    readChars_congr same]
  rfl

theorem readAll_congr (alike : List.Forall₂ Line.Alike lines lines') (r : Reader) :
    r.readAll lines = r.readAll lines' := by
  induction alike generalizing r with
  | nil => rfl
  | cons same _ ih => simp only [readAll, read_congr same, ih]

end Reader

namespace Extract

theorem collect_congr (alike : List.Forall₂ Line.Alike lines lines') (r : Reader)
    (keys : Section) : collect r keys lines = collect r keys lines' := by
  induction alike generalizing r keys with
  | nil => rfl
  | cons same _ ih =>
    simp only [collect, Line.opensBracket, same.text, Reader.read_congr same, ih]
    rfl

theorem find_congr (alike : List.Forall₂ Line.Alike lines lines') (name : Text) :
    find name lines = find name lines' := by
  induction alike with
  | nil => rfl
  | cons same rest ih =>
    simp only [find, Line.sectionName?, same.text, Reader.read_congr same, collect_congr rest, ih]

end Extract

theorem Slot.find_congr (alike : List.Forall₂ Line.Alike lines lines') (sectionName key : Text) :
    find sectionName key lines = find sectionName key lines' := by
  rw [find, Search.foldl_step_congr sectionName key .start alike, find]

end alike

namespace Slot

variable {slot : Slot} {lines : List Line} {chosen : Nat → Bool}

theorem linesAbove_map_returned :
    slot.linesAbove (lines.map (Line.returned chosen)) =
      (slot.linesAbove lines).map (Line.returned chosen) := by
  simp [linesAbove, List.filter_map, Function.comp_def]

theorem linesBelow_map_returned :
    slot.linesBelow (lines.map (Line.returned chosen)) =
      (slot.linesBelow lines).map (Line.returned chosen) := by
  simp [linesBelow, List.filter_map, Function.comp_def]

theorem breaksLine_map_returned (bare : ∀ l ∈ lines, chosen l.number → l.EndsBare) :
    slot.BreaksLine (lines.map (Line.returned chosen)) ↔ slot.BreaksLine lines := by
  constructor
  · rintro ⟨_, there, at_place, unfinished⟩
    obtain ⟨l, mem, rfl⟩ := List.mem_map.mp there
    rw [Line.number_returned] at at_place
    rw [Line.isTerminated_returned (bare l mem)] at unfinished
    exact ⟨l, mem, at_place, unfinished⟩
  · rintro ⟨l, mem, at_place, unfinished⟩
    refine ⟨_, List.mem_map_of_mem mem, ?_, ?_⟩
    · rwa [Line.number_returned]
    · rwa [Line.isTerminated_returned (bare l mem)]

end Slot

/-- Carriage returns before the newlines of any lines that end in a newline alone: the content is
read as before, as a whole and each section of it, with the same fault if there is one, and each key
has its place where it had it. A setting is written as before too, and of the lines around it each
chosen one keeps its carriage return. -/
theorem line_endings_indifferent {chosen : Nat → Bool} {content : Bytes}
    (bare : ∀ l ∈ Line.scan content, chosen l.number → l.EndsBare) :
    parse (returnAt chosen content) = parse content ∧
    (∀ name, extract name (returnAt chosen content) = extract name content) ∧
    (∀ sectionName key, Slot.find sectionName key (Line.scan (returnAt chosen content)) =
      Slot.find sectionName key (Line.scan content)) ∧
    ∀ s : Setting,
      s.applyTo content =
        Line.contentOf ((s.slotIn content).linesAbove (Line.scan content)) ++
          ((if (s.slotIn content).BreaksLine (Line.scan content) then [newline] else []) ++
            (encode (s.render (s.slotIn content).hasSection) ++
              Line.contentOf ((s.slotIn content).linesBelow (Line.scan content)))) ∧
      s.applyTo (returnAt chosen content) =
        Line.contentOf
            (((s.slotIn content).linesAbove (Line.scan content)).map (Line.returned chosen)) ++
          ((if (s.slotIn content).BreaksLine (Line.scan content) then [newline] else []) ++
            (encode (s.render (s.slotIn content).hasSection) ++
              Line.contentOf
                (((s.slotIn content).linesBelow (Line.scan content)).map
                  (Line.returned chosen)))) := by
  have lines := Line.scan_returnAt bare
  have alike := Line.alike_returned bare
  rw [← lines] at alike
  refine ⟨?_, fun name => Extract.find_congr alike _, Slot.find_congr alike, fun s => ?_⟩
  · rw [parse, readContent, Reader.readAll_congr alike, parse, readContent]
  · have place : s.slotIn (returnAt chosen content) = s.slotIn content := Slot.find_congr alike ..
    refine ⟨s.applyTo_eq content, ?_⟩
    rw [s.applyTo_eq, place, lines, Slot.linesAbove_map_returned, Slot.linesBelow_map_returned]
    simp only [Slot.breaksLine_map_returned bare]

/-- Three lines of four get a carriage return, and the setting takes the place of one of these. -/
theorem line_endings_indifferent_mixed :
    (∀ l ∈ Line.scan (encode (chars "[s]\na = 1,\r\n 2\nb = 3\n")),
      decide (l.number ≠ 2) = true → l.EndsBare) ∧
    parse (encode (chars "[s]\r\na = 1,\r\n 2\r\nb = 3\r\n")) =
      parse (encode (chars "[s]\na = 1,\r\n 2\nb = 3\n")) ∧
    Setting.applyTo ⟨chars "s", chars "a", [chars "v"]⟩
        (encode (chars "[s]\na = 1,\r\n 2\nb = 3\n")) =
      encode (chars "[s]\na = v\nb = 3\n") ∧
    Setting.applyTo ⟨chars "s", chars "a", [chars "v"]⟩
        (encode (chars "[s]\r\na = 1,\r\n 2\r\nb = 3\r\n")) =
      encode (chars "[s]\r\na = v\nb = 3\r\n") := by
  have bare : ∀ l ∈ Line.scan (encode (chars "[s]\na = 1,\r\n 2\nb = 3\n")),
      decide (l.number ≠ 2) = true → l.EndsBare := by decide
  have written : returnAt (· ≠ 2) (encode (chars "[s]\na = 1,\r\n 2\nb = 3\n")) =
      encode (chars "[s]\r\na = 1,\r\n 2\r\nb = 3\r\n") := rfl
  obtain ⟨read, _, _, set⟩ := @line_endings_indifferent (· ≠ 2) _ bare
  rw [written] at read set
  exact ⟨bare, read, (set _).1, (set _).2⟩

end Keyfile
