import Keyfile.Proofs.ReaderRun
import Keyfile.Proofs.Trap

namespace Keyfile

namespace Reader

variable {r r' : Reader} {number : Nat} {c : Char} {p q : Text}

/-- The reader after characters none of which opens a section or is at fault. -/
def pushAll? (number : Nat) (r : Reader) : Text → Option Reader
  | [] => some r
  | c :: cs =>
    if c = '[' && !r.escaping then none
    else match r.push number c with
      | .error _ => none
      | .ok r => pushAll? number r cs

def separated (r : Reader) (number : Nat) : Reader :=
  { r with values := r.values ++ [r.piece], buffer := [], afterComma := true, last := number }

def kept (r : Reader) (c : Char) : Reader := { r with buffer := c :: r.buffer, escaping := false }

theorem pushAll?_cons {cs : Text} : r.pushAll? number (c :: cs) = some r' ↔
    (c = '[' → r.escaping) ∧ ∃ r₁, r.push number c = .ok r₁ ∧ r₁.pushAll? number cs = some r' := by
  rw [pushAll?]
  by_cases opening : c = '[' ∧ r.escaping = false
  · simp [opening]
  · have passed : (c = '[' && !r.escaping) = false := by simpa using opening
    cases pushed : r.push number c <;> simp_all

theorem readChars_append_of_pushAll? {line : Line} (pushed : r.pushAll? line.number p = some r')
    (q : Text) : readChars line r (p ++ q) = readChars line r' q := by
  induction p generalizing r with
  | nil =>
    obtain rfl := Option.some.inj pushed
    rfl
  | cons c p ih =>
    obtain ⟨bracket, r₁, push, rest⟩ := pushAll?_cons.mp pushed
    have passed : (c = '[' && !r.escaping) = false := by simpa using bracket
    rw [List.cons_append, readChars, passed, push]
    exact ih rest

/-- One character: only a backslash that is not escaped itself escapes the next one. -/
theorem escaping_push (pushed : r.push number c = .ok r') :
    r'.escaping ↔ c = '\\' ∧ ¬ r.escaping := by
  unfold push at pushed
  split at pushed
  next escaping =>
    cases pushed
    simp [escaping]
  next bare =>
    split at pushed
    next equals =>
      split at pushed
      · cases pushed
      · cases pushed
        simp [equals, bare]
    next =>
      split at pushed
      next comma =>
        split at pushed
        · cases pushed
        · cases pushed
          simp [comma, bare]
      next =>
        split at pushed
        next gap =>
          cases pushed
          have not_backslash : c ≠ '\\' := by
            rintro rfl
            simp at gap
          simp [not_backslash, bare]
        next =>
          cases pushed
          simp [bare]

/-- Many characters. What was pushed before them may end in an open run of backslashes. -/
theorem escaping_pushAll? (before : r.escaping ↔ p.Escapes)
    (pushed : r.pushAll? number q = some r') : r'.escaping ↔ Text.Escapes (p ++ q) := by
  induction q generalizing r p with
  | nil =>
    obtain rfl := Option.some.inj pushed
    rwa [List.append_nil]
  | cons c q ih =>
    obtain ⟨_, r₁, push, rest⟩ := pushAll?_cons.mp pushed
    have after : r₁.escaping ↔ Text.Escapes (p ++ [c]) := by
      rw [escaping_push push, Text.escapes_concat, before]
    rw [List.append_cons]
    exact ih after rest

theorem escaping_iff_escapes (bare : r.escaping = false)
    (pushed : r.pushAll? number p = some r') : r'.escaping ↔ p.Escapes := by
  have before : r.escaping ↔ Text.Escapes [] := by simp [bare]
  simpa using escaping_pushAll? before pushed

theorem push_comma {key : Text} (opened : r.key? = some key) :
    r.push number ',' = .ok (if r.escaping then r.kept ',' else r.separated number) := by
  cases h : r.escaping <;> simp [push, kept, separated, opened, h]

theorem separated_ne_kept (r : Reader) (number : Nat) (c : Char) : r.separated number ≠ r.kept c :=
  fun same => List.cons_ne_nil _ _ (congrArg Reader.buffer same).symm

theorem exists_push (equals : c ≠ '=') (comma : c ≠ ',') : ∃ r', r.push number c = .ok r' := by
  unfold push
  simp only [equals, comma, if_false]
  split
  · exact ⟨_, rfl⟩
  · split <;> exact ⟨_, rfl⟩

theorem exists_pushAll? (number : Nat) (r : Reader) (plain : ∀ c ∈ p, c ∉ reserved) :
    ∃ r', r.pushAll? number p = some r' := by
  induction p generalizing r with
  | nil => exact ⟨r, rfl⟩
  | cons c p ih =>
    have allowed := plain c List.mem_cons_self
    have equals : c ≠ '=' := fun same => allowed (same ▸ by decide)
    have comma : c ≠ ',' := fun same => allowed (same ▸ by decide)
    have bracket : c ≠ '[' := fun same => allowed (same ▸ by decide)
    obtain ⟨r₁, push⟩ : ∃ r₁, r.push number c = .ok r₁ := exists_push equals comma
    obtain ⟨r', rest⟩ := ih r₁ fun d hd => plain d (List.mem_cons_of_mem _ hd)
    exact ⟨r', pushAll?_cons.mpr ⟨fun same => absurd same bracket, r₁, push, rest⟩⟩

end Reader

/-- Of the last comma of a line, blanks apart, the run of backslashes before it decides. -/
theorem endsInComma_append_comma {p w : Text} (blank : w.Blank) :
    endsInComma (p ++ ',' :: w) ↔ ¬ p.Escapes := by
  rw [endsInComma_iff]
  constructor
  · rintro ⟨p', w', split, even, blank₁⟩
    rcases Text.append_cons_cases split with ⟨rfl, _, _⟩ | ⟨x, _, rfl⟩ | ⟨x, _, rfl⟩
    · exact even
    · exact absurd (blank ',' (by simp)) (by decide)
    · exact absurd (blank₁ ',' (by simp)) (by decide)
  · exact fun even => ⟨p, w, rfl, even, blank⟩

/-- A value without reserved characters that does not look like a comment is refused for its last
backslashes only. -/
theorem Setting.checkValue_of_plain {startsLine : Bool} {value : Text}
    (plain : ∀ c ∈ value, c ∉ reserved) (no_comment : startsLine → ¬ value.Comment) :
    checkValue startsLine value =
      if value.trim.Escapes then .error (.badValue '\\' value) else .ok value.trim := by
  have none_reserved : firstOf reserved value = none := by simpa [firstOf] using plain
  have no_sign : (startsLine && looksLikeComment value) = false := by
    rw [Bool.eq_false_iff, ne_eq, Bool.and_eq_true, looksLikeComment_iff, not_and]
    exact no_comment
  rw [checkValue, none_reserved]
  simp only [no_sign, Bool.false_eq_true, if_false]
  rfl

/-- Behind any lines read without fault, and behind any characters of the next line that are pushed
without fault, a reader is escaping exactly if an odd run of backslashes ends these characters. So
of the last comma of a line, blanks apart, the reader with a key open makes the end of a value
exactly if a search sees the values go on. And a value that is checked for its last backslashes
passes exactly if the reader is not left escaping by it. -/
theorem escaping_iff_odd_backslashes {lines : List Line} {items : List Item} {r r' : Reader}
    (run : Reader.start.Goes lines items r) (line : Line) {p : Text}
    (pushed : r.pushAll? line.number p = some r') :
    (∀ q, line.text = p ++ q → line.isContent → r.read line = Reader.readChars line r' q) ∧
    (r'.escaping ↔ p.finalBackslashes % 2 = 1) ∧
    (∀ (w : Text) key, line.text = p ++ ',' :: w → w.Blank → r'.key? = some key →
      (endsInComma line.text = true ↔
        r'.push line.number ',' = .ok (r'.separated line.number)) ∧
      (endsInComma line.text = false ↔ r'.push line.number ',' = .ok (r'.kept ','))) ∧
    ∀ (startsLine : Bool) (value : Text), (∀ c ∈ value, c ∉ reserved) →
      (startsLine → ¬ value.Comment) → r'.escaping = false →
      ∃ r'', r'.pushAll? line.number value.trim = some r'' ∧
        (Setting.checkValue startsLine value = .ok value.trim ↔ r''.escaping = false) ∧
        (Setting.checkValue startsLine value = .error (.badValue '\\' value) ↔
          r''.escaping = true) := by
  have resting := run.resting Reader.resting_start
  have flag := Reader.escaping_iff_escapes resting.escaping pushed
  refine ⟨fun q split content => ?_, flag, fun w key split blank opened => ?_,
    fun startsLine value plain no_comment bare => ?_⟩
  · obtain ⟨filled, no_comment⟩ := Line.isContent_iff.mp content
    rw [Reader.read_eq_readChars filled no_comment, split]
    exact Reader.readChars_append_of_pushAll? pushed q
  · have search := endsInComma_append_comma (p := p) blank
    rw [split, Reader.push_comma opened]
    cases escaping : r'.escaping with
    | true =>
      have odd := flag.mp escaping
      simp [Bool.eq_false_iff.mpr (search.not.mpr (not_not.mpr odd)),
        (Reader.separated_ne_kept r' line.number ',').symm]
    | false =>
      have even : ¬ p.Escapes := fun odd => by simp [flag.mpr odd] at escaping
      simp [search.mpr even, Reader.separated_ne_kept]
  · have trimmed : ∀ c ∈ value.trim, c ∉ reserved := fun c hc => plain c (Text.mem_of_mem_trim hc)
    obtain ⟨r'', consumed⟩ := Reader.exists_pushAll? line.number r' trimmed
    have after := Reader.escaping_iff_escapes bare consumed
    refine ⟨r'', consumed, ?_⟩
    rw [Setting.checkValue_of_plain plain no_comment]
    by_cases odd : value.trim.Escapes
    · simp [odd, after.mpr odd]
    · have left : r''.escaping = false := Bool.eq_false_iff.mpr (after.not.mpr odd)
      simp [odd, left]

/-- Two backslashes before a comma and a no-break space behind it: the comma ends the value. From
there a value of three backslashes leaves the reader escaping, and is refused. -/
theorem escaping_iff_odd_backslashes_doubled :
    ∃ items r r' r'', Reader.start.Goes (Line.scan (encode (chars "[s]\n"))) items r ∧
      r.pushAll? 2 (chars "k = v\\\\") = some r' ∧ r'.escaping = false ∧
      endsInComma (chars "k = v\\\\,\u00a0") ∧ r'.push 2 ',' = .ok (r'.separated 2) ∧
      r'.pushAll? 2 (chars "\\\\\\") = some r'' ∧ r''.escaping = true ∧
      Setting.checkValue true (chars " \\\\\\\t") =
        .error (.badValue '\\' (chars " \\\\\\\t")) := by
  have run : Reader.start.Goes (Line.scan (encode (chars "[s]\n"))) _ _ := .line rfl .done
  have pushed : (Reader.mk true none false false [] [] 1).pushAll? 2 (chars "k = v\\\\") =
    some _ := rfl
  obtain ⟨_, flag, comma, value⟩ := escaping_iff_odd_backslashes run
    ⟨2, encode (chars "k = v\\\\,\u00a0\n")⟩ pushed
  have even : (chars "k = v\\\\").finalBackslashes % 2 ≠ 1 := by decide
  have bare := Bool.eq_false_iff.mpr (flag.not.mpr even)
  obtain ⟨search, _⟩ := comma (chars "\u00a0") (chars "k") (by decide) (by decide) rfl
  have plain : ∀ c ∈ chars " \\\\\\\t", c ∉ reserved := by simp [chars, reserved]
  obtain ⟨r'', consumed, _, refused⟩ := value true _ plain (by decide) bare
  exact ⟨_, _, _, r'', run, pushed, bare, rfl, search.mp rfl, consumed, refused.mp rfl, rfl⟩

end Keyfile
