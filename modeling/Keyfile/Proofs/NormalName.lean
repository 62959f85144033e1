import Keyfile.Proofs.Blanks
import Keyfile.Text.Lowercase

namespace Keyfile

def structuralRanges : List (Nat × Nat) :=
  [(9, 13), (0x20, 0x20), (0x23, 0x23), (0x2C, 0x2C), (0x3D, 0x3D), (0x5B, 0x5D), (0x85, 0x85),
   (0xA0, 0xA0), (0x1680, 0x1680), (0x2000, 0x200A), (0x2028, 0x2029), (0x202F, 0x202F),
   (0x205F, 0x205F), (0x3000, 0x3000)]

/-- A blank or a character with a meaning of its own in a line. -/
def isStructural (c : Char) : Bool := inRanges structuralRanges c.toNat

namespace CaseRun

def lastImage (r : CaseRun) : Nat := r.image + (r.last - r.first)

def hasCharImages (r : CaseRun) : Bool :=
  Nat.blt r.lastImage 0xD800 || (Nat.blt 0xDFFF r.image && Nat.blt r.lastImage 0x110000)

/-- Neither the run nor its images meet a closed range. -/
def avoids (r : CaseRun) (range : Nat × Nat) : Bool :=
  (Nat.blt r.last range.1 || Nat.blt range.2 r.first) &&
    (Nat.blt r.lastImage range.1 || Nat.blt range.2 r.image)

def imagesAvoid (r q : CaseRun) : Bool :=
  Nat.blt r.lastImage q.first || Nat.blt q.last r.image ||
    (Nat.beq r.first r.last && !q.covers r.image) ||
    (Nat.beq (r.step % q.step) 0 && !Nat.beq (r.image % q.step) (q.first % q.step))

end CaseRun

theorem caseRuns_hasCharImages : caseRuns.all CaseRun.hasCharImages = true := by decide +kernel

theorem caseRuns_avoid : caseRuns.all (fun r => structuralRanges.all r.avoids) = true := by
  decide +kernel

theorem caseRuns_avoid_dotted : caseRuns.all (·.avoids (0x130, 0x130)) = true := by decide +kernel

theorem caseRuns_imagesAvoid : caseRuns.all (fun r => caseRuns.all r.imagesAvoid) = true := by
  decide +kernel

namespace CaseRun

variable {r q : CaseRun} {n : Nat}

theorem covers_iff : r.covers n ↔ r.first ≤ n ∧ n ≤ r.last ∧ (n - r.first) % r.step = 0 := by
  simp [covers, and_assoc]

theorem image_le_lastImage (h : r.covers n) : r.image + (n - r.first) ≤ r.lastImage := by
  obtain ⟨_, upper, _⟩ := covers_iff.mp h
  rw [lastImage]
  omega

theorem not_covers_image (apart : r.imagesAvoid q) (h : r.covers n) :
    ¬ q.covers (r.image + (n - r.first)) := by
  have bound := image_le_lastImage h
  intro again
  obtain ⟨lower, upper, steps⟩ := covers_iff.mp h
  obtain ⟨lower', upper', steps'⟩ := covers_iff.mp again
  simp only [imagesAvoid, Bool.or_eq_true, Bool.and_eq_true, Nat.blt_eq, Nat.beq_eq,
    Bool.not_eq_true'] at apart
  rcases apart with ((below | above) | ⟨single, uncovered⟩) | ⟨multiple, residue⟩
  · omega
  · omega
  · rw [show n - r.first = 0 by omega, Nat.add_zero, uncovered] at again
    cases again
  · have differ : r.image % q.step ≠ q.first % q.step := by
      intro same
      rw [same, Nat.beq_refl] at residue
      cases residue
    have divides : (n - r.first) % q.step = 0 :=
      Nat.mod_eq_zero_of_dvd (Nat.dvd_trans (Nat.dvd_of_mod_eq_zero multiple)
        (Nat.dvd_of_mod_eq_zero steps))
    apply differ
    calc r.image % q.step = (r.image + (n - r.first)) % q.step := by
          rw [Nat.add_mod, divides, Nat.add_zero, Nat.mod_mod]
      _ = (q.first + (r.image + (n - r.first) - q.first)) % q.step := by
          rw [Nat.add_sub_cancel' lower']
      _ = q.first % q.step := by rw [Nat.add_mod, steps', Nat.add_zero, Nat.mod_mod]

end CaseRun

/-- A code point keeps its place, or a run of the case data moves it. -/
theorem lowerCodePoint_cases (n : Nat) :
    (lowerCodePoint n = n ∧ ∀ r ∈ caseRuns, ¬ r.covers n) ∨
      ∃ r ∈ caseRuns, r.covers n ∧ lowerCodePoint n = r.image + (n - r.first) := by
  cases found : caseRuns.find? (·.covers n) with
  | none =>
    refine Or.inl ⟨by rw [lowerCodePoint, found], ?_⟩
    simpa using found
  | some r =>
    refine Or.inr ⟨r, List.mem_of_find?_eq_some found, ?_, by rw [lowerCodePoint, found]⟩
    simpa using List.find?_some found

theorem lowerCodePoint_lowerCodePoint (n : Nat) :
    lowerCodePoint (lowerCodePoint n) = lowerCodePoint n := by
  rcases lowerCodePoint_cases n with ⟨same, _⟩ | ⟨r, hr, covers, image⟩
  · rw [same, same]
  · rw [image]
    rcases lowerCodePoint_cases (r.image + (n - r.first)) with ⟨same, _⟩ | ⟨q, hq, covers', _⟩
    · exact same
    · have apart := List.all_eq_true.mp (List.all_eq_true.mp caseRuns_imagesAvoid r hr) q hq
      exact absurd covers' (CaseRun.not_covers_image apart covers)

theorem isValidChar_lowerCodePoint {n : Nat} (h : n.isValidChar) :
    (lowerCodePoint n).isValidChar := by
  rcases lowerCodePoint_cases n with ⟨same, _⟩ | ⟨r, hr, covers, image⟩
  · rwa [same]
  · have bound := CaseRun.image_le_lastImage covers
    have valid := List.all_eq_true.mp caseRuns_hasCharImages r hr
    simp only [CaseRun.hasCharImages, Bool.or_eq_true, Bool.and_eq_true, Nat.blt_eq] at valid
    rw [image, Nat.isValidChar]
    omega

/-- Lower-casing moves no structural character, and nothing to one. -/
theorem lowerCodePoint_structural {n : Nat}
    (h : inRanges structuralRanges n ∨ inRanges structuralRanges (lowerCodePoint n)) :
    lowerCodePoint n = n := by
  rcases lowerCodePoint_cases n with ⟨same, _⟩ | ⟨r, hr, covers, image⟩
  · exact same
  · have bound := CaseRun.image_le_lastImage covers
    obtain ⟨lower, upper, _⟩ := CaseRun.covers_iff.mp covers
    have avoid := List.all_eq_true.mp (List.all_eq_true.mp caseRuns_avoid r hr)
    simp only [CaseRun.avoids, Bool.and_eq_true, Bool.or_eq_true, Nat.blt_eq] at avoid
    rw [image] at h ⊢
    simp only [inRanges, List.any_eq_true, Bool.and_eq_true, decide_eq_true_eq] at h
    rcases h with ⟨range, hrange, _, _⟩ | ⟨range, hrange, _, _⟩
    · have := avoid range hrange
      omega
    · have := avoid range hrange
      omega

theorem toNat_ofNat_lowerCodePoint (c : Char) :
    (Char.ofNat (lowerCodePoint c.toNat)).toNat = lowerCodePoint c.toNat := by
  have valid : (lowerCodePoint c.toNat).isValidChar := isValidChar_lowerCodePoint c.valid
  rw [Char.ofNat, dif_pos valid]
  rfl

theorem lowerCodePoint_ne_dotted {c : Char} (h : c ≠ 'İ') : lowerCodePoint c.toNat ≠ 0x130 := by
  rcases lowerCodePoint_cases c.toNat with ⟨same, _⟩ | ⟨r, hr, covers, image⟩
  · rw [same]
    exact fun dotted => h (Char.toNat_inj.mp dotted)
  · have bound := CaseRun.image_le_lastImage covers
    have avoid := List.all_eq_true.mp caseRuns_avoid_dotted r hr
    simp only [CaseRun.avoids, Bool.and_eq_true, Bool.or_eq_true, Nat.blt_eq] at avoid
    omega

/-- The character is its own lower-case form, whatever stands around it. -/
def IsLowered (c : Char) : Prop := c ≠ 'Σ' ∧ lowerChar c = [c]

theorem isLowered_of_mem_lowerChar {c d : Char} (h : d ∈ lowerChar c) : IsLowered d := by
  unfold lowerChar at h
  split at h
  next =>
    rcases (by simpa using h : d = 'i' ∨ d = '\u0307') with rfl | rfl <;>
      exact ⟨by decide, by decide +kernel⟩
  next =>
    obtain rfl : d = Char.ofNat (lowerCodePoint c.toNat) := by simpa using h
    have toNat := toNat_ofNat_lowerCodePoint c
    constructor
    · intro sigma
      rw [sigma] at toNat
      have again := lowerCodePoint_lowerCodePoint c.toNat
      rw [← toNat] at again
      exact absurd again (by decide +kernel)
    · have dotted : Char.ofNat (lowerCodePoint c.toNat) ≠ 'İ' := by
        intro same
        rw [same] at toNat
        exact lowerCodePoint_ne_dotted ‹c ≠ 'İ'› toNat.symm
      rw [lowerChar, if_neg dotted, toNat, lowerCodePoint_lowerCodePoint]

theorem lowerChar_of_isStructural {c : Char} (h : isStructural c) : lowerChar c = [c] := by
  have dotted : c ≠ 'İ' := by rintro rfl; exact absurd h (by decide)
  rw [lowerChar, if_neg dotted, lowerCodePoint_structural (Or.inl h), Char.ofNat_toNat]

theorem eq_of_mem_lowerChar {c d : Char} (h : d ∈ lowerChar c) (structural : isStructural d) :
    d = c := by
  unfold lowerChar at h
  split at h
  next =>
    rcases (by simpa using h : d = 'i' ∨ d = '\u0307') with rfl | rfl <;>
      exact absurd structural (by decide)
  next =>
    obtain rfl : d = Char.ofNat (lowerCodePoint c.toNat) := by simpa using h
    rw [isStructural, toNat_ofNat_lowerCodePoint] at structural
    rw [lowerCodePoint_structural (Or.inr structural), Char.ofNat_toNat]

theorem lowerChar_ne_nil (c : Char) : lowerChar c ≠ [] := by
  unfold lowerChar
  split <;> simp

theorem isLowered_lowerSigma (before after : Text) : IsLowered (lowerSigma before after) := by
  unfold lowerSigma
  split <;> exact ⟨by decide, by decide +kernel⟩

theorem not_isStructural_lowerSigma (before after : Text) :
    isStructural (lowerSigma before after) = false := by
  unfold lowerSigma
  split <;> decide

def lowerAt (before : Text) (c : Char) (after : Text) : Text :=
  if c = 'Σ' then [lowerSigma before after] else lowerChar c

theorem lowerAfter_cons (before : Text) (c : Char) (after : Text) :
    lowerAfter before (c :: after) = lowerAt before c after ++ lowerAfter (c :: before) after :=
  rfl

section lowerAt

variable {before after : Text} {c d : Char}

theorem lowerAt_ne_nil : lowerAt before c after ≠ [] := by
  unfold lowerAt
  split
  · simp
  · exact lowerChar_ne_nil c

theorem isLowered_of_mem_lowerAt (h : d ∈ lowerAt before c after) : IsLowered d := by
  unfold lowerAt at h
  split at h
  · rw [List.mem_singleton.mp h]
    exact isLowered_lowerSigma before after
  · exact isLowered_of_mem_lowerChar h

theorem lowerAt_of_isLowered (h : IsLowered c) : lowerAt before c after = [c] := by
  rw [lowerAt, if_neg h.1, h.2]

theorem lowerAt_of_isStructural (h : isStructural c) : lowerAt before c after = [c] := by
  have sigma : c ≠ 'Σ' := by rintro rfl; exact absurd h (by decide)
  rw [lowerAt, if_neg sigma, lowerChar_of_isStructural h]

theorem eq_of_mem_lowerAt (h : d ∈ lowerAt before c after) (structural : isStructural d) :
    d = c := by
  unfold lowerAt at h
  split at h
  · rw [List.mem_singleton.mp h, not_isStructural_lowerSigma] at structural
    cases structural
  · exact eq_of_mem_lowerChar h structural

end lowerAt

theorem isLowered_of_mem_lowerAfter {before t : Text} {c : Char} (h : c ∈ lowerAfter before t) :
    IsLowered c := by
  induction t generalizing before with
  | nil => simp [lowerAfter] at h
  | cons d t ih =>
    rw [lowerAfter_cons] at h
    rcases List.mem_append.mp h with h | h
    · exact isLowered_of_mem_lowerAt h
    · exact ih h

theorem lowerAfter_of_isLowered {before t : Text} (h : ∀ c ∈ t, IsLowered c) :
    lowerAfter before t = t := by
  induction t generalizing before with
  | nil => rfl
  | cons c t ih =>
    rw [lowerAfter_cons, lowerAt_of_isLowered (h c (by simp)),
      ih fun d hd => h d (by simp [hd])]
    rfl

theorem mem_lowerAfter {before t : Text} {c : Char} (structural : isStructural c) :
    c ∈ lowerAfter before t ↔ c ∈ t := by
  induction t generalizing before with
  | nil => simp [lowerAfter]
  | cons d t ih =>
    rw [lowerAfter_cons, List.mem_append, List.mem_cons, ih]
    refine or_congr_left ⟨fun h => eq_of_mem_lowerAt h structural, ?_⟩
    rintro rfl
    simp [lowerAt_of_isStructural structural]

theorem lowerAfter_eq_nil {before t : Text} : lowerAfter before t = [] ↔ t = [] := by
  cases t with
  | nil => simp [lowerAfter]
  | cons c t => simp [lowerAfter_cons, lowerAt_ne_nil]

/-- A structural character stands first in a text exactly if it does in lower case. -/
theorem head?_lowerAfter {before t : Text} {c : Char} (structural : isStructural c) :
    (lowerAfter before t).head? = some c ↔ t.head? = some c := by
  cases t with
  | nil => simp [lowerAfter]
  | cons d t =>
    have filled : lowerAt before d t ≠ [] := lowerAt_ne_nil
    obtain ⟨e, rest, image⟩ := List.exists_cons_of_ne_nil filled
    have first : (lowerAfter before (d :: t)).head? = (lowerAt before d t).head? := by
      rw [lowerAfter_cons, image]
      rfl
    rw [first, List.head?_cons]
    constructor
    · intro h
      rw [eq_of_mem_lowerAt (List.mem_of_head? h) structural]
    · intro h
      obtain rfl := Option.some.inj h
      rw [lowerAt_of_isStructural structural]
      rfl

theorem getLast?_lowerAfter {before t : Text} {c : Char} (structural : isStructural c)
    (h : (lowerAfter before t).getLast? = some c) : t.getLast? = some c := by
  induction t generalizing before with
  | nil => simp [lowerAfter] at h
  | cons d t ih =>
    rw [lowerAfter_cons] at h
    cases t with
    | nil =>
      rw [lowerAfter, List.append_nil] at h
      rw [eq_of_mem_lowerAt (List.mem_of_getLast? h) structural]
      rfl
    | cons e t =>
      obtain ⟨last, more⟩ := Option.ne_none_iff_exists'.mp
        (mt List.getLast?_eq_none_iff.mp (mt lowerAfter_eq_nil.mp (List.cons_ne_nil e t)))
      rw [List.getLast?_append, more, Option.some_or, ← more] at h
      rw [List.getLast?_cons_cons]
      exact ih h

theorem isStructural_of_isBlank {c : Char} (h : isBlank c) : isStructural c := by
  simp only [isBlank, Bool.or_eq_true, Bool.and_eq_true, decide_eq_true_eq, beq_iff_eq] at h
  simp only [isStructural, structuralRanges, inRanges, List.any_cons, List.any_nil, Bool.or_eq_true,
    Bool.and_eq_true, decide_eq_true_eq, Bool.or_false]
  omega

namespace Text

theorem lowercase_lowercase (t : Text) : t.lowercase.lowercase = t.lowercase :=
  lowerAfter_of_isLowered fun _ => isLowered_of_mem_lowerAfter

theorem trim_lowercase_trim (t : Text) : t.trim.lowercase.trim = t.trim.lowercase := by
  apply trim_eq_self
  · intro c first
    rw [Bool.eq_false_iff]
    intro blank
    have := isBlank_head_trim ((head?_lowerAfter (isStructural_of_isBlank blank)).mp first)
    rw [blank] at this
    cases this
  · intro c last
    rw [Bool.eq_false_iff]
    intro blank
    have := isBlank_last_trim (getLast?_lowerAfter (isStructural_of_isBlank blank) last)
    rw [blank] at this
    cases this

end Text

theorem trim_normalName (name : Text) : (normalName name).trim = normalName name :=
  Text.trim_lowercase_trim name

theorem normalName_normalName (name : Text) : normalName (normalName name) = normalName name := by
  rw [normalName, trim_normalName, normalName, Text.lowercase_lowercase]

theorem normalName_append_blank {w : Text} (blank : w.Blank) (name : Text) :
    normalName (name ++ w) = normalName name := by
  rw [normalName, Text.trim_append_blank blank, normalName]

theorem mem_of_mem_normalName {name : Text} {c : Char} (structural : isStructural c)
    (h : c ∈ normalName name) : c ∈ name := by
  obtain ⟨w, v, _, _, split⟩ := name.exists_trim
  have inner : c ∈ name.trim := (mem_lowerAfter structural).mp h
  rw [split]
  simp [inner]

/-- A structural character that is not blank is not lost in the normal form. -/
theorem mem_normalName {name : Text} {c : Char} (structural : isStructural c)
    (filled : isBlank c = false) : c ∈ normalName name ↔ c ∈ name := by
  refine ⟨mem_of_mem_normalName structural, fun h => (mem_lowerAfter structural).mpr ?_⟩
  obtain ⟨w, v, first, last, split⟩ := name.exists_trim
  rw [split] at h
  simp only [List.mem_append] at h
  rcases h with h | h | h
  · rw [first c h] at filled
    cases filled
  · exact h
  · rw [last c h] at filled
    cases filled

end Keyfile
