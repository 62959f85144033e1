import Mathlib.Data.List.Induction
import Keyfile.Text.Basic

namespace Keyfile

namespace Text

/-- The text escapes what comes next: the run of backslashes at its end is odd. -/
def Escapes (t : Text) : Prop := t.finalBackslashes % 2 = 1

instance (t : Text) : Decidable t.Escapes := inferInstanceAs (Decidable (_ = _))

/-- The text has the character at a place where it is not escaped. -/
def HasBare (c : Char) (t : Text) : Prop := ∃ p q, t = p ++ c :: q ∧ ¬ p.Escapes

@[simp]
theorem finalBackslashes_nil : finalBackslashes [] = 0 := rfl

theorem finalBackslashes_concat (t : Text) (c : Char) :
    finalBackslashes (t ++ [c]) = if c = '\\' then t.finalBackslashes + 1 else 0 := by
  by_cases h : c = '\\' <;> simp [finalBackslashes, h]

theorem finalBackslashes_append_cons {c : Char} (h : c ≠ '\\') (p q : Text) :
    finalBackslashes (p ++ c :: q) = finalBackslashes q := by
  induction q using List.reverseRecOn with
  | nil => simp [finalBackslashes_concat, h]
  | append_singleton q d ih =>
    have same : p ++ c :: (q ++ [d]) = (p ++ c :: q) ++ [d] := by simp
    rw [same, finalBackslashes_concat, finalBackslashes_concat, ih]

@[simp]
theorem not_escapes_nil : ¬ Escapes [] := by simp [Escapes]

theorem escapes_concat (t : Text) (c : Char) :
    Escapes (t ++ [c]) ↔ c = '\\' ∧ ¬ t.Escapes := by
  rw [Escapes, Escapes, finalBackslashes_concat]
  by_cases h : c = '\\'
  · simp only [h, if_true, true_and]
    omega
  · simp [h]

theorem escapes_append_cons {c : Char} (h : c ≠ '\\') (p q : Text) :
    Escapes (p ++ c :: q) ↔ q.Escapes := by
  rw [Escapes, finalBackslashes_append_cons h, Escapes]

theorem not_escapes_of_not_mem {t : Text} (h : '\\' ∉ t) : ¬ t.Escapes := by
  cases t using List.reverseRecOn with
  | nil => simp
  | append_singleton t c =>
    rw [escapes_concat]
    rintro ⟨rfl, _⟩
    exact h (by simp)

@[simp]
theorem not_hasBare_nil (c : Char) : ¬ HasBare c [] := by
  rintro ⟨p, q, h, _⟩
  simp at h

theorem HasBare.mem {c : Char} {t : Text} (h : HasBare c t) : c ∈ t := by
  obtain ⟨p, q, rfl, _⟩ := h
  simp

theorem HasBare.append_right {c : Char} {p : Text} (h : HasBare c p) (q : Text) :
    HasBare c (p ++ q) := by
  obtain ⟨a, b, rfl, even⟩ := h
  exact ⟨a, b ++ q, by simp, even⟩

/-- Of two places of characters in one text, one comes first unless they are the same. -/
theorem append_cons_cases {p q a b : Text} {c d : Char} (h : p ++ c :: q = a ++ d :: b) :
    (p = a ∧ c = d ∧ q = b) ∨ (∃ x, a = p ++ c :: x ∧ q = x ++ d :: b) ∨
      ∃ x, p = a ++ d :: x ∧ b = x ++ c :: q := by
  rcases List.append_eq_append_iff.mp h with ⟨x, rfl, right⟩ | ⟨x, rfl, right⟩
  · cases x with
    | nil =>
      obtain ⟨rfl, rfl⟩ := List.cons_eq_cons.mp right
      exact Or.inl ⟨by simp, rfl, rfl⟩
    | cons e x =>
      obtain ⟨rfl, rfl⟩ := List.cons_eq_cons.mp right
      exact Or.inr (Or.inl ⟨x, rfl, rfl⟩)
  · cases x with
    | nil =>
      obtain ⟨rfl, rfl⟩ := List.cons_eq_cons.mp right
      exact Or.inl ⟨by simp, rfl, rfl⟩
    | cons e x =>
      obtain ⟨rfl, rfl⟩ := List.cons_eq_cons.mp right
      exact Or.inr (Or.inr ⟨x, rfl, rfl⟩)

/-- A bare character of two texts with another one between them is in one of the two. -/
theorem hasBare_append_cons {c d : Char} (backslash : d ≠ '\\') (other : c ≠ d) (p q : Text) :
    HasBare c (p ++ d :: q) ↔ HasBare c p ∨ HasBare c q := by
  constructor
  · rintro ⟨a, b, h, even⟩
    rcases append_cons_cases h with ⟨_, same, _⟩ | ⟨x, rfl, rfl⟩ | ⟨x, rfl, rfl⟩
    · exact absurd same.symm other
    · exact Or.inr ⟨x, b, rfl, by rwa [escapes_append_cons backslash] at even⟩
    · exact Or.inl ⟨a, x, rfl, even⟩
  · rintro (h | ⟨a, b, rfl, even⟩)
    · exact h.append_right _
    · exact ⟨p ++ d :: a, b, by simp, by rwa [escapes_append_cons backslash]⟩

theorem hasBare_append_cons_self {c : Char} {p : Text} (even : ¬ p.Escapes) (q : Text) :
    HasBare c (p ++ c :: q) :=
  ⟨p, q, rfl, even⟩

/-- The first bare place of a character is at one place only. -/
theorem append_cons_inj_of_not_hasBare {c : Char} {p q a b : Text} (h : p ++ c :: q = a ++ c :: b)
    (hp : ¬ HasBare c p) (evenp : ¬ p.Escapes) (ha : ¬ HasBare c a) (evena : ¬ a.Escapes) :
    p = a ∧ q = b := by
  rcases append_cons_cases h with ⟨rfl, _, rfl⟩ | ⟨x, rfl, _⟩ | ⟨x, rfl, _⟩
  · exact ⟨rfl, rfl⟩
  · exact absurd (hasBare_append_cons_self evenp x) ha
  · exact absurd (hasBare_append_cons_self evena x) hp

end Text

end Keyfile
