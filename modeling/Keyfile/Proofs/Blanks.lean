import Mathlib.Data.List.TakeWhile
import Keyfile.Text.Basic

namespace Keyfile

namespace Text

def Blank (t : Text) : Prop := ∀ c ∈ t, isBlank c

instance (t : Text) : Decidable t.Blank := List.decidableBAll _ t

theorem blank_nil : Blank [] := by simp [Blank]

theorem blank_append {s t : Text} : Blank (s ++ t) ↔ Blank s ∧ Blank t := by
  simp [Blank, or_imp, forall_and]

theorem trimStart_append_of_blank {w : Text} (h : Blank w) (t : Text) :
    trimStart (w ++ t) = trimStart t := by
  induction w with
  | nil => rfl
  | cons c w ih =>
    have first : isBlank c := h c (by simp)
    simp only [trimStart, List.cons_append, List.dropWhile_cons, first, if_true]
    exact ih fun d hd => h d (by simp [hd])

theorem trimStart_of_head {c : Char} {t : Text} (h : isBlank c = false) :
    trimStart (c :: t) = c :: t := by
  simp [trimStart, h]

theorem trimEnd_eq (t : Text) : trimEnd t = (trimStart t.reverse).reverse := rfl

theorem trimEnd_append_of_blank {w : Text} (h : Blank w) (t : Text) :
    trimEnd (t ++ w) = trimEnd t := by
  rw [trimEnd_eq, trimEnd_eq, List.reverse_append, trimStart_append_of_blank]
  intro c hc
  exact h c (List.mem_reverse.mp hc)

theorem trimEnd_of_last {c : Char} {t : Text} (h : isBlank c = false) :
    trimEnd (t ++ [c]) = t ++ [c] := by
  rw [trimEnd_eq, List.reverse_append, List.reverse_singleton, List.singleton_append,
    trimStart_of_head h]
  simp

theorem exists_trimStart (t : Text) : ∃ w, Blank w ∧ t = w ++ trimStart t := by
  refine ⟨t.takeWhile isBlank, ?_, (List.takeWhile_append_dropWhile).symm⟩
  intro c hc
  exact List.mem_takeWhile_imp hc

theorem exists_trimEnd (t : Text) : ∃ w, Blank w ∧ t = trimEnd t ++ w := by
  obtain ⟨w, blank, h⟩ := exists_trimStart t.reverse
  refine ⟨w.reverse, fun c hc => blank c (List.mem_reverse.mp hc), ?_⟩
  rw [trimEnd_eq, ← List.reverse_append, ← h, List.reverse_reverse]

theorem trimStart_eq_nil {t : Text} : trimStart t = [] ↔ Blank t := by
  simp [trimStart, Blank, List.dropWhile_eq_nil_iff]

theorem trimEnd_eq_nil {t : Text} : trimEnd t = [] ↔ Blank t := by
  rw [trimEnd_eq, List.reverse_eq_nil_iff, trimStart_eq_nil]
  simp [Blank]

theorem isBlank_head_trimStart {t : Text} {c : Char} (h : (trimStart t).head? = some c) :
    isBlank c = false := by
  have := List.head?_dropWhile_not isBlank t
  rw [show t.dropWhile isBlank = trimStart t from rfl, h] at this
  simpa using this

theorem isBlank_last_trimEnd {t : Text} {c : Char} (h : (trimEnd t).getLast? = some c) :
    isBlank c = false := by
  rw [trimEnd_eq, List.getLast?_reverse] at h
  exact isBlank_head_trimStart h

theorem trimStart_eq_self {t : Text} (h : ∀ c, t.head? = some c → isBlank c = false) :
    trimStart t = t := by
  cases t with
  | nil => rfl
  | cons c t => exact trimStart_of_head (h c rfl)

theorem trimEnd_eq_self {t : Text} (h : ∀ c, t.getLast? = some c → isBlank c = false) :
    trimEnd t = t := by
  rw [trimEnd_eq, trimStart_eq_self, List.reverse_reverse]
  intro c hc
  exact h c (by simpa using hc)

theorem trim_eq_self {t : Text} (first : ∀ c, t.head? = some c → isBlank c = false)
    (last : ∀ c, t.getLast? = some c → isBlank c = false) : trim t = t := by
  rw [trim, trimStart_eq_self first, trimEnd_eq_self last]

theorem trim_eq_nil {t : Text} : trim t = [] ↔ Blank t := by
  rw [trim, trimEnd_eq_nil]
  obtain ⟨w, blank, h⟩ := exists_trimStart t
  constructor
  · intro rest
    rw [h, blank_append]
    exact ⟨blank, rest⟩
  · intro all
    rw [trimStart_eq_nil.mpr all]
    exact blank_nil

theorem trim_append_of_blank {w : Text} (h : Blank w) (t : Text) : trim (w ++ t) = trim t := by
  rw [trim, trimStart_append_of_blank h, trim]

theorem trimStart_append_of_not_blank {t : Text} (h : ¬ Blank t) (w : Text) :
    trimStart (t ++ w) = trimStart t ++ w := by
  obtain ⟨v, blank, split⟩ := exists_trimStart t
  cases rest : trimStart t with
  | nil => exact absurd (trimStart_eq_nil.mp rest) h
  | cons c u =>
    have first : isBlank c = false := isBlank_head_trimStart (by rw [rest]; rfl)
    rw [rest] at split
    rw [split, List.append_assoc, trimStart_append_of_blank blank, List.cons_append,
      trimStart_of_head first]

theorem trim_append_blank {w : Text} (h : Blank w) (t : Text) : trim (t ++ w) = trim t := by
  by_cases blank : Blank t
  · rw [trim_eq_nil.mpr blank, trim_eq_nil.mpr (blank_append.mpr ⟨blank, h⟩)]
  · rw [trim, trimStart_append_of_not_blank blank, trimEnd_append_of_blank h, trim]

/-- A text is what is left of it between two blank ones. -/
theorem exists_trim (t : Text) : ∃ w v, Blank w ∧ Blank v ∧ t = w ++ (trim t ++ v) := by
  obtain ⟨w, first, hw⟩ := exists_trimStart t
  obtain ⟨v, last, hv⟩ := exists_trimEnd (trimStart t)
  exact ⟨w, v, first, last, hw.trans (congrArg (w ++ ·) hv)⟩

theorem isBlank_head_trim {t : Text} {c : Char} (h : (trim t).head? = some c) :
    isBlank c = false := by
  obtain ⟨w, _, split⟩ := exists_trimEnd (trimStart t)
  apply isBlank_head_trimStart (t := t)
  change (trimEnd (trimStart t)).head? = some c at h
  rw [split, List.head?_append, h]
  rfl

theorem isBlank_last_trim {t : Text} {c : Char} (h : (trim t).getLast? = some c) :
    isBlank c = false :=
  isBlank_last_trimEnd h

theorem trim_trim (t : Text) : trim (trim t) = trim t :=
  trim_eq_self (fun _ => isBlank_head_trim) (fun _ => isBlank_last_trim)

end Text

end Keyfile
