import Keyfile.Proofs.CleanText
import Keyfile.Proofs.NormalName

namespace Keyfile

namespace Text

theorem escapes_append_of_blank {w : Text} (h : Blank w) (t : Text) :
    Escapes (w ++ t) ↔ t.Escapes := by
  cases w using List.reverseRecOn with
  | nil => rfl
  | append_singleton w c =>
    have filled : c ≠ '\\' := by
      rintro rfl
      exact absurd (h '\\' (by simp)) (by decide)
    rw [List.append_assoc, List.singleton_append, escapes_append_cons filled]

theorem HasBare.append_left {c : Char} {w t : Text} (blank : Blank w) (h : HasBare c t) :
    HasBare c (w ++ t) := by
  obtain ⟨p, q, rfl, even⟩ := h
  exact ⟨w ++ p, q, by simp, by rwa [escapes_append_of_blank blank]⟩

theorem HasBare.of_trim {c : Char} {t : Text} (h : HasBare c t.trim) : HasBare c t := by
  obtain ⟨w, v, first, _, split⟩ := t.exists_trim
  rw [split]
  exact (h.append_right v).append_left first

theorem Clean.trim {t : Text} (h : t.Clean) : t.trim.Clean :=
  clean_iff.mpr fun _ ends bare => h.not_hasBare ends bare.of_trim

theorem EndsPiece.isStructural {c : Char} (h : EndsPiece c) : isStructural c := by
  rcases h with rfl | rfl | rfl <;> decide

/-- A character escapes what follows it exactly if its lower-case form does. -/
theorem escapes_append_lowerAt {u u' : Text} (same : u.Escapes ↔ u'.Escapes)
    (before : Text) (c : Char) (after : Text) :
    Escapes (u ++ lowerAt before c after) ↔ Escapes (u' ++ [c]) := by
  by_cases backslash : c = '\\'
  · subst backslash
    rw [lowerAt_of_isStructural (by decide), escapes_concat, escapes_concat, same]
  · obtain ⟨init, d, split⟩ : ∃ init d, lowerAt before c after = init ++ [d] :=
      ⟨_, _, (List.dropLast_concat_getLast lowerAt_ne_nil).symm⟩
    have last : d ∈ lowerAt before c after := by simp [split]
    have other : d ≠ '\\' := by
      rintro rfl
      exact backslash (eq_of_mem_lowerAt last (by decide)).symm
    rw [split, ← List.append_assoc, escapes_concat, escapes_concat]
    simp only [backslash, other, false_and]

/-- A structural character of a text in lower case stands in the text too, and it is escaped there
if it is escaped in lower case. -/
theorem exists_split_of_lowerAfter {t before u u' p q : Text} {c : Char}
    (structural : isStructural c) (same : u.Escapes ↔ u'.Escapes)
    (split : lowerAfter before t = p ++ c :: q) :
    ∃ p' q', t = p' ++ c :: q' ∧ (Escapes (u ++ p) ↔ Escapes (u' ++ p')) := by
  induction t generalizing before u u' p with
  | nil => simp [lowerAfter] at split
  | cons d t ih =>
    rw [lowerAfter_cons] at split
    have next {x : Text} (rest : lowerAfter (d :: before) t = x ++ c :: q)
        (here : p = lowerAt before d t ++ x) :
        ∃ p' q', d :: t = p' ++ c :: q' ∧ (Escapes (u ++ p) ↔ Escapes (u' ++ p')) := by
      obtain ⟨p', q', rfl, alike⟩ := ih (escapes_append_lowerAt same before d t) rest
      refine ⟨d :: p', q', rfl, ?_⟩
      rw [here, ← List.append_assoc, alike, List.append_assoc, List.singleton_append]
    rcases List.append_eq_append_iff.mp split with ⟨x, here, rest⟩ | ⟨x, here, rest⟩
    · exact next rest here
    · cases x with
      | nil => exact next (x := []) rest.symm (by rw [here, List.append_nil, List.append_nil])
      | cons e x =>
        obtain ⟨rfl, rfl⟩ := List.cons_eq_cons.mp rest
        have mem : c ∈ lowerAt before d t := by simp [here]
        obtain rfl : c = d := eq_of_mem_lowerAt mem structural
        rw [lowerAt_of_isStructural structural] at here
        obtain rfl : p = [] := by
          cases p with
          | nil => rfl
          | cons f p => simp at here
        exact ⟨[], t, rfl, by simpa using same⟩

theorem HasBare.of_lowercase {c : Char} {t : Text} (structural : isStructural c)
    (h : HasBare c t.lowercase) : HasBare c t := by
  obtain ⟨p, q, split, even⟩ := h
  obtain ⟨p', q', rfl, alike⟩ := exists_split_of_lowerAfter structural
    (Iff.refl (Escapes [])) split
  exact ⟨p', q', rfl, fun escapes => even (alike.mpr escapes)⟩

theorem Clean.normalName {t : Text} (h : t.Clean) : (normalName t).Clean :=
  clean_iff.mpr fun _ ends bare => h.trim.not_hasBare ends (bare.of_lowercase ends.isStructural)

end Text

end Keyfile
