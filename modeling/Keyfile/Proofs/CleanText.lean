import Keyfile.Proofs.Grammar

namespace Keyfile

theorem isBlank_of_isGap {c : Char} (h : isGap c) : isBlank c := by
  rcases (by simpa [isGap] using h : c = ' ' ∨ c = '\t') with rfl | rfl <;> decide

namespace Text

/-- The text has none of the characters that end a key or value at a place where they do. -/
structure Clean (t : Text) : Prop where
  bracket : ¬ t.HasBare '['
  equals : ¬ t.HasBare '='
  comma : ¬ t.HasBare ','

def EndsPiece (c : Char) : Prop := c = '[' ∨ c = '=' ∨ c = ','

theorem EndsPiece.not_blank {c : Char} (h : EndsPiece c) : isBlank c = false := by
  rcases h with rfl | rfl | rfl <;> decide

theorem Clean.not_hasBare {t : Text} (h : Clean t) {c : Char} (ends : EndsPiece c) :
    ¬ t.HasBare c := by
  rcases ends with rfl | rfl | rfl
  exacts [h.bracket, h.equals, h.comma]

theorem clean_iff {t : Text} : Clean t ↔ ∀ c, EndsPiece c → ¬ t.HasBare c :=
  ⟨fun h _ => h.not_hasBare,
    fun h => ⟨h _ (Or.inl rfl), h _ (Or.inr (Or.inl rfl)), h _ (Or.inr (Or.inr rfl))⟩⟩

theorem clean_nil : Clean [] := ⟨by simp, by simp, by simp⟩

theorem clean_concat {t : Text} {c : Char} :
    Clean (t ++ [c]) ↔ Clean t ∧ (EndsPiece c → t.Escapes) := by
  constructor
  · intro h
    refine ⟨clean_iff.mpr fun d ends bare => h.not_hasBare ends (bare.append_right _), ?_⟩
    intro ends
    exact Decidable.byContradiction fun even =>
      h.not_hasBare ends (hasBare_append_cons_self even [])
  · rintro ⟨clean, escapes⟩
    refine clean_iff.mpr ?_
    rintro d ends ⟨p, q, split, even⟩
    cases q using List.reverseRecOn with
    | nil =>
      obtain ⟨rfl, same⟩ := List.append_inj' split rfl
      obtain rfl : c = d := by simpa using same
      exact even (escapes ends)
    | append_singleton q e =>
      have shorter : t ++ [c] = (p ++ d :: q) ++ [e] := by simpa using split
      obtain ⟨rfl, _⟩ := List.append_inj' shorter rfl
      exact clean.not_hasBare ends ⟨p, q, rfl, even⟩

/-- A text is clean, or it has a first place where a character ends a key or value. -/
theorem clean_or_split (t : Text) :
    Clean t ∨ ∃ (p : Text) (c : Char) (q : Text),
      t = p ++ c :: q ∧ Clean p ∧ ¬ p.Escapes ∧ EndsPiece c := by
  -- Whether a character is escaped depends on what stands before it, so the text grows at its end.
  induction t using List.reverseRecOn with
  | nil => exact Or.inl clean_nil
  | append_singleton t d ih =>
    rcases ih with clean | ⟨p, c, q, rfl, clean, even, ends⟩
    · by_cases h : EndsPiece d ∧ ¬ Escapes t
      · exact Or.inr ⟨t, d, [], rfl, clean, h.2, h.1⟩
      · refine Or.inl (clean_concat.mpr ⟨clean, fun ends => ?_⟩)
        exact Decidable.byContradiction fun even => h ⟨ends, even⟩
    · exact Or.inr ⟨p, c, q ++ [d], by simp, clean, even, ends⟩

/-- Texts are clean, or have a clean start, a character that ends it, and such a text again. -/
theorem inductionOnPieces {motive : Text → Prop} (t : Text) (last : ∀ p, Clean p → motive p)
    (next : ∀ (p : Text) (c : Char) (q : Text), Clean p → ¬ p.Escapes → EndsPiece c → motive q →
      motive (p ++ c :: q)) :
    motive t := by
  induction h : t.length using Nat.strongRecOn generalizing t with
  | ind n ih =>
    rcases clean_or_split t with clean | ⟨p, c, q, rfl, clean, even, ends⟩
    · exact last t clean
    · refine next p c q clean even ends (ih q.length ?_ q rfl)
      simp only [List.length_append, List.length_cons] at h
      omega

theorem dropWhile_gap_append {p : Text} (h : p.all isGap) (q : Text) :
    (p ++ q).dropWhile isGap = q.dropWhile isGap := by
  rw [List.dropWhile_append_of_pos]
  simpa using h

theorem dropWhile_gap_concat {p : Text} {c : Char} (h : ¬ (p ++ [c]).all isGap) :
    (p ++ [c]).dropWhile isGap = p.dropWhile isGap ++ [c] := by
  rw [List.dropWhile_append]
  by_cases all : p.all isGap
  · have c_not : ¬ isGap c := by simpa [all] using h
    simp_all
  · have : p.dropWhile isGap ≠ [] := by simpa using all
    simp [this]

theorem all_gap_of_dropWhile_eq_nil {p : Text} : p.dropWhile isGap = [] ↔ p.all isGap := by
  simp

theorem trim_dropWhile_gap (t : Text) : trim (t.dropWhile isGap) = trim t := by
  conv => rhs; rw [← List.takeWhile_append_dropWhile (p := isGap) (l := t)]
  rw [trim_append_of_blank]
  intro c hc
  exact isBlank_of_isGap (List.mem_takeWhile_imp hc)

theorem Escapes.not_all_gap {p : Text} (h : p.Escapes) : ¬ p.all isGap := by
  intro all
  refine not_escapes_of_not_mem (fun backslash => ?_) h
  have := List.all_eq_true.mp all _ backslash
  simp [isGap] at this

theorem cuts_iff_of_not_hasBare {t last : Text} {pieces : List Text} (h : ¬ t.HasBare ',') :
    t.Cuts pieces last ↔ pieces = [] ∧ last = t := by
  constructor
  · rintro (_ | ⟨_, even, _⟩)
    · exact ⟨rfl, rfl⟩
    · exact absurd (hasBare_append_cons_self even _) h
  · rintro ⟨rfl, rfl⟩
    exact .none h

theorem cuts_append_iff {p q last : Text} {pieces : List Text} (h : ¬ p.HasBare ',')
    (even : ¬ p.Escapes) :
    (p ++ ',' :: q).Cuts pieces last ↔ ∃ rest, pieces = p :: rest ∧ q.Cuts rest last := by
  constructor
  · intro cuts
    generalize whole : p ++ ',' :: q = t at cuts
    cases cuts with
    | none h' => exact absurd (whole ▸ hasBare_append_cons_self even q) h'
    | next h' even' cuts =>
      obtain ⟨rfl, rfl⟩ := append_cons_inj_of_not_hasBare whole h even h' even'
      exact ⟨_, rfl, cuts⟩
  · rintro ⟨rest, rfl, cuts⟩
    exact .next h even cuts

theorem StartsBracket.exists_split {t : Text} (h : t.StartsBracket) :
    ∃ p q, t = p ++ '[' :: q ∧ p.all isGap := by
  obtain ⟨q, rest⟩ := List.head?_eq_some_iff.mp h
  refine ⟨t.takeWhile isGap, q, ?_, ?_⟩
  · rw [← rest, List.takeWhile_append_dropWhile]
  · exact List.all_takeWhile

theorem Blank.clean {t : Text} (h : t.Blank) : t.Clean :=
  clean_iff.mpr fun c ends bare => absurd (h c bare.mem) (Bool.eq_false_iff.mp ends.not_blank)

theorem Blank.not_escapes {t : Text} (h : t.Blank) : ¬ t.Escapes :=
  not_escapes_of_not_mem fun mem => absurd (h _ mem) (by decide)

theorem blank_of_all_gap {t : Text} (h : t.all isGap) : t.Blank :=
  fun _ mem => isBlank_of_isGap (List.all_eq_true.mp h _ mem)

theorem clean_of_all_gap {p : Text} (h : p.all isGap) : p.Clean := (blank_of_all_gap h).clean

theorem not_escapes_of_all_gap {p : Text} (h : p.all isGap) : ¬ p.Escapes :=
  fun escapes => escapes.not_all_gap h

theorem StartsBracket.hasBare {t : Text} (h : t.StartsBracket) : t.HasBare '[' := by
  obtain ⟨p, q, rfl, all⟩ := h.exists_split
  exact hasBare_append_cons_self (not_escapes_of_all_gap all) q

/-- The first place where a character ends a key or value is one only. -/
theorem Clean.split_unique {p q a b : Text} {c d : Char} (clean : Clean p)
    (h : p ++ c :: q = a ++ d :: b) (evenp : ¬ p.Escapes) (endsc : EndsPiece c) (cleana : Clean a)
    (evena : ¬ a.Escapes) (endsd : EndsPiece d) : p = a ∧ c = d ∧ q = b := by
  rcases append_cons_cases h with same | ⟨x, rfl, _⟩ | ⟨x, rfl, _⟩
  · exact same
  · exact absurd (hasBare_append_cons_self evenp x) (cleana.not_hasBare endsc)
  · exact absurd (hasBare_append_cons_self evena x) (clean.not_hasBare endsd)

theorem startsBracket_iff_of_clean {p : Text} {c : Char} {q : Text} (clean : Clean p)
    (even : ¬ p.Escapes) (ends : EndsPiece c) :
    StartsBracket (p ++ c :: q) ↔ p.all isGap ∧ c = '[' := by
  constructor
  · intro h
    obtain ⟨w, x, split, all⟩ := h.exists_split
    obtain ⟨rfl, rfl, rfl⟩ := clean.split_unique split even ends (clean_of_all_gap all)
      (not_escapes_of_all_gap all) (Or.inl rfl)
    exact ⟨all, rfl⟩
  · rintro ⟨all, rfl⟩
    rw [StartsBracket, dropWhile_gap_append all]
    rfl

theorem Assigns.hasBare {t left right : Text} (h : t.Assigns left right) : t.HasBare '=' :=
  h.split ▸ hasBare_append_cons_self h.even right

theorem Assigns.clean {t left right : Text} (h : t.Assigns left right) (bracket : ¬ t.HasBare '[') :
    left.Clean :=
  ⟨fun bare => bracket (h.split ▸ bare.append_right _), h.once, h.no_comma⟩

end Text

end Keyfile
