import Keyfile.Proofs.Layout
import Keyfile.Proofs.ValidSetting
import Keyfile.Slot

namespace Keyfile

namespace Text

/-- A bare comma comes last but for blanks, and not all of these are gaps. -/
def Loose (t : Text) : Prop :=
  ∃ p w : Text, t = p ++ ',' :: w ∧ ¬ p.Escapes ∧ w.Blank ∧ ¬ w.all isGap

/-- The text assigns a key that has an equals sign, and what stands before that sign could be a
key itself. -/
def Misnamed (t : Text) : Prop :=
  ∃ left right key : Text, t.Assigns left right ∧ '=' ∈ left ∧ leftName? t = some key ∧
    Setting.checkKey key = .ok ()

/-- A reader and a search can differ on the line: a search passes over every blank behind a comma,
and takes for the key what stands before the first equals sign, even if that sign is escaped. -/
def Trap (t : Text) : Prop := ¬ t.Comment ∧ (t.Loose ∨ t.Misnamed)

def TrapIn (t : Text) (content : Bytes) : Prop := t.Trap ∧ ∃ line ∈ Line.scan content, line.text = t

theorem Loose.exists_blank {t : Text} (h : t.Loose) : ∃ c ∈ t, isBlank c ∧ ¬ isGap c := by
  obtain ⟨p, w, rfl, _, blank, other⟩ := h
  simp only [List.all_eq_true, not_forall] at other
  obtain ⟨c, hc, not_gap⟩ := other
  exact ⟨c, by simp [hc], blank c hc, not_gap⟩

theorem Misnamed.backslash_mem {t : Text} (h : t.Misnamed) : '\\' ∈ t := by
  obtain ⟨left, right, _, assigns, equals, _⟩ := h
  obtain ⟨p, q, rfl⟩ := List.append_of_mem equals
  by_cases escapes : Escapes p
  · have : '\\' ∈ p := Decidable.byContradiction fun no => not_escapes_of_not_mem no escapes
    rw [assigns.split]
    simp [this]
  · exact absurd (hasBare_append_cons_self escapes q) assigns.once

/-- Without backslashes and without other blanks than gaps no line is a trap. -/
theorem not_trap_of_plain {t : Text} (backslash : '\\' ∉ t)
    (blanks : ∀ c ∈ t, isBlank c → isGap c) : ¬ t.Trap := by
  rintro ⟨_, loose | misnamed⟩
  · obtain ⟨c, hc, blank, not_gap⟩ := loose.exists_blank
    exact not_gap (blanks c hc blank)
  · exact backslash misnamed.backslash_mem

theorem not_trap_of_all {t : Text} (h : t.all fun c => c ≠ '\\' && (!isBlank c || isGap c)) :
    ¬ t.Trap := by
  rw [List.all_eq_true] at h
  refine not_trap_of_plain (fun backslash => by simpa using h _ backslash) fun c hc blank => ?_
  have gap := (Bool.and_eq_true_iff.mp (h c hc)).2
  rwa [blank] at gap

end Text

theorem endsInComma_iff {t : Text} :
    endsInComma t ↔ ∃ p w : Text, t = p ++ ',' :: w ∧ ¬ p.Escapes ∧ w.Blank := by
  constructor
  · intro h
    obtain ⟨w, blank, split⟩ := t.exists_trimEnd
    unfold endsInComma at h
    split at h
    next before reversed =>
      have trimmed : t.trimEnd = before.reverse ++ [','] := by
        rw [← List.reverse_reverse t.trimEnd, reversed, List.reverse_cons]
      refine ⟨before.reverse, w, ?_, ?_, blank⟩
      · rw [split, trimmed, List.append_assoc]
        rfl
      · rw [Text.Escapes, beq_iff_eq.mp h]
        decide
    next => cases h
  · rintro ⟨p, w, rfl, even, blank⟩
    have trimmed : Text.trimEnd (p ++ ',' :: w) = p ++ [','] := by
      rw [show p ++ ',' :: w = (p ++ [',']) ++ w by simp, Text.trimEnd_append_of_blank blank,
        Text.trimEnd_of_last (by decide)]
    rw [endsInComma, trimmed]
    simp only [List.reverse_append, List.reverse_singleton, List.singleton_append,
      List.reverse_reverse, beq_iff_eq]
    rw [Text.Escapes] at even
    omega

namespace Text

theorem Cuts.last_clean {t last : Text} {pieces : List Text} (h : t.Cuts pieces last) :
    ¬ last.HasBare ',' := by
  induction h with
  | none h => exact h
  | next _ _ _ ih => exact ih

theorem Cuts.exists_split {t last : Text} {pieces : List Text} (h : t.Cuts pieces last)
    (some_piece : pieces ≠ []) : ∃ p, t = p ++ ',' :: last ∧ ¬ p.Escapes := by
  induction h with
  | none => exact absurd rfl some_piece
  | @next t rest last pieces _ even cuts ih =>
    by_cases more : pieces = []
    · subst more
      cases cuts
      exact ⟨t, rfl, even⟩
    · obtain ⟨p, rfl, even'⟩ := ih more
      exact ⟨t ++ ',' :: p, by simp, by rwa [escapes_append_cons (by decide)]⟩

theorem Cuts.last_eq {t last p w : Text} {pieces : List Text} (h : t.Cuts pieces last)
    (split : t = p ++ ',' :: w) (even : ¬ p.Escapes) (clean : ¬ w.HasBare ',') :
    pieces ≠ [] ∧ last = w := by
  have some_piece : pieces ≠ [] := by
    rintro rfl
    cases h with
    | none no_comma => exact no_comma (split ▸ hasBare_append_cons_self even w)
  refine ⟨some_piece, ?_⟩
  obtain ⟨p', split', even'⟩ := h.exists_split some_piece
  rw [split] at split'
  rcases append_cons_cases split' with ⟨_, _, same⟩ | ⟨x, rfl, rfl⟩ | ⟨x, rfl, rfl⟩
  · exact same.symm
  · rw [escapes_append_cons (by decide)] at even'
    exact absurd (hasBare_append_cons_self even' last) clean
  · rw [escapes_append_cons (by decide)] at even
    exact absurd (hasBare_append_cons_self even w) h.last_clean

/-- A text without a loose end ends in a comma exactly if its values go on. -/
theorem Cuts.endsInComma_iff {t last : Text} {pieces : List Text} (h : t.Cuts pieces last)
    (tight : ¬ t.Loose) : endsInComma t ↔ pieces ≠ [] ∧ last.all isGap := by
  rw [Keyfile.endsInComma_iff]
  constructor
  · rintro ⟨p, w, split, even, blank⟩
    obtain ⟨some_piece, rfl⟩ := h.last_eq split even blank.clean.comma
    exact ⟨some_piece,
      Decidable.byContradiction fun other => tight ⟨p, last, split, even, blank, other⟩⟩
  · rintro ⟨some_piece, gaps⟩
    obtain ⟨p, split, even⟩ := h.exists_split some_piece
    exact ⟨p, last, split, even, fun c hc => isBlank_of_isGap (List.all_eq_true.mp gaps c hc)⟩

theorem exists_split_of_equals {left right p w : Text} (split : left ++ '=' :: right = p ++ ',' :: w)
    (blank : w.Blank) : ∃ x, p = left ++ '=' :: x ∧ right = x ++ ',' :: w := by
  rcases append_cons_cases split with ⟨_, wrong, _⟩ | first | ⟨x, _, rfl⟩
  · exact absurd wrong (by decide)
  · exact first
  · exact absurd (blank '=' (by simp)) (by decide)

theorem endsInComma_append_equals {left right : Text} :
    endsInComma (left ++ '=' :: right) ↔ endsInComma right := by
  rw [Keyfile.endsInComma_iff, Keyfile.endsInComma_iff]
  constructor
  · rintro ⟨p, w, split, even, blank⟩
    obtain ⟨x, rfl, rfl⟩ := exists_split_of_equals split blank
    exact ⟨x, w, rfl, by rwa [escapes_append_cons (by decide)] at even, blank⟩
  · rintro ⟨p, w, rfl, even, blank⟩
    exact ⟨left ++ '=' :: p, w, by simp, by rwa [escapes_append_cons (by decide)], blank⟩

theorem loose_append_equals {left right : Text} : Loose (left ++ '=' :: right) ↔ right.Loose := by
  constructor
  · rintro ⟨p, w, split, even, blank, other⟩
    obtain ⟨x, rfl, rfl⟩ := exists_split_of_equals split blank
    exact ⟨x, w, rfl, by rwa [escapes_append_cons (by decide)] at even, blank, other⟩
  · rintro ⟨p, w, rfl, even, blank, other⟩
    exact ⟨left ++ '=' :: p, w, by simp, by rwa [escapes_append_cons (by decide)], blank, other⟩

theorem Blank.not_endsInComma {t : Text} (h : t.Blank) : endsInComma t = false := by
  rw [Bool.eq_false_iff]
  intro ends
  obtain ⟨p, w, rfl, _⟩ := Keyfile.endsInComma_iff.mp ends
  exact absurd (h ',' (by simp)) (by decide)

end Text

theorem Pending.isSome_after {p : Pending} {pieces : List Text} {last : Text}
    {open? : Option Pending} {item? : Option Item} (h : p.after pieces last = (open?, item?)) :
    open?.isSome ↔ pieces ≠ [] ∧ last.all isGap := by
  unfold Pending.after at h
  split at h
  next goes_on =>
    obtain ⟨rfl, rfl⟩ := Prod.mk.inj h
    simp [goes_on]
  next ends =>
    obtain ⟨rfl, rfl⟩ := Prod.mk.inj h
    simpa using ends

/-- At a loose end the values are at an end. -/
theorem Pending.after_of_loose {t last : Text} {pieces : List Text} (cuts : t.Cuts pieces last)
    (loose : t.Loose) (p : Pending) :
    p.after pieces last =
      (none, some (.entry p.key (p.values ++ pieces.map Text.trim ++ [last.trim]))) := by
  obtain ⟨_, _, split, even, blank, other⟩ := loose
  obtain ⟨_, rfl⟩ := cuts.last_eq split even blank.clean.comma
  rw [Pending.after, if_neg fun goes_on => other goes_on.2]

theorem Text.Loose.not_blank {t : Text} (h : t.Loose) : ¬ t.Blank := by
  obtain ⟨p, w, rfl, _⟩ := h
  exact fun blank => absurd (blank ',' (by simp)) (by decide)

theorem Text.not_trap_of_quiet {t : Text} (h : t.Blank ∨ t.Comment) : ¬ t.Trap := by
  rintro ⟨no_comment, loose | ⟨left, right, _, assigns, _⟩⟩
  · exact loose.not_blank (h.resolve_right no_comment)
  · have equals := h.resolve_right no_comment '=' (by simp [assigns.split])
    exact absurd equals (by decide)

theorem Text.not_loose_of_not_trap {t : Text} (plain : ¬ t.Trap) (no_comment : ¬ t.Comment) :
    ¬ t.Loose :=
  fun loose => plain ⟨no_comment, Or.inl loose⟩

/-- Without a loose end a search finds that values go on exactly if the reader does. -/
theorem Reads.endsInComma_iff {inSection : Bool} {before? after? : Option Pending} {t : Text}
    {item? : Option Item} (h : Reads inSection before? t after? item?) (full : t ≠ [])
    (no_comment : ¬ t.Comment) (no_heading : ¬ t.StartsBracket) (tight : ¬ t.Loose) :
    endsInComma t ↔ after?.isSome := by
  cases h with
  | skip skipped => exact absurd skipped (by simp [full, no_comment])
  | blank blank => simp [blank.not_endsInComma]
  | lastBlank _ blank => simp [blank.not_endsInComma]
  | heading starts => exact absurd starts no_heading
  | entry _ _ _ _ _ _ assigns cuts after =>
    rw [Pending.isSome_after after, assigns.split, Text.endsInComma_append_equals]
    rw [assigns.split, Text.loose_append_equals] at tight
    exact cuts.endsInComma_iff tight
  | values _ _ _ _ _ cuts after =>
    rw [Pending.isSome_after after]
    exact cuts.endsInComma_iff tight

theorem eq_of_leftName?_eq_some {t key : Text} (found : leftName? t = some key) :
    key = normalName (t.takeWhile (· ≠ '=')) := by
  unfold leftName? at found
  split at found
  · exact (Option.some.inj found).symm
  · cases found

theorem Text.takeWhile_ne_append {c : Char} {p : Text} (absent : c ∉ p) (q : Text) :
    (p ++ q).takeWhile (· ≠ c) = p ++ q.takeWhile (· ≠ c) := by
  refine List.takeWhile_append_of_pos fun d hd => ?_
  have other : d ≠ c := by
    rintro rfl
    exact absent hd
  simpa using other

theorem Text.Assigns.leftName?_eq {t left right : Text} (h : t.Assigns left right)
    (no_equals : '=' ∉ left) : leftName? t = some (normalName left) := by
  rw [h.split, leftName?, Text.takeWhile_ne_append no_equals]
  simp

/-- A key with an equals sign is not one that a request can name. -/
theorem Setting.normalName_ne_of_equals {left key : Text} (equals : '=' ∈ left)
    (valid : checkKey key = .ok ()) : normalName left ≠ key := by
  rintro rfl
  have kept := (mem_normalName (by decide) (by decide)).mpr equals
  exact absurd (by decide) ((checkKey_eq_ok.mp valid).1 '=' kept)

/-- On a line that is no trap a search sees the key that is assigned. -/
theorem Text.Assigns.leftName?_eq_some_iff {t left right key : Text} (h : t.Assigns left right)
    (no_comment : ¬ t.Comment) (plain : ¬ t.Trap) (valid : Setting.checkKey key = .ok ()) :
    leftName? t = some key ↔ normalName left = key := by
  by_cases equals : '=' ∈ left
  · constructor
    · intro found
      exact absurd ⟨no_comment, Or.inr ⟨left, right, key, h, equals, found, valid⟩⟩ plain
    · intro same
      exact absurd same (Setting.normalName_ne_of_equals equals valid)
  · simp [h.leftName?_eq equals]

theorem Text.Names.exists_split {t name : Text} (h : t.Names name) :
    ∃ w inner v, t = w ++ '[' :: (inner ++ ']' :: v) ∧ Text.Blank w ∧ Text.Blank v := by
  obtain ⟨inner, trimmed, _⟩ := h
  obtain ⟨w, v, first, last, split⟩ := t.exists_trim
  refine ⟨w, inner, v, ?_, first, last⟩
  rw [trimmed] at split
  simpa using split

theorem Text.Names.not_trap {t name : Text} (h : t.Names name) : ¬ t.Trap := by
  obtain ⟨w, inner, v, split, first, last⟩ := h.exists_split
  rintro ⟨_, ⟨p, u, comma, _, blank, _⟩ | ⟨_, _, key, assigns, equals, found, valid⟩⟩
  · rw [split, show w ++ '[' :: (inner ++ ']' :: v) = (w ++ '[' :: inner) ++ ']' :: v by simp] at comma
    rcases append_cons_cases comma with ⟨_, wrong, _⟩ | ⟨x, _, rfl⟩ | ⟨x, _, rfl⟩
    · exact absurd wrong (by decide)
    · exact absurd (last ',' (by simp)) (by decide)
    · exact absurd (blank ']' (by simp)) (by decide)
  · have no_equals : '=' ∉ w := fun equals => absurd (first _ equals) (by decide)
    have bracket : '[' ∈ t.takeWhile (· ≠ '=') := by
      rw [split, Text.takeWhile_ne_append no_equals]
      simp
    obtain rfl := eq_of_leftName?_eq_some found
    have kept := (mem_normalName (by decide) (by decide)).mpr bracket
    exact (Setting.checkKey_eq_ok.mp valid).1 '[' kept (by decide)

end Keyfile
