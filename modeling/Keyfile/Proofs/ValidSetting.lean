import Keyfile.Proofs.Grammar
import Keyfile.Proofs.NormalName
import Keyfile.Setting

namespace Keyfile

theorem Text.mem_of_mem_trim {t : Text} {c : Char} (h : c ∈ t.trim) : c ∈ t := by
  obtain ⟨w, v, _, _, split⟩ := t.exists_trim
  rw [split]
  simp [h]

theorem Text.Comment.of_trim {t : Text} (h : t.trim.Comment) : t.Comment := by
  obtain ⟨w, _, split⟩ := (trimStart t).exists_trimEnd
  have head : t.trim.head? = some '#' := by
    rwa [Comment, trimStart_eq_self fun _ => isBlank_head_trim] at h
  rw [Comment, split, List.head?_append, ← trim, head]
  rfl

theorem Text.Comment.of_normalName {t : Text} (h : (normalName t).head? = some '#') :
    t.Comment := by
  apply Text.Comment.of_trim
  rw [Text.Comment, Text.trimStart_eq_self fun _ => Text.isBlank_head_trim]
  exact (head?_lowerAfter (by decide)).mp h

theorem looksLikeComment_iff {t : Text} : looksLikeComment t ↔ t.Comment := decide_eq_true_iff

namespace Setting

structure ValidValue (v : Text) : Prop where
  trimmed : v.trim = v
  plain : ∀ c ∈ v, c ∉ reserved
  even : ¬ v.Escapes

/-- A setting as requests make it. -/
structure Valid (s : Setting) : Prop where
  normalName_sectionName : normalName s.sectionName = s.sectionName
  plain_sectionName : ∀ c ∈ s.sectionName, c ∉ sectionReserved
  normalName_key : normalName s.key = s.key
  checkKey_key : checkKey s.key = .ok ()
  values_ne_nil : s.values ≠ []
  validValue : ∀ v ∈ s.values, ValidValue v
  no_comment : ∀ v ∈ s.values.tail, ¬ v.Comment

theorem checkChars_eq_ok {cs : List Char} {name : Text} :
    checkChars cs name = .ok () ↔ ∀ c ∈ name, c ∉ cs := by
  unfold checkChars firstOf
  cases found : name.find? cs.contains with
  | none => simpa using found
  | some c =>
    have reserved := List.find?_some found
    have mem := List.mem_of_find?_eq_some found
    simp only [reduceCtorEq, false_iff, not_forall, not_not]
    exact ⟨c, mem, by simpa using reserved⟩

theorem checkKey_eq_ok {key : Text} :
    checkKey key = .ok () ↔ (∀ c ∈ key, c ∉ reserved) ∧ ¬ key.Comment := by
  rw [checkKey, ← looksLikeComment_iff]
  by_cases plain : ∀ c ∈ key, c ∉ reserved
  · rw [checkChars_eq_ok.mpr plain, and_iff_right plain]
    cases looksLikeComment key <;> simp
  · have refused := checkChars_eq_ok.not.mpr plain
    cases result : checkChars reserved key with
    | ok => exact absurd result refused
    | error e => simp [plain]

theorem isStructural_of_mem_reserved {c : Char} (h : c ∈ reserved) : isStructural c :=
  List.all_eq_true.mp (show reserved.all isStructural from by decide) c h

theorem isStructural_of_mem_sectionReserved {c : Char} (h : c ∈ sectionReserved) : isStructural c :=
  List.all_eq_true.mp (show sectionReserved.all isStructural from by decide) c h

theorem checkKey_normalName {key : Text} (h : checkKey key = .ok ()) :
    checkKey (normalName key) = .ok () := by
  obtain ⟨plain, no_comment⟩ := checkKey_eq_ok.mp h
  refine checkKey_eq_ok.mpr ⟨fun c hc reserved_c => ?_, fun comment => no_comment ?_⟩
  · exact plain c (mem_of_mem_normalName (isStructural_of_mem_reserved reserved_c) hc) reserved_c
  · apply Text.Comment.of_normalName
    rwa [Text.Comment, ← trim_normalName, Text.trimStart_eq_self fun _ => Text.isBlank_head_trim,
      trim_normalName] at comment

theorem checkValue_eq_ok {startsLine : Bool} {value v : Text}
    (h : checkValue startsLine value = .ok v) :
    v = value.trim ∧ ValidValue v ∧ (startsLine → ¬ v.Comment) := by
  unfold checkValue firstOf at h
  cases found : value.find? reserved.contains with
  | some c =>
    rw [found] at h
    cases h
  | none =>
    have plain : ∀ c ∈ value, c ∉ reserved := by simpa using found
    rw [found] at h
    simp only at h
    split at h
    · cases h
    next no_comment =>
      split at h
      · cases h
      next even =>
        obtain rfl := Except.ok.inj h
        refine ⟨rfl, ⟨value.trim_trim, fun c hc => plain c (Text.mem_of_mem_trim hc), even⟩, ?_⟩
        intro starts comment
        exact no_comment (by simpa [starts] using looksLikeComment_iff.mpr comment.of_trim)

theorem checkValues_eq_ok {startsLine : Bool} {values vs : List Text}
    (h : checkValues startsLine values = .ok vs) :
    vs = values.map Text.trim ∧ (∀ v ∈ vs, ValidValue v) ∧
      (∀ v ∈ vs.tail, ¬ v.Comment) ∧ (startsLine → ∀ v ∈ vs, ¬ v.Comment) := by
  induction values generalizing startsLine vs with
  | nil =>
    obtain rfl := Except.ok.inj h
    simp
  | cons value values ih =>
    unfold checkValues at h
    cases first : checkValue startsLine value with
    | error e => simp [first] at h
    | ok v =>
      cases others : checkValues true values with
      | error e => simp [first, others, Except.map] at h
      | ok rest =>
        obtain ⟨rfl, valid, no_comment⟩ := checkValue_eq_ok first
        obtain ⟨rfl, valid_rest, _, no_comments⟩ := ih others
        obtain rfl : value.trim :: values.map Text.trim = vs := by
          simpa [first, others, Except.map] using h
        refine ⟨rfl, ?_, no_comments rfl, ?_⟩
        · intro v hv
          rcases List.mem_cons.mp hv with rfl | hv
          · exact valid
          · exact valid_rest v hv
        · intro starts v hv
          rcases List.mem_cons.mp hv with rfl | hv
          · exact no_comment starts
          · exact no_comments rfl v hv

/-- The values of a request as they are kept: trimmed, and one empty value for none. -/
def kept (values : List Text) : List Text :=
  if values.isEmpty then [[]] else values.map Text.trim

theorem validValue_nil : ValidValue [] := ⟨rfl, by simp, by simp⟩

/-- A request that is not refused is a setting in normal form. -/
theorem ofRequest_eq_ok {sectionName key : Text} {values : List Text} {s : Setting}
    (h : ofRequest sectionName key values = .ok s) :
    s = ⟨normalName sectionName, normalName key, kept values⟩ ∧ s.Valid := by
  unfold ofRequest at h
  cases names : checkChars sectionReserved sectionName with
  | error e => simp [names, bind, Except.bind] at h
  | ok _ =>
    cases keys : checkKey key with
    | error e => simp [names, keys, bind, Except.bind] at h
    | ok _ =>
      cases checked : checkValues false values with
      | error e => simp [names, keys, checked, bind, Except.bind] at h
      | ok vs =>
        simp only [names, keys, checked, bind, Except.bind] at h
        obtain rfl := Except.ok.inj h
        obtain ⟨rfl, valid, no_comment, _⟩ := checkValues_eq_ok checked
        have plain : ∀ c ∈ normalName sectionName, c ∉ sectionReserved := by
          intro c hc reserved_c
          exact checkChars_eq_ok.mp names c
            (mem_of_mem_normalName (isStructural_of_mem_sectionReserved reserved_c) hc) reserved_c
        cases values with
        | nil =>
          exact ⟨rfl, normalName_normalName _, plain, normalName_normalName _,
            checkKey_normalName keys, by simp, by simp [validValue_nil], by simp⟩
        | cons value values =>
          exact ⟨rfl, normalName_normalName _, plain, normalName_normalName _,
            checkKey_normalName keys, by simp, valid, no_comment⟩

theorem checkValue_of_valid {startsLine : Bool} {v : Text} (valid : ValidValue v)
    (no_comment : startsLine → ¬ v.Comment) : checkValue startsLine v = .ok v := by
  have none_reserved : firstOf reserved v = none := by simpa [firstOf] using valid.plain
  have no_sign : (startsLine && looksLikeComment v) = false := by
    rw [Bool.eq_false_iff, ne_eq, Bool.and_eq_true, looksLikeComment_iff, not_and]
    exact no_comment
  rw [checkValue, none_reserved, valid.trimmed]
  simp only [no_sign, Bool.false_eq_true, if_false]
  exact if_neg valid.even

theorem checkValues_of_valid {startsLine : Bool} {vs : List Text}
    (valid : ∀ v ∈ vs, ValidValue v) (no_comment : ∀ v ∈ vs.tail, ¬ v.Comment)
    (no_comments : startsLine → ∀ v ∈ vs, ¬ v.Comment) : checkValues startsLine vs = .ok vs := by
  induction vs generalizing startsLine with
  | nil => rfl
  | cons v vs ih =>
    have first := checkValue_of_valid (valid v (by simp)) fun starts => no_comments starts v (by simp)
    have others : checkValues true vs = .ok vs :=
      ih (fun w hw => valid w (List.mem_cons_of_mem _ hw))
        (fun w hw => no_comment w (List.mem_of_mem_tail hw)) fun _ => no_comment
    rw [checkValues, first, others]
    rfl

/-- A setting in normal form is what its own parts request. -/
theorem Valid.ofRequest_eq {s : Setting} (valid : s.Valid) :
    ofRequest s.sectionName s.key s.values = .ok s := by
  have names := checkChars_eq_ok.mpr valid.plain_sectionName
  have checked : checkValues false s.values = .ok s.values :=
    checkValues_of_valid valid.validValue valid.no_comment (by simp)
  have filled : s.values.isEmpty = false := by simpa using valid.values_ne_nil
  unfold ofRequest
  rw [names, valid.checkKey_key, checked]
  simp only [bind, Except.bind, filled, valid.normalName_sectionName, valid.normalName_key]
  rfl

end Setting

end Keyfile
