import Keyfile.Proofs.Layout
import Keyfile.Text.Utf8.Inverse

namespace Keyfile

namespace Line

def contentOf (lines : List Line) : Bytes := (lines.map raw).flatten

/-- The bytes end in a newline and have no other one. -/
def IsClosed (raw : Bytes) : Prop := ∃ b, raw = b ++ [newline] ∧ newline ∉ b

inductive Lined : List Bytes → Prop
  | nil : Lined []
  | last {raw : Bytes} : raw ≠ [] → newline ∉ raw → Lined [raw]
  | cons {raw : Bytes} {rest : List Bytes} : IsClosed raw → Lined rest → Lined (raw :: rest)

theorem pieces_append_newline {b : Bytes} (h : newline ∉ b) (rest : Bytes) :
    pieces (b ++ newline :: rest) = (b ++ [newline]) :: pieces rest := by
  induction b with
  | nil => simp [pieces]
  | cons c b ih =>
    simp only [List.mem_cons, not_or] at h
    rw [List.cons_append, pieces, if_neg (Ne.symm h.1), ih h.2]
    rfl

theorem pieces_of_no_newline {b : Bytes} (h : newline ∉ b) (filled : b ≠ []) :
    pieces b = [b] := by
  induction b with
  | nil => exact absurd rfl filled
  | cons c b ih =>
    simp only [List.mem_cons, not_or] at h
    rw [pieces, if_neg (Ne.symm h.1)]
    cases b with
    | nil => rfl
    | cons d b => rw [ih h.2 (by simp)]

theorem pieces_flatten {raws : List Bytes} (h : Lined raws) : pieces raws.flatten = raws := by
  induction h with
  | nil => rfl
  | last filled open_end => simpa using pieces_of_no_newline open_end filled
  | cons closed _ ih =>
    obtain ⟨b, rfl, inner⟩ := closed
    rw [List.flatten_cons, List.append_assoc, List.singleton_append, pieces_append_newline inner, ih]

theorem lined_pieces (content : Bytes) : Lined (pieces content) := by
  induction content with
  | nil => exact .nil
  | cons b bs ih =>
    rw [pieces]
    split
    next first => exact .cons ⟨[], by rw [first]; rfl, by simp⟩ ih
    next other =>
      have apart : newline ≠ b := Ne.symm other
      cases rest : pieces bs with
      | nil => exact .last (by simp) (by simpa using apart)
      | cons p ps =>
        rw [rest] at ih
        cases ih with
        | last _ open_end => exact .last (by simp) (by simp [apart, open_end])
        | cons closed lined =>
          obtain ⟨c, rfl, inner⟩ := closed
          exact .cons ⟨b :: c, rfl, by simp [apart, inner]⟩ lined

theorem Lined.append_right {xs ys : List Bytes} (h : Lined (xs ++ ys)) : Lined ys := by
  induction xs with
  | nil => exact h
  | cons raw xs ih =>
    rw [List.cons_append] at h
    generalize same : xs ++ ys = rest at h
    cases h with
    | last =>
      rw [List.append_eq_nil_iff] at same
      rw [same.2]
      exact .nil
    | cons _ lined => exact ih (same ▸ lined)

theorem Lined.append_left {xs ys : List Bytes} (h : Lined (xs ++ ys)) : Lined xs := by
  induction xs with
  | nil => exact .nil
  | cons raw xs ih =>
    rw [List.cons_append] at h
    generalize same : xs ++ ys = rest at h
    cases h with
    | last filled open_end =>
      rw [List.append_eq_nil_iff] at same
      rw [same.1]
      exact .last filled open_end
    | cons closed lined => exact .cons closed (ih (same ▸ lined))

theorem lined_append {xs ys : List Bytes} (closed : ∀ raw ∈ xs, IsClosed raw) (h : Lined ys) :
    Lined (xs ++ ys) := by
  induction xs with
  | nil => exact h
  | cons raw xs ih =>
    exact .cons (closed raw (by simp)) (ih fun r hr => closed r (List.mem_cons_of_mem _ hr))

theorem lined_of_closed {raws : List Bytes} (closed : ∀ raw ∈ raws, IsClosed raw) : Lined raws := by
  rw [← List.append_nil raws]
  exact lined_append closed .nil

/-- Only the last line may lack a newline. -/
theorem Lined.isClosed_of_append {xs : List Bytes} {y : Bytes} {ys : List Bytes}
    (h : Lined (xs ++ y :: ys)) : ∀ raw ∈ xs, IsClosed raw := by
  induction xs with
  | nil => simp
  | cons x xs ih =>
    rw [List.cons_append] at h
    generalize same : xs ++ y :: ys = rest at h
    cases h with
    | last => simp at same
    | cons closed lined =>
      intro raw mem
      rcases List.mem_cons.mp mem with rfl | mem
      · exact closed
      · exact ih (same ▸ lined) raw mem

def closeRaw (raw : Bytes) : Bytes :=
  if raw.getLast? = some newline then raw else raw ++ [newline]

theorem IsClosed.getLast? {raw : Bytes} (h : IsClosed raw) : raw.getLast? = some newline := by
  obtain ⟨b, rfl, _⟩ := h
  simp

theorem closeRaw_of_isClosed {raw : Bytes} (h : IsClosed raw) : closeRaw raw = raw :=
  if_pos h.getLast?

theorem closeRaw_of_no_newline {raw : Bytes} (h : newline ∉ raw) :
    closeRaw raw = raw ++ [newline] :=
  if_neg fun last => h (List.mem_of_getLast? last)

theorem Lined.isClosed_closeRaw {raws : List Bytes} (h : Lined raws) :
    ∀ raw ∈ raws.map closeRaw, IsClosed raw := by
  induction h with
  | nil => simp
  | @last raw _ open_end =>
    simp only [List.map_cons, List.map_nil, List.mem_singleton, forall_eq]
    exact ⟨raw, closeRaw_of_no_newline open_end, open_end⟩
  | cons closed _ ih =>
    intro r hr
    rcases List.mem_cons.mp hr with rfl | hr
    · rwa [closeRaw_of_isClosed closed]
    · exact ih r hr

end Line

/-- A newline at the end makes no difference to what a line says. -/
theorem textOf_closeRaw (raw : Bytes) : textOf (Line.closeRaw raw) = textOf raw := by
  unfold Line.closeRaw
  split
  · rfl
  next open_end => simp [textOf, Line.text, Line.body, dropFinal, open_end]

def lineOf (t : Text) : Bytes := encode t ++ [newline]

theorem encode_append (s t : Text) : encode (s ++ t) = encode s ++ encode t := List.flatMap_append

theorem encode_newline (t : Text) : encode (t ++ ['\n']) = lineOf t := by
  rw [encode_append]
  rfl

theorem toNat_eq_of_mem_utf8EncodeChar {c : Char} {b : UInt8} (h : b ∈ String.utf8EncodeChar c)
    (low : b.toNat < 128) : c.toNat = b.toNat := by
  have bound : c.toNat < 0x110000 := by
    rcases c.valid with low | ⟨_, high⟩
    · exact Nat.lt_trans low (by decide)
    · exact high
  have value : c.val.toNat = c.toNat := rfl
  simp only [String.utf8EncodeChar, value] at h
  split at h
  · obtain rfl := List.mem_singleton.mp h
    rw [UInt8.toNat_ofNat']
    omega
  · split at h
    · simp only [List.mem_cons, List.not_mem_nil, or_false] at h
      rcases h with rfl | rfl <;> (rw [UInt8.toNat_ofNat'] at low; omega)
    · split at h
      · simp only [List.mem_cons, List.not_mem_nil, or_false] at h
        rcases h with rfl | rfl | rfl <;> (rw [UInt8.toNat_ofNat'] at low; omega)
      · simp only [List.mem_cons, List.not_mem_nil, or_false] at h
        rcases h with rfl | rfl | rfl | rfl <;> (rw [UInt8.toNat_ofNat'] at low; omega)

theorem mem_of_mem_encode {t : Text} {b : UInt8} {c : Char} (h : b ∈ encode t)
    (same : c.toNat = b.toNat) (low : b.toNat < 128) : c ∈ t := by
  obtain ⟨d, hd, hb⟩ := List.mem_flatMap.mp h
  have : d = c := by
    rw [← Char.ofNat_toNat d, ← Char.ofNat_toNat c, toNat_eq_of_mem_utf8EncodeChar hb low, same]
  exact this ▸ hd

theorem isClosed_lineOf {t : Text} (h : '\n' ∉ t) : Line.IsClosed (lineOf t) :=
  ⟨encode t, rfl, fun mem => h (mem_of_mem_encode mem (by decide) (by decide))⟩

/-- What is written on a line is read from it, but for a carriage return at its end. -/
theorem textOf_lineOf_eq (t : Text) :
    textOf (lineOf t) = if t.getLast? = some '\r' then t.dropLast else t := by
  have body : textOf (lineOf t) = decode (dropFinal carriageReturn (encode t)) := by
    simp [textOf, Line.text, Line.body, lineOf, dropFinal]
  rw [body]
  cases last : t.getLast? with
  | none =>
    obtain rfl := List.getLast?_eq_none_iff.mp last
    rfl
  | some c =>
    obtain ⟨init, rfl⟩ := List.getLast?_eq_some_iff.mp last
    rw [encode_append, List.dropLast_concat]
    by_cases returns : c = '\r'
    · subst returns
      have encoded : encode ['\r'] = [carriageReturn] := rfl
      rw [encoded, dropFinal, List.getLast?_concat, if_pos rfl, if_pos rfl, List.dropLast_concat,
        decode_encode]
    · have other : (encode init ++ encode [c]).getLast? ≠ some carriageReturn := by
        intro returned
        have filled : encode [c] ≠ [] := by simp [encode, String.utf8EncodeChar_ne_nil]
        rw [List.getLast?_append, List.getLast?_eq_some_getLast filled, Option.some_or,
          ← List.getLast?_eq_some_getLast filled] at returned
        have mem : '\r' ∈ [c] :=
          mem_of_mem_encode (List.mem_of_getLast? returned) (by decide) (by decide)
        exact returns (List.mem_singleton.mp mem).symm
      rw [dropFinal, if_neg other, ← encode_append, decode_encode, if_neg (by simpa using returns)]

theorem textOf_lineOf {t : Text} (h : '\r' ∉ t) : textOf (lineOf t) = t := by
  rw [textOf_lineOf_eq, if_neg fun last => h (List.mem_of_getLast? last)]

end Keyfile
