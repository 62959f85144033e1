import Keyfile.Text.Utf8

namespace Keyfile

theorem Begun.ofLead?_eq (b : UInt8) (n : Nat) (h : b.toNat = n) :
    Begun.ofLead? b =
      if 0xC2 ≤ n ∧ n ≤ 0xDF then some ⟨n - 0xC0, 0x80, 0xBF, 0⟩
      else if n = 0xE0 then some ⟨0, 0xA0, 0xBF, 1⟩
      else if n = 0xED then some ⟨0xD, 0x80, 0x9F, 1⟩
      else if 0xE1 ≤ n ∧ n ≤ 0xEF then some ⟨n - 0xE0, 0x80, 0xBF, 1⟩
      else if n = 0xF0 then some ⟨0, 0x90, 0xBF, 2⟩
      else if 0xF1 ≤ n ∧ n ≤ 0xF3 then some ⟨n - 0xF0, 0x80, 0xBF, 2⟩
      else if n = 0xF4 then some ⟨4, 0x80, 0x8F, 2⟩
      else none := by
  subst h
  simp only [Begun.ofLead?, UInt8.le_iff_toNat_le, ← UInt8.toNat_inj]
  rfl

theorem startChar_of_lt {n : Nat} (h : n < 0x80) :
    startChar (UInt8.ofNat n) = ([Char.ofNat n], none) := by
  have low : UInt8.ofNat n < 0x80 := by
    rw [UInt8.lt_iff_toNat_lt, UInt8.toNat_ofNat']
    simp; omega
  have same : (UInt8.ofNat n).toNat = n := by rw [UInt8.toNat_ofNat']; omega
  rw [startChar, if_pos low, same]

theorem startChar_of_lead {n : Nat} {begun : Begun} (h : 0x80 ≤ n) (h' : n < 0x100)
    (lead : Begun.ofLead? (UInt8.ofNat n) = some begun) :
    startChar (UInt8.ofNat n) = ([], some begun) := by
  have low : ¬ UInt8.ofNat n < 0x80 := by
    rw [UInt8.lt_iff_toNat_lt, UInt8.toNat_ofNat']
    simp; omega
  rw [startChar, if_neg low, lead]

theorem Begun.next_of_last {begun : Begun} {b : UInt8} {n : Nat} (same : b.toNat = n + 0x80)
    (low : begun.low.toNat ≤ n + 0x80) (high : n + 0x80 ≤ begun.high.toNat)
    (last : begun.later = 0) :
    begun.next b = ([Char.ofNat (begun.value * 64 + n)], none) := by
  simp [Begun.next, UInt8.le_iff_toNat_le, same, low, high, last]

theorem Begun.next_of_more {begun : Begun} {b : UInt8} {n later : Nat}
    (same : b.toNat = n + 0x80) (low : begun.low.toNat ≤ n + 0x80)
    (high : n + 0x80 ≤ begun.high.toNat) (more : begun.later = later + 1) :
    begun.next b = ([], some ⟨begun.value * 64 + n, 0x80, 0xBF, later⟩) := by
  simp [Begun.next, UInt8.le_iff_toNat_le, same, low, high, more]

theorem toNat_continuation {n : Nat} (h : n < 64) : (UInt8.ofNat (n + 0x80)).toNat = n + 0x80 := by
  rw [UInt8.toNat_ofNat']
  omega

theorem Begun.ofLead?_two {k : Nat} (h : 2 ≤ k) (h' : k < 32) :
    Begun.ofLead? (UInt8.ofNat (k + 192)) = some ⟨k, 0x80, 0xBF, 0⟩ := by
  rw [Begun.ofLead?_eq _ (k + 192) (by rw [UInt8.toNat_ofNat']; omega), if_pos (by omega)]
  simp

theorem Begun.ofLead?_three {k : Nat} (h : k < 16) :
    Begun.ofLead? (UInt8.ofNat (k + 224)) =
      some ⟨k, if k = 0 then 0xA0 else 0x80, if k = 13 then 0x9F else 0xBF, 1⟩ := by
  rw [Begun.ofLead?_eq _ (k + 224) (by rw [UInt8.toNat_ofNat']; omega)]
  by_cases low : k = 0
  · simp [low]
  by_cases high : k = 13
  · simp [high]
  rw [if_neg (by omega), if_neg (by omega), if_neg (by omega), if_pos (by omega)]
  simp [low, high]

theorem Begun.ofLead?_four {k : Nat} (h : k < 5) :
    Begun.ofLead? (UInt8.ofNat (k + 240)) =
      some ⟨k, if k = 0 then 0x90 else 0x80, if k = 4 then 0x8F else 0xBF, 2⟩ := by
  rw [Begun.ofLead?_eq _ (k + 240) (by rw [UInt8.toNat_ofNat']; omega)]
  match k, h with
  | 0, _ | 1, _ | 2, _ | 3, _ | 4, _ => rfl

theorem decodeAfter_cons (open? : Option Begun) (b : UInt8) (bs : Bytes) :
    decodeAfter open? (b :: bs) = (decodeByte open? b).1 ++ decodeAfter (decodeByte open? b).2 bs :=
  rfl

theorem decodeAfter_lead {n : Nat} {begun : Begun} {bs : Bytes} (h : 0x80 ≤ n) (h' : n < 0x100)
    (lead : Begun.ofLead? (UInt8.ofNat n) = some begun) :
    decodeAfter none (UInt8.ofNat n :: bs) = decodeAfter (some begun) bs := by
  rw [decodeAfter_cons, decodeByte, startChar_of_lead h h' lead]
  rfl

theorem decodeAfter_last {begun : Begun} {n : Nat} {bs : Bytes} (h : n < 64)
    (low : begun.low.toNat ≤ n + 0x80) (high : n + 0x80 ≤ begun.high.toNat)
    (last : begun.later = 0) :
    decodeAfter (some begun) (UInt8.ofNat (n + 0x80) :: bs) =
      Char.ofNat (begun.value * 64 + n) :: decodeAfter none bs := by
  rw [decodeAfter_cons, decodeByte, Begun.next_of_last (toNat_continuation h) low high last]
  rfl

theorem decodeAfter_more {begun : Begun} {n later : Nat} {bs : Bytes} (h : n < 64)
    (low : begun.low.toNat ≤ n + 0x80) (high : n + 0x80 ≤ begun.high.toNat)
    (more : begun.later = later + 1) :
    decodeAfter (some begun) (UInt8.ofNat (n + 0x80) :: bs) =
      decodeAfter (some ⟨begun.value * 64 + n, 0x80, 0xBF, later⟩) bs := by
  rw [decodeAfter_cons, decodeByte, Begun.next_of_more (toNat_continuation h) low high more]
  rfl

theorem decodeAfter_two {v : Nat} {rest : Bytes} (h : 0x80 ≤ v) (h' : v < 0x800) :
    decodeAfter none (UInt8.ofNat (v / 64 + 192) :: UInt8.ofNat (v % 64 + 128) :: rest) =
      Char.ofNat v :: decodeAfter none rest := by
  rw [decodeAfter_lead (by omega) (by omega) (Begun.ofLead?_two (by omega) (by omega)),
    decodeAfter_last (by omega) (by simp) (by simp; omega) rfl]
  simp only [Nat.div_add_mod']

theorem decodeAfter_three {v : Nat} {rest : Bytes} (h : 0x800 ≤ v) (h' : v < 0x10000)
    (valid : v < 0xD800 ∨ 0xDFFF < v) :
    decodeAfter none (UInt8.ofNat (v / 4096 + 224) :: UInt8.ofNat (v / 64 % 64 + 128) ::
      UInt8.ofNat (v % 64 + 128) :: rest) = Char.ofNat v :: decodeAfter none rest := by
  have low : (if v / 4096 = 0 then 0xA0 else 0x80 : UInt8).toNat ≤ v / 64 % 64 + 0x80 := by
    split
    · simp; omega
    · simp
  have high : v / 64 % 64 + 0x80 ≤ (if v / 4096 = 13 then 0x9F else 0xBF : UInt8).toNat := by
    split <;> (simp; omega)
  rw [decodeAfter_lead (by omega) (by omega) (Begun.ofLead?_three (by omega)),
    decodeAfter_more (by omega) low high rfl,
    decodeAfter_last (by omega) (by simp) (by simp; omega) rfl]
  congr 2
  dsimp only
  omega

theorem decodeAfter_four {v : Nat} {rest : Bytes} (h : 0x10000 ≤ v) (h' : v < 0x110000) :
    decodeAfter none (UInt8.ofNat (v / 262144 + 240) :: UInt8.ofNat (v / 4096 % 64 + 128) ::
      UInt8.ofNat (v / 64 % 64 + 128) :: UInt8.ofNat (v % 64 + 128) :: rest) =
      Char.ofNat v :: decodeAfter none rest := by
  have low : (if v / 262144 = 0 then 0x90 else 0x80 : UInt8).toNat ≤ v / 4096 % 64 + 0x80 := by
    split
    · simp; omega
    · simp
  have high : v / 4096 % 64 + 0x80 ≤ (if v / 262144 = 4 then 0x8F else 0xBF : UInt8).toNat := by
    split <;> (simp; omega)
  rw [decodeAfter_lead (by omega) (by omega) (Begun.ofLead?_four (by omega)),
    decodeAfter_more (by omega) low high rfl,
    decodeAfter_more (by omega) (by simp) (by simp; omega) rfl,
    decodeAfter_last (by omega) (by simp) (by simp; omega) rfl]
  congr 2
  dsimp only
  omega

/-- The bytes of a character decode to it, whatever follows them. -/
theorem decodeAfter_encodeChar (c : Char) (rest : Bytes) :
    decodeAfter none (String.utf8EncodeChar c ++ rest) = c :: decodeAfter none rest := by
  have same : Char.ofNat c.toNat = c := Char.ofNat_toNat c
  have valid : c.toNat < 0xD800 ∨ 0xDFFF < c.toNat ∧ c.toNat < 0x110000 := c.valid
  have toNat : c.val.toNat = c.toNat := rfl
  simp only [String.utf8EncodeChar, toNat]
  split
  · rw [List.singleton_append, decodeAfter_cons, decodeByte, startChar_of_lt (by omega), same]
    rfl
  · split
    · rw [Nat.mod_eq_of_lt (a := c.toNat / 64) (by omega)]
      exact (decodeAfter_two (by omega) (by omega)).trans (by rw [same]; rfl)
    · split
      · rw [Nat.mod_eq_of_lt (a := c.toNat / 4096) (by omega)]
        exact (decodeAfter_three (by omega) (by omega) (by omega)).trans (by rw [same]; rfl)
      · rw [Nat.mod_eq_of_lt (a := c.toNat / 262144) (by omega)]
        exact (decodeAfter_four (by omega) (by omega)).trans (by rw [same]; rfl)

theorem decode_encode (t : Text) : decode (encode t) = t := by
  induction t with
  | nil => rfl
  | cons c cs ih =>
    rw [encode, List.flatMap_cons, decode, decodeAfter_encodeChar]
    exact congrArg (c :: ·) ih

theorem encode_injective : Function.Injective encode :=
  Function.LeftInverse.injective decode_encode

theorem isUtf8_iff (bs : Bytes) : isUtf8 bs ↔ ∃ t, bs = encode t := by
  rw [isUtf8, decide_eq_true_iff]
  constructor
  · exact fun h => ⟨decode bs, h.symm⟩
  · rintro ⟨t, rfl⟩
    rw [decode_encode]

end Keyfile
