import Keyfile.Proofs.Layout
import Keyfile.Proofs.Pieces
import Keyfile.Text.Utf8.Inverse

namespace Keyfile

/-- Whatever bytes complete the character, its code point lies past ASCII. -/
structure Begun.Wide (begun : Begun) : Prop where
  low : 0x80 ≤ begun.low.toNat
  value : 2 ≤ begun.value * 64 + (begun.low.toNat - 0x80)
  last : begun.later = 0 → 0x80 ≤ begun.value * 64 + (begun.low.toNat - 0x80)

variable {b : UInt8} {c : Char}

theorem Begun.wide_of_ofLead? {begun : Begun} (lead : Begun.ofLead? b = some begun) :
    begun.Wide := by
  rw [Begun.ofLead?_eq b b.toNat rfl] at lead
  repeat' split at lead
  all_goals first
    | obtain rfl := Option.some.inj lead
      exact ⟨by simp, by simp <;> omega, by simp <;> omega⟩
    | cases lead

def IsAscii (c : Char) : Prop := 0 < c.toNat ∧ c.toNat < 0x80

/-- A number that is no code point gives the null character. -/
theorem toNat_of_isAscii {n : Nat} (ascii : IsAscii (Char.ofNat n)) : (Char.ofNat n).toNat = n := by
  by_cases valid : n.isValidChar
  · rw [Char.ofNat, dif_pos valid]
    rfl
  · have null : Char.ofNat n = '\x00' := by
      rw [Char.ofNat, dif_neg valid]
      rfl
    rw [null] at ascii
    exact absurd ascii.1 (by decide)

theorem startChar_ascii :
    (∀ c ∈ (startChar b).1, IsAscii c → c.toNat = b.toNat) ∧
      ∀ begun, (startChar b).2 = some begun → begun.Wide := by
  unfold startChar
  split
  · refine ⟨fun c hc ascii => ?_, by simp⟩
    rw [List.mem_singleton.mp hc] at ascii ⊢
    exact toNat_of_isAscii ascii
  · split
    next begun lead =>
      refine ⟨by simp, fun _ begins => ?_⟩
      obtain rfl := Option.some.inj begins
      exact Begun.wide_of_ofLead? lead
    next =>
      refine ⟨fun c hc ascii => ?_, by simp⟩
      rw [List.mem_singleton.mp hc] at ascii
      exact absurd ascii.2 (by decide)

theorem Begun.Wide.next {begun : Begun} (wide : begun.Wide) (b : UInt8) :
    (∀ c ∈ (begun.next b).1, IsAscii c → c.toNat = b.toNat) ∧
      ∀ begun', (begun.next b).2 = some begun' → begun'.Wide := by
  have low := wide.low
  have value := wide.value
  unfold Begun.next
  split
  next between =>
    have above : begun.low.toNat ≤ b.toNat := UInt8.le_iff_toNat_le.mp between.1
    cases later : begun.later with
    | zero =>
      refine ⟨fun c hc ascii => ?_, by simp⟩
      rw [List.mem_singleton.mp hc] at ascii
      have small := ascii.2
      rw [toNat_of_isAscii ascii] at small
      have past := wide.last later
      omega
    | succ n =>
      refine ⟨by simp, fun _ goes_on => ?_⟩
      obtain rfl := Option.some.inj goes_on
      exact ⟨by simp, by simp; omega, fun _ => by simp; omega⟩
  next =>
    refine ⟨fun c hc ascii => ?_, startChar_ascii.2⟩
    rcases List.mem_cons.mp hc with rfl | hc
    · exact absurd ascii.2 (by decide)
    · exact startChar_ascii.1 c hc ascii

theorem exists_mem_of_mem_decodeAfter {open? : Option Begun} {bs : Bytes}
    (wide : ∀ begun, open? = some begun → begun.Wide) (ascii : IsAscii c)
    (h : c ∈ decodeAfter open? bs) : ∃ b ∈ bs, c.toNat = b.toNat := by
  induction bs generalizing open? with
  | nil =>
    have same : c = replacement := by
      unfold decodeAfter at h
      split at h
      · exact List.mem_singleton.mp h
      · cases h
    rw [same] at ascii
    exact absurd ascii.2 (by decide)
  | cons b bs ih =>
    have step : (∀ c ∈ (decodeByte open? b).1, IsAscii c → c.toNat = b.toNat) ∧
        ∀ begun, (decodeByte open? b).2 = some begun → begun.Wide := by
      cases open? with
      | none => exact startChar_ascii
      | some begun => exact (wide begun rfl).next b
    rw [decodeAfter_cons] at h
    rcases List.mem_append.mp h with here | later
    · exact ⟨b, by simp, step.1 c here ascii⟩
    · obtain ⟨d, hd, same⟩ := ih step.2 later
      exact ⟨d, by simp [hd], same⟩

/-- A character of ASCII in a decoded text comes from the byte that it is. -/
theorem exists_mem_of_mem_decode {bs : Bytes} (ascii : IsAscii c) (h : c ∈ decode bs) :
    ∃ b ∈ bs, c.toNat = b.toNat :=
  exists_mem_of_mem_decodeAfter (by simp) ascii h

theorem mem_of_mem_dropFinal {b d : UInt8} {bs : Bytes} (h : d ∈ dropFinal b bs) : d ∈ bs := by
  unfold dropFinal at h
  split at h
  · exact List.dropLast_subset _ h
  · exact h

theorem newline_not_mem_textOf {raw : Bytes} (closed : Line.IsClosed raw) : '\n' ∉ textOf raw := by
  obtain ⟨inner, rfl, none⟩ := closed
  intro mem
  have body : (Line.mk 0 (inner ++ [newline])).body = dropFinal carriageReturn inner := by
    simp [Line.body, dropFinal]
  rw [textOf, Line.text, body] at mem
  obtain ⟨b, hb, same⟩ := exists_mem_of_mem_decode ⟨by decide, by decide⟩ mem
  obtain rfl : newline = b := UInt8.toNat_inj.mp same
  exact none (mem_of_mem_dropFinal hb)

theorem newline_not_mem_of_mem_pieces {content raw : Bytes} (h : raw ∈ Line.pieces content) :
    '\n' ∉ textOf raw := by
  rw [← textOf_closeRaw]
  exact newline_not_mem_textOf ((Line.lined_pieces content).isClosed_closeRaw _
    (List.mem_map_of_mem h))

end Keyfile
