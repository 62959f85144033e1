import Keyfile.Text.Basic

namespace Keyfile

/-- A file's content or a path, byte by byte. -/
abbrev Bytes := List UInt8

/-- The character that stands for bytes that are not UTF-8. -/
def replacement : Char := '\uFFFD'

/-- A character of which some bytes are read: its value so far, the range in which its next byte
has to lie, and the number of bytes due after that one. -/
structure Begun where
  value : Nat
  low : UInt8
  high : UInt8
  later : Nat
deriving DecidableEq, Repr

/-- The character that a byte outside ASCII begins. The narrow ranges exclude long forms,
surrogates and values past the last code point. -/
def Begun.ofLead? (b : UInt8) : Option Begun :=
  if 0xC2 ≤ b ∧ b ≤ 0xDF then some ⟨b.toNat - 0xC0, 0x80, 0xBF, 0⟩
  else if b = 0xE0 then some ⟨0, 0xA0, 0xBF, 1⟩
  else if b = 0xED then some ⟨0xD, 0x80, 0x9F, 1⟩
  else if 0xE1 ≤ b ∧ b ≤ 0xEF then some ⟨b.toNat - 0xE0, 0x80, 0xBF, 1⟩
  else if b = 0xF0 then some ⟨0, 0x90, 0xBF, 2⟩
  else if 0xF1 ≤ b ∧ b ≤ 0xF3 then some ⟨b.toNat - 0xF0, 0x80, 0xBF, 2⟩
  else if b = 0xF4 then some ⟨4, 0x80, 0x8F, 2⟩
  else none

def startChar (b : UInt8) : Text × Option Begun :=
  if b < 0x80 then ([Char.ofNat b.toNat], none)
  else match Begun.ofLead? b with
    | some begun => ([], some begun)
    | none => ([replacement], none)

/-- What a byte gives inside a character. A byte that cannot continue it starts anew. -/
def Begun.next (begun : Begun) (b : UInt8) : Text × Option Begun :=
  if begun.low ≤ b ∧ b ≤ begun.high then
    let value := begun.value * 64 + (b.toNat - 0x80)
    match begun.later with
    | 0 => ([Char.ofNat value], none)
    | later + 1 => ([], some ⟨value, 0x80, 0xBF, later⟩)
  else (replacement :: (startChar b).1, (startChar b).2)

def decodeByte : Option Begun → UInt8 → Text × Option Begun
  | none, b => startChar b
  | some begun, b => begun.next b

def decodeAfter (open? : Option Begun) : Bytes → Text
  | [] => if open?.isSome then [replacement] else []
  | b :: bs => (decodeByte open? b).1 ++ decodeAfter (decodeByte open? b).2 bs

/-- The text of bytes, with replacement characters where they are not UTF-8. -/
def decode (bs : Bytes) : Text := decodeAfter none bs

def encode (t : Text) : Bytes := t.flatMap String.utf8EncodeChar

/-- The bytes are the UTF-8 form of a text, and then of the text they decode to. -/
def isUtf8 (bs : Bytes) : Bool := encode (decode bs) = bs

end Keyfile
