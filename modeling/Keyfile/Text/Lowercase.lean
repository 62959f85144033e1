import Keyfile.Text.Basic
import Keyfile.Text.CaseTable

namespace Keyfile

def isCased (c : Char) : Bool := inRanges casedRanges c.toNat

def isCaseIgnorable (c : Char) : Bool := inRanges caseIgnorableRanges c.toNat

def lowerCodePoint (n : Nat) : Nat :=
  match caseRuns.find? (·.covers n) with
  | some run => run.image + (n - run.first)
  | none => n

/-- The lower-case form of a character, whatever stands around it. -/
def lowerChar (c : Char) : Text :=
  if c = 'İ' then ['i', '\u0307'] else [Char.ofNat (lowerCodePoint c.toNat)]

/-- The first character that is not ignored in matters of case is cased. -/
def startsCased (t : Text) : Bool :=
  match t.dropWhile isCaseIgnorable with
  | [] => false
  | c :: _ => isCased c

/-- The lower-case form of a capital sigma: final when a cased character stands before it and
none after it. The text before it is given backwards. -/
def lowerSigma (before after : Text) : Char :=
  if startsCased before && !startsCased after then 'ς' else 'σ'

/-- The lower-case form of a text that stands after another one, given backwards. -/
def lowerAfter (before : Text) : Text → Text
  | [] => []
  | c :: after =>
    (if c = 'Σ' then [lowerSigma before after] else lowerChar c) ++ lowerAfter (c :: before) after

def Text.lowercase (t : Text) : Text := lowerAfter [] t

/-- The form under which a section or key is known: trimmed and in lower case. -/
def normalName (name : Text) : Text := name.trim.lowercase

end Keyfile
