import Keyfile.Text.Lowercase
import Keyfile.Text.Utf8

namespace Keyfile

def newline : UInt8 := 0x0A

def carriageReturn : UInt8 := 0x0D

def dropFinal (b : UInt8) (bs : Bytes) : Bytes :=
  if bs.getLast? = some b then bs.dropLast else bs

/-- A numbered line, as the bytes that were read, its terminator included. -/
structure Line where
  number : Nat
  raw : Bytes
deriving DecidableEq, Repr

namespace Line

/-- The bytes before the terminator, which is a newline with or without a carriage return. -/
def body (l : Line) : Bytes := dropFinal carriageReturn (dropFinal newline l.raw)

def text (l : Line) : Text := decode l.body

def isTerminated (l : Line) : Bool := l.raw.getLast? = some newline

def isEmpty (l : Line) : Bool := l.text.isEmpty

def isBlank (l : Line) : Bool := l.text.trim.isEmpty

/-- The first character that is not blank is a number sign. -/
def isComment (l : Line) : Bool := l.text.trimStart.head? = some '#'

def opensBracket (l : Line) : Bool := l.text.trimStart.head? = some '['

def isContent (l : Line) : Bool := !l.isBlank && !l.isComment

/-- The section that the line names: all of its text, blanks at the ends apart, stands between
one pair of brackets. -/
def sectionName? (l : Line) : Option Text :=
  match l.text.trim with
  | '[' :: rest =>
    if rest.getLast? = some ']' then
      let inner := rest.dropLast
      if inner.contains '[' || inner.contains ']' then none else some (normalName inner)
    else none
  | _ => none

/-- The pieces of a content, each up to and including a newline. The last one may lack it. -/
def pieces : Bytes → List Bytes
  | [] => []
  | b :: bs =>
    if b = newline then [b] :: pieces bs
    else match pieces bs with
      | [] => [[b]]
      | p :: ps => (b :: p) :: ps

theorem flatten_pieces (content : Bytes) : (pieces content).flatten = content := by
  induction content with
  | nil => rfl
  | cons b bs ih =>
    simp only [pieces]
    split
    · simp [ih]
    · split <;> simp_all

def numberFrom : Nat → List Bytes → List Line
  | _, [] => []
  | n, raw :: rest => ⟨n, raw⟩ :: numberFrom (n + 1) rest

theorem map_raw_numberFrom (n : Nat) (raws : List Bytes) :
    (numberFrom n raws).map raw = raws := by
  induction raws generalizing n with
  | nil => rfl
  | cons r rest ih => simp [numberFrom, ih]

def scan (content : Bytes) : List Line := numberFrom 1 (pieces content)

end Line

end Keyfile
