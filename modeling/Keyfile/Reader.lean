import Keyfile.Line

namespace Keyfile

inductive Item where
  | heading (name : Text)
  | entry (key : Text) (values : List Text)
deriving DecidableEq, Repr

/-- The state of reading. `buffer` is what is read of a key or value, the last character first.
`last` is the last line that named a section, opened a key, ended a value or completed an entry; a
fault that spans lines is reported there. -/
structure Reader where
  inSection : Bool
  key? : Option Text
  afterComma : Bool
  escaping : Bool
  buffer : Text
  values : List Text
  last : Nat
deriving DecidableEq, Repr

namespace Reader

def start : Reader := ⟨false, none, false, false, [], [], 0⟩

def piece (r : Reader) : Text := Text.trim r.buffer.reverse

/-- A character that does not open a section. The fault is the number of the line. -/
def push (number : Nat) (r : Reader) (c : Char) : Except Nat Reader :=
  if r.escaping then
    .ok { r with buffer := c :: r.buffer, escaping := false }
  else if c = '=' then
    if r.key?.isSome || !r.inSection then .error number
    else .ok { r with key? := some (normalName r.buffer.reverse), buffer := [], last := number }
  else if c = ',' then
    if r.key?.isNone then .error number
    else .ok { r with
      values := r.values ++ [r.piece], buffer := [], afterComma := true, last := number }
  else if (c = ' ' || c = '\t') && r.buffer.isEmpty then
    .ok r
  else
    .ok { r with buffer := c :: r.buffer, afterComma := false, escaping := c = '\\' }

/-- An opening bracket that is not escaped: the line has to name a section, with nothing before
the bracket and no key open. -/
def openSection (r : Reader) (line : Line) : Except Nat (Reader × Option Item) :=
  if r.key?.isSome then .error r.last
  else if !r.buffer.isEmpty then .error line.number
  else match line.sectionName? with
    | none => .error line.number
    | some name => .ok ({ r with inSection := true, last := line.number }, some (.heading name))

/-- The end of a line: the entry is complete unless a comma came last. -/
def closeLine (r : Reader) (number : Nat) : Except Nat (Reader × Option Item) :=
  match r.key? with
  | none => .error number
  | some key =>
    if r.escaping then .error number
    else if r.afterComma then .ok ({ r with afterComma := false }, none)
    else .ok
      ({ r with key? := none, values := [], buffer := [], last := number },
        some (.entry key (r.values ++ [r.piece])))

def readChars (line : Line) (r : Reader) : Text → Except Nat (Reader × Option Item)
  | [] => r.closeLine line.number
  | c :: cs =>
    if c = '[' && !r.escaping then r.openSection line
    else match r.push line.number c with
      | .error n => .error n
      | .ok r => readChars line r cs

/-- A line. Empty lines and comments say nothing; a line of blanks ends the values of an open key
with an empty one. -/
def read (r : Reader) (line : Line) : Except Nat (Reader × Option Item) :=
  if line.isEmpty || line.isComment then .ok (r, none)
  else if line.isBlank then
    if r.key?.isNone then .ok (r, none)
    else { r with afterComma := false }.closeLine line.number
  else readChars line r line.text

def fault? (r : Reader) : Option Nat := if r.key?.isSome then some r.last else none

end Reader

/-- What lines complete before the first fault, and the line of that fault. -/
structure Reading where
  items : List Item
  fault? : Option Nat
deriving DecidableEq, Repr

def Reader.readAll (r : Reader) : List Line → Reading
  | [] => ⟨[], r.fault?⟩
  | line :: rest =>
    match r.read line with
    | .error n => ⟨[], some n⟩
    | .ok (r, item?) =>
      let reading := r.readAll rest
      ⟨item?.toList ++ reading.items, reading.fault?⟩

end Keyfile
