import Keyfile.Text.Basic

namespace Keyfile

namespace Pattern

/-- What flags say of the text after them: case is ignored, characters are taken from Unicode and
not from ASCII, blanks and comments are skipped. -/
structure Flags where
  ignoresCase : Bool
  isUnicode : Bool
  skipsBlanks : Bool
deriving DecidableEq, Repr

namespace Flags

def usual : Flags := ⟨false, true, false⟩

/-- A text without the blanks and comments at its start. A comment goes from a number sign to the
end of its line. -/
def skipComments (inComment : Bool) : Text → Text
  | [] => []
  | c :: rest =>
    if inComment then skipComments (c ≠ '\n') rest
    else if isBlank c then skipComments false rest
    else if c = '#' then skipComments true rest
    else c :: rest

def skip (f : Flags) (t : Text) : Text := if f.skipsBlanks then skipComments false t else t

/-- The character by which a hyphen before it is understood. Blanks are skipped before it, but of
a comment only the number sign is. -/
def peek (f : Flags) (t : Text) : Option Char :=
  if f.skipsBlanks then
    let rest := t.dropWhile isBlank
    let rest := if rest.head? = some '#' then rest.tail.dropWhile isBlank else rest
    if rest.isEmpty then t.head? else rest.head?
  else t.head?

def allows (f : Flags) (c : Char) (isByte : Bool) : Bool :=
  if f.isUnicode then !f.ignoresCase else !isByte || c.toNat < 0x80

def allowsInBrackets (f : Flags) (c : Char) : Bool :=
  if f.isUnicode then !f.ignoresCase else c.toNat < 0x80

/-- All characters but some can be meant, also by a dot. -/
def allowsOthers (f : Flags) : Bool := f.isUnicode

def allowsClass (f : Flags) (isNegated : Bool) : Bool := !f.isUnicode && !isNegated

def allowsNamedClass (f : Flags) (isNegated : Bool) : Bool :=
  if f.isUnicode then !f.ignoresCase else !isNegated

def allowsBoundary (f : Flags) : Bool := !f.isUnicode

end Flags

/-- What an escape stands for: a character, perhaps given as a byte, a class of characters or all
others, a boundary of a word, or an end of the text. -/
inductive Escape where
  | character (c : Char) (isByte : Bool)
  | characterClass (isNegated : Bool)
  | boundary
  | anchor
deriving DecidableEq, Repr

def hexDigit? (c : Char) : Option Nat :=
  if c.isDigit then some (c.toNat - '0'.toNat)
  else if c.toLower.toNat - 'a'.toNat < 6 && c.isAlpha then some (10 + c.toLower.toNat - 'a'.toNat)
  else none

/-- The number that so many hexadecimal digits stand for after another one, and what follows. -/
def hexNumber? (f : Flags) : Nat → Nat → Text → Option (Nat × Text)
  | 0, value, t => some (value, t)
  | n + 1, value, t =>
    match f.skip t with
    | [] => none
    | c :: rest => (hexDigit? c).bind fun d => hexNumber? f n (16 * value + d) rest

def hexEscape? (f : Flags) (digits : Nat) (isByte : Bool) (t : Text) : Option (Escape × Text) :=
  match hexNumber? f digits 0 t with
  | some (n, rest) =>
    if n.isValidChar then some (.character (Char.ofNat n) isByte, rest) else none
  | none => none

def controls : List (Char × Char) :=
  [('a', '\x07'), ('f', '\x0c'), ('n', '\n'), ('r', '\r'), ('t', '\t'), ('v', '\x0b')]

/-- The escape after a backslash, and what follows. Properties of Unicode and references to groups
are no escapes. -/
def escape? (f : Flags) : Text → Option (Escape × Text)
  | [] => none
  | c :: rest =>
    if c = 'x' then hexEscape? f 2 true rest
    else if c = 'u' then hexEscape? f 4 false rest
    else if c = 'U' then hexEscape? f 8 false rest
    else if c = 'd' || c = 's' || c = 'w' then some (.characterClass false, rest)
    else if c = 'D' || c = 'S' || c = 'W' then some (.characterClass true, rest)
    else if c = 'b' || c = 'B' || c = '<' || c = '>' then some (.boundary, rest)
    else if c = 'A' || c = 'z' then some (.anchor, rest)
    else match controls.lookup c with
      | some control => some (.character control false, rest)
      | none =>
        if c.toNat < 0x80 && !c.isAlphanum then some (.character c false, rest) else none

end Pattern

end Keyfile
