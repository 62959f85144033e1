import Keyfile.Failure
import Keyfile.Text.Lowercase

namespace Keyfile

structure Setting where
  sectionName : Text
  key : Text
  values : List Text
deriving DecidableEq, Repr

def sectionReserved : List Char := ['[', ']', '\n', '\r']

def reserved : List Char := ['[', ']', '=', ',', '\n', '\r']

def firstOf (cs : List Char) (t : Text) : Option Char := t.find? cs.contains

/-- The text would read as a comment if it stood first on a line. -/
def looksLikeComment (t : Text) : Bool := t.trimStart.head? = some '#'

namespace Setting

def checkChars (cs : List Char) (name : Text) : Except Failure Unit :=
  match firstOf cs name with
  | some c => .error (.badName c name)
  | none => .ok ()

/-- A key checked. A key that looks like a comment would not be read. -/
def checkKey (key : Text) : Except Failure Unit :=
  match checkChars reserved key with
  | .error e => .error e
  | .ok () => if looksLikeComment key then .error (.badName '#' key) else .ok ()

/-- A value checked and trimmed. A value that starts a line may not look like a comment, and an
odd run of backslashes at the end would escape the end of the line. -/
def checkValue (startsLine : Bool) (value : Text) : Except Failure Text :=
  match firstOf reserved value with
  | some c => .error (.badValue c value)
  | none =>
    if startsLine && looksLikeComment value then .error (.badValue '#' value)
    else if value.trim.finalBackslashes % 2 = 1 then .error (.badValue '\\' value)
    else .ok value.trim

/-- Values checked in order. Each but the first of a setting starts a line. -/
def checkValues (startsLine : Bool) : List Text → Except Failure (List Text)
  | [] => .ok []
  | v :: rest =>
    match checkValue startsLine v with
    | .error e => .error e
    | .ok v => (checkValues true rest).map (v :: ·)

/-- A request checked and brought to the form in which it is kept. No values at all are one empty
value. -/
def ofRequest (sectionName key : Text) (values : List Text) : Except Failure Setting := do
  checkChars sectionReserved sectionName
  checkKey key
  let values ← checkValues false values
  return ⟨normalName sectionName, normalName key, if values.isEmpty then [[]] else values⟩

/-- The lines of values. Each but the last ends in a comma, and each but the first is indented. -/
def renderValues (lead indent : Text) : List Text → Text
  | [] => []
  | [v] => lead ++ v ++ ['\n']
  | v :: rest => lead ++ v ++ [',', '\n'] ++ renderValues indent indent rest

def lead (s : Setting) : Text := s.key ++ [' ', '=', ' ']

def renderHeading (sectionName : Text) : Text := ['\n', '['] ++ sectionName ++ [']', '\n']

/-- The lines of a setting. They name the section unless it is there already. -/
def render (s : Setting) (hasSection : Bool) : Text :=
  (if hasSection then [] else renderHeading s.sectionName) ++
    renderValues s.lead (List.replicate s.lead.length ' ') s.values

end Setting

end Keyfile
