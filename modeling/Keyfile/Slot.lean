import Keyfile.Line

namespace Keyfile

/-- A place among lines: those up to `above` stay before it, and those from `below` on after
it. -/
structure Slot where
  above : Nat
  below : Nat
  hasSection : Bool
  hasKey : Bool
deriving DecidableEq, Repr

def leftName? (t : Text) : Option Text :=
  if t.contains '=' then some (normalName (t.takeWhile (· ≠ '='))) else none

/-- The text ends in a comma, blanks apart, that is not escaped. -/
def endsInComma (t : Text) : Bool :=
  match t.trimEnd.reverse with
  | ',' :: before => Text.finalBackslashes before.reverse % 2 == 0
  | _ => false

/-- A section that is being searched: its last line that says something, and the lines that the
key occupies. -/
structure Sighting where
  tail : Nat
  span? : Option (Nat × Nat)
deriving DecidableEq, Repr

/-- A search for a key. `within?` tells, inside values that go on over lines, whether they are those
of the key. -/
structure Search where
  count : Nat
  here? : Option Sighting
  earlier? : Option Sighting
  within? : Option Bool
deriving DecidableEq, Repr

namespace Sighting

def extend (o : Sighting) (number : Nat) (ofKey : Bool) : Sighting :=
  ⟨number, if ofKey then o.span?.map fun s => (s.1, number) else o.span?⟩

def follow (o : Sighting) (number : Nat) (ofKey : Bool) : Sighting :=
  ⟨number, if ofKey then some (number, number) else o.span?⟩

end Sighting

namespace Search

def start : Search := ⟨0, none, none, none⟩

def withinAfter (line : Line) (ofKey : Bool) : Option Bool :=
  if endsInComma line.text then some ofKey else none

def continueValues (s : Search) (line : Line) (ofKey : Bool) : Search :=
  if line.isEmpty || line.isComment then s
  else { s with
    here? := s.here?.map (·.extend line.number ofKey)
    within? := withinAfter line ofKey }

def takeLine (sectionName key : Text) (s : Search) (line : Line) : Search :=
  if !line.isContent then s
  else if line.opensBracket then
    { s with
      earlier? := s.here?.or s.earlier?
      here? := if line.sectionName? = some sectionName then some ⟨line.number, none⟩ else none }
  else match s.here? with
    | none => s
    | some o =>
      let ofKey : Bool := leftName? line.text = some key
      { s with here? := some (o.follow line.number ofKey), within? := withinAfter line ofKey }

def step (sectionName key : Text) (s : Search) (line : Line) : Search :=
  let s := { s with count := line.number }
  match s.within? with
  | some ofKey => s.continueValues line ofKey
  | none => s.takeLine sectionName key line

def slot (s : Search) : Slot :=
  match s.here?.or s.earlier? with
  | none => ⟨s.count, s.count + 1, false, false⟩
  | some ⟨_, some (first, last)⟩ => ⟨first - 1, last + 1, true, true⟩
  | some ⟨tail, none⟩ => ⟨tail, tail + 1, true, false⟩

end Search

/-- The place of a key of a section, both names in their normal form: the lines that the key
occupies, else the end of its section, else the end of the content. Of several of one name the last
counts. -/
def Slot.find (sectionName key : Text) (lines : List Line) : Slot :=
  (lines.foldl (Search.step sectionName key) .start).slot

end Keyfile
