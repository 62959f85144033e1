import Keyfile.Reader
import Keyfile.Table

namespace Keyfile

/-- The values of each key. Values keep their backslashes. -/
abbrev Section := Table (List Text)

abbrev Sections := Table Section

namespace Sections

def keysOf (s : Sections) (name : Text) : Section := (s.get? name).getD ∅

def put (s : Sections) (name key : Text) (values : List Text) : Sections :=
  s.insert name ((s.keysOf name).insert key values)

end Sections

/-- Sections under construction and the one that entries now go to. -/
structure Draft where
  sections : Sections
  open? : Option Text

namespace Draft

def start : Draft := ⟨∅, none⟩

/-- A heading starts its section over, and an entry replaces an earlier one of its key. An entry
that no heading precedes has no section to go to. -/
def add (d : Draft) : Item → Draft
  | .heading name => ⟨d.sections.insert name ∅, some name⟩
  | .entry key values =>
    match d.open? with
    | none => d
    | some name => { d with sections := d.sections.put name key values }

end Draft

def Sections.ofItems (items : List Item) : Sections := (items.foldl Draft.add .start).sections

def entriesAfter (open? : Option Text) : List Item → List (Text × Text × List Text)
  | [] => []
  | .heading name :: rest => entriesAfter (some name) rest
  | .entry key values :: rest =>
    match open? with
    | none => entriesAfter none rest
    | some name => (name, key, values) :: entriesAfter open? rest

def readContent (content : Bytes) : Reading := Reader.start.readAll (Line.scan content)

def Reading.sections (r : Reading) : Except Nat Sections :=
  match r.fault? with
  | some n => .error n
  | none => .ok (Sections.ofItems r.items)

def parse (content : Bytes) : Except Nat Sections := (readContent content).sections

end Keyfile
