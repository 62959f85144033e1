import Keyfile.Sections

namespace Keyfile

inductive Extent where
  | absent
  | toBracket
  | toEnd
deriving DecidableEq, Repr

structure Extract where
  keys : Section
  extent : Extent

namespace Extract

/-- The keys on the lines that follow a heading. -/
def collect (r : Reader) (keys : Section) : List Line → Except Nat Extract
  | [] =>
    match r.fault? with
    | some n => .error n
    | none => .ok ⟨keys, .toEnd⟩
  | line :: rest =>
    if line.opensBracket then
      match r.fault? with
      | some n => .error n
      | none => .ok ⟨keys, .toBracket⟩
    else match r.read line with
      | .error n => .error n
      | .ok (r, some (.entry key values)) => collect r (keys.insert key values) rest
      | .ok (r, _) => collect r keys rest

def find (name : Text) : List Line → Except Nat Extract
  | [] => .ok ⟨∅, .absent⟩
  | line :: rest =>
    if line.sectionName? = some name then
      match Reader.start.read line with
      | .error n => .error n
      | .ok (r, _) => collect r ∅ rest
    else find name rest

end Extract

/-- The first section of a name in a content. Lines before the one that names it are passed over
unread, and reading stops at the next line that opens with a bracket. -/
def extract (name : Text) (content : Bytes) : Except Nat Extract :=
  Extract.find (normalName name) (Line.scan content)

end Keyfile
