import Keyfile.Failure

namespace Keyfile

abbrev Path := Bytes

/-- The steps from the working directory to a place. Those of an absolute path start with a
slash. -/
abbrev Location := List Bytes

def slash : UInt8 := 0x2F

/-- The byte that names a directory itself, and twice the one above it. -/
def dot : UInt8 := 0x2E

namespace Path

/-- The place that a step leads to. No step leads above the root. -/
def step (here : Location) (part : Bytes) : Location :=
  if part = [] || part = [dot] then here
  else if part = [dot, dot] then
    if here = [[slash]] then here
    else if here = [] || here.getLast? = some part then here ++ [part]
    else here.dropLast
  else here ++ [part]

def parts (p : Path) : List Bytes := p.splitOn slash

def start (p : Path) : Location := if p.head? = some slash then [[slash]] else []

/-- The place that a path leads to, if there are directories all the way. -/
def location (p : Path) : Location := p.parts.foldl step p.start

def places (p : Path) : List Location :=
  (List.range (p.parts.length + 1)).map fun n => (p.parts.take n).foldl step p.start

/-- The steps of a path without the slashes at its end. -/
def partsOfName (p : Path) : List Bytes := (p.parts.reverse.dropWhile (· = [])).reverse

def join (directory name : Path) : Path :=
  if directory = [] || name.head? = some slash then name
  else if directory.getLast? = some slash then directory ++ name
  else directory ++ slash :: name

end Path

inductive Node where
  | file (content : Bytes)
  | directory
deriving DecidableEq, Repr

/-- What stands where, and the staging files with their directories, the newest first. A staging
file has no name that anyone knows. -/
structure Disk where
  nodes : List (Location × Node)
  staged : List (Location × Bytes)
deriving DecidableEq, Repr

namespace Disk

/-- What stands at a place. The working directory and those above it are always there. -/
def node? (d : Disk) (l : Location) : Option Node :=
  if l.all (· = [dot, dot]) then some .directory else d.nodes.lookup l

def erase (d : Disk) (l : Location) : Disk := { d with nodes := d.nodes.filter (·.1 ≠ l) }

def put (d : Disk) (l : Location) (n : Node) : Disk :=
  { d with nodes := (l, n) :: (d.erase l).nodes }

def eraseTree (d : Disk) (l : Location) : Disk :=
  { nodes := d.nodes.filter fun e => !l.isPrefixOf e.1
    staged := d.staged.filter fun e => !l.isPrefixOf e.1 }

def fileCount (d : Disk) (l : Location) : Nat :=
  (d.nodes.filter fun e => e.1 ≠ [] && e.1.dropLast = l).length +
    (d.staged.filter fun e => e.1 = l).length

def checkDirectory (d : Disk) (l : Location) : Except DiskFault Unit :=
  match d.node? l with
  | some .directory => .ok ()
  | some (.file _) => .error .notDirectory
  | none => .error .notFound

def nameLimit : Nat := 255

def pathLimit : Nat := 4095

/-- A step from a place, which has to be a directory even if the step stays there. -/
def enter (d : Disk) (here : Location) (part : Bytes) : Except DiskFault Location := do
  d.checkDirectory here
  if nameLimit < part.length then .error .nameTooLong else .ok (Path.step here part)

def follow (d : Disk) (p : Path) (parts : List Bytes) : Except DiskFault Location :=
  if 0 ∈ p then .error .nulInPath
  else if p = [] then .error .notFound
  else if pathLimit < p.length then .error .nameTooLong
  else parts.foldlM d.enter p.start

def resolve (d : Disk) (p : Path) : Except DiskFault Location := d.follow p p.parts

theorem eq_foldl_of_foldlM_enter {d : Disk} {parts : List Bytes} {here l : Location}
    (h : parts.foldlM d.enter here = .ok l) : l = parts.foldl Path.step here := by
  induction parts generalizing here with
  | nil => cases h; rfl
  | cons part parts ih =>
    rw [List.foldlM_cons] at h
    unfold enter at h
    cases found : d.checkDirectory here with
    | error e => simp [found, bind, Except.bind] at h
    | ok _ =>
      by_cases long : nameLimit < part.length
      · simp [found, long, bind, Except.bind] at h
      · simp only [found, long, bind, Except.bind, if_false] at h
        exact ih h

/-- A path that leads somewhere leads where its steps say. -/
theorem eq_location_of_resolve {d : Disk} {p : Path} {l : Location} (h : d.resolve p = .ok l) :
    l = p.location := by
  unfold resolve follow at h
  repeat (split at h; · simp at h)
  exact eq_foldl_of_foldlM_enter h

def look (d : Disk) (p : Path) : Except DiskFault (Option Node) :=
  match d.resolve p with
  | .error e => .error e
  | .ok l => .ok (d.node? l)

def read (d : Disk) (p : Path) : Except DiskFault Bytes :=
  match d.look p with
  | .error e => .error e
  | .ok none => .error .notFound
  | .ok (some .directory) => .error .isDirectory
  | .ok (some (.file content)) => .ok content

def write (d : Disk) (p : Path) (content : Bytes) : Except DiskFault Disk :=
  match d.look p with
  | .error e => .error e
  | .ok none => .error .notFound
  | .ok (some .directory) => .error .isDirectory
  | .ok (some (.file _)) => .ok (d.put p.location (.file content))

/-- A file with a content, whether it was there or not. A slash at the end of the path asks for a
directory, whatever there is. -/
def create (d : Disk) (p : Path) (content : Bytes) : Except DiskFault Disk :=
  if p.getLast? = some slash then
    match d.follow p p.partsOfName.dropLast with
    | .error e => .error e
    | .ok l =>
      match d.checkDirectory l with
      | .error e => .error e
      | .ok () => .error .isDirectory
  else
    match d.look p with
    | .error e => .error e
    | .ok (some .directory) => .error .isDirectory
    | .ok _ => .ok (d.put p.location (.file content))

/-- A new empty staging file in the directory of a path. -/
def stage (d : Disk) (p : Path) : Except DiskFault Disk :=
  match d.resolve p with
  | .error e => .error e
  | .ok l => .ok { d with staged := (l.dropLast, []) :: d.staged }

def writeStaged (d : Disk) (content : Bytes) : Disk :=
  match d.staged with
  | [] => d
  | (l, _) :: rest => { d with staged := (l, content) :: rest }

def readStaged (d : Disk) : Bytes :=
  match d.staged with
  | [] => []
  | (_, content) :: _ => content

def unstage (d : Disk) : Disk := { d with staged := d.staged.tail }

end Disk

end Keyfile
