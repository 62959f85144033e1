import Keyfile.Extract
import Keyfile.Json
import Keyfile.Update

namespace Keyfile

structure Store where
  path : Path
  options : Options
  sections : Sections
deriving DecidableEq

structure Session where
  store : Store
  host : Host

abbrev StoreAction := ExceptT Failure (StateM Session)

def onHost {α : Type} (act : Action α) : StoreAction α := fun s =>
  let (result, host) := act.run s.host
  (result, { s with host })

def contentTarget : Text := chars "cfgstore::parser::document"

def extractTarget : Text := chars "cfgstore::parser::section"

def noteEntry (entry : Text × Text × List Text) : Action Unit :=
  Action.note .trace contentTarget
    (['['] ++ entry.1 ++ chars "] " ++ entry.2.1 ++ chars " = " ++ quoteList entry.2.2)

/-- The sections of a file. Entries before a fault are told of too. -/
def sectionsOfFile (path : Path) : Action Sections := do
  let reading := readContent (← Action.query (·.read path))
  (entriesAfter none reading.items).forM noteEntry
  match reading.sections with
  | .error n => throw (.malformed path n)
  | .ok sections =>
    Action.note .debug contentTarget
      (chars "Loaded " ++ Text.ofNat sections.size ++ chars " sections from " ++ decode path)
    return sections

/-- What is told of a section read on its own. A section that ends the file is not told of. -/
def noteExtract (path : Path) (name : Text) (found : Extract) : Action Unit :=
  match found.extent with
  | .absent =>
    Action.note .debug extractTarget
      (chars "Section [" ++ name ++ chars "] not found in " ++ decode path)
  | .toBracket =>
    Action.note .debug extractTarget
      (chars "Read section [" ++ name ++ chars "] (" ++ Text.ofNat found.keys.size ++
        chars " keys) from " ++ decode path)
  | .toEnd => pure ()

def sectionOfFile (path : Path) (name : Text) : Action Section := do
  match extract name (← Action.query (·.read path)) with
  | .error n => throw (.malformed path n)
  | .ok found =>
    noteExtract path (normalName name) found
    return found.keys

namespace Store

def target : Text := chars "cfgstore::store"

/-- The content of a new file: each comment on a line after a number sign. -/
def commentLines (comments : List Text) : Text :=
  comments.flatMap fun c => ['#', ' '] ++ c ++ ['\n']

/-- A new file of comments, over any file that is there, and an empty store on it. -/
def create (path : Path) (comments : List Text) (options : Options) : Action Store := do
  Action.change (·.create path (encode (commentLines comments)))
  Action.note .debug target
    (chars "Created " ++ decode path ++ chars " with " ++ Text.ofNat comments.length ++
      chars " comment lines")
  return ⟨path, options, ∅⟩

def ofFile (path : Path) (options : Options) : Action Store :=
  return ⟨path, options, ← sectionsOfFile path⟩

/-- The values of a key without their backslashes, or one empty value if the key is absent. -/
def get (s : Store) (sectionName key : Text) : List Text :=
  match (s.sections.get? (normalName sectionName)).bind (·.get? (normalName key)) with
  | some (v :: rest) => (v :: rest).map (·.filter (· ≠ '\\'))
  | _ => [[]]

def sectionNames (s : Store) : List Text := s.sections.names

def keyNames? (s : Store) (sectionName : Text) : Option (List Text) :=
  (s.sections.get? (normalName sectionName)).map (·.names)

/-- A section, or a key of a section, is there. Names past the second are ignored. -/
def has (s : Store) : List Text → Bool
  | [] => false
  | [name] => s.sections.contains (normalName name)
  | name :: key :: _ =>
    ((s.sections.get? (normalName name)).map (·.contains (normalName key))).getD false

def sectionJson (s : Section) : Json :=
  .object (s.entries.map fun (key, values) => (key, .list (values.map .text)))

def sectionsJson (s : Sections) : Json :=
  .object (s.entries.map fun (name, keys) => (name, sectionJson keys))

def json (s : Store) : Json :=
  .object [(chars "file", .text (decode s.path)), (chars "sections", sectionsJson s.sections)]

/-- The JSON text of the store. A path that is not UTF-8 has none. -/
def dump (s : Store) : Except Failure Text :=
  if isUtf8 s.path then .ok (s.json.render 0) else .error .pathNotText

def keep (s : Store) (setting : Setting) : Store :=
  { s with sections := s.sections.put setting.sectionName setting.key setting.values }

def commit (setting : Setting) : StoreAction Unit := do
  onHost (Action.note .debug target
    (chars "Set [" ++ setting.sectionName ++ chars "] " ++ setting.key ++ chars " (" ++
      Text.ofNat setting.values.length ++ chars " values)"))
  modify fun s => { s with store := s.store.keep setting }

/-- Sets the values of a key, in the file and then in memory, with at most one outage on the
way. -/
def setDuring (outage? : Option Outage) (sectionName key : Text) (values : List Text) :
    StoreAction Unit := do
  let setting ← liftExcept (Setting.ofRequest sectionName key values)
  let store := (← getThe Session).store
  onHost (Update.run outage? store.path setting store.options)
  commit setting

def set (sectionName key : Text) (values : List Text) : StoreAction Unit :=
  setDuring none sectionName key values

/-- Reads the file again. Memory stays as it is if that fails. -/
def refresh : StoreAction Unit := do
  let sections ← onHost (sectionsOfFile (← getThe Session).store.path)
  modify fun s => { s with store := { s.store with sections } }

def apart {α : Type} (s : Store) (act : StoreAction α) : Action α := fun h =>
  let (result, session) := act.run ⟨s, h⟩
  (result, session.host)

end Store

end Keyfile
