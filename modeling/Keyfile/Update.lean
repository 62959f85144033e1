import Keyfile.Host
import Keyfile.Options
import Keyfile.Edit

namespace Keyfile

inductive Step where
  | scan
  | openStaging
  | writeStaging
  | syncStaging
  | reopenStaging
  | openTarget
  | copy
  | syncTarget
  | removeStaging
deriving DecidableEq, Repr

/-- A fault of the disk at a step. A step that writes has then written so many bytes. -/
structure Outage where
  step : Step
  fault : DiskFault
  written : Nat
deriving DecidableEq, Repr

namespace Update

def target : Text := chars "cfgstore::writer::file"

/-- A step, or in its place the outage that befalls it and what it leaves of the step. -/
def attempt {α : Type} (outage? : Option Outage) (step : Step) (act : Action α)
    (cut : Nat → Disk → Disk) : Action α :=
  match outage? with
  | none => act
  | some o =>
    if o.step = step then do
      Action.alter (cut o.written)
      throw (.disk o.fault)
    else act

/-- A step that an outage leaves undone. -/
def attemptWhole {α : Type} (outage? : Option Outage) (step : Step) (act : Action α) :
    Action α :=
  attempt outage? step act fun _ d => d

def flag (b : Bool) : Text := if b then chars "true" else chars "false"

def placeMessage (path : Path) (s : Setting) (slot : Slot) : Text :=
  chars "Rewriting " ++ decode path ++ chars " [" ++ s.sectionName ++ chars "] " ++ s.key ++
    chars ": upper=" ++ Text.ofNat slot.above ++ chars " lower=" ++ Text.ofNat slot.below ++
    chars " section_found=" ++ flag slot.hasSection ++ chars " key_found=" ++ flag slot.hasKey

def replace (outage? : Option Outage) (path : Path) (durability : Durability) (content : Bytes) :
    Action Unit := do
  attempt outage? .writeStaging (.alter (·.writeStaged content))
    fun n d => d.writeStaged (content.take n)
  if durability = .forced then attemptWhole outage? .syncStaging (pure ())
  attemptWhole outage? .reopenStaging (pure ())
  attemptWhole outage? .openTarget (.change (·.write path []))
  let staged ← Action.query fun d => .ok d.readStaged
  attempt outage? .copy (.change (·.write path staged))
    fun n d => (d.write path (staged.take n)).toOption.getD d
  if durability = .forced then attemptWhole outage? .syncTarget (pure ())
  Action.note .trace target
    (chars "Copied " ++ Text.ofNat staged.length ++ chars " bytes into " ++ decode path)

/-- A failure takes the staging file away with it. -/
def cleanly (act : Action Unit) : Action Unit :=
  tryCatch act fun e => do
    Action.alter Disk.unstage
    throw e

/-- Brings a setting into a file: the new content is staged in a file of its own and then copied
over the old one. At most one step fails on the way. -/
def run (outage? : Option Outage) (path : Path) (s : Setting) (options : Options) :
    Action Unit := do
  let content ← attemptWhole outage? .scan (.query (·.read path))
  Action.note .debug target (placeMessage path s (s.slotIn content))
  attemptWhole outage? .openStaging (.change (·.stage options.stagingPath))
  Action.note .trace target (chars "Staging rewrite in " ++ decode options.stagingPath)
  cleanly (replace outage? path options.durability (s.applyTo content))
  attemptWhole outage? .removeStaging (.alter Disk.unstage)

end Update

def saveSetting (path : Path) (s : Setting) (options : Options) : Action Unit :=
  Update.run none path s options

def writeSetting (path : Path) (sectionName key : Text) (values : List Text) (options : Options) :
    Action Unit := do
  let s ← liftExcept (Setting.ofRequest sectionName key values)
  saveSetting path s options

end Keyfile
