import Keyfile.Disk
import Keyfile.Log

namespace Keyfile

/-- What operations work on: the disk, and what was told so far, the newest first. -/
structure Host where
  disk : Disk
  log : List Record

abbrev Action := ExceptT Failure (StateM Host)

namespace Action

def note (level : Level) (target message : Text) : Action Unit :=
  modify fun h => { h with log := ⟨level, target, message⟩ :: h.log }

def query {α : Type} (f : Disk → Except DiskFault α) : Action α := do
  match f (← get).disk with
  | .ok a => return a
  | .error e => throw (.disk e)

/-- Changes the disk, or leaves it if that is refused. -/
def change (f : Disk → Except DiskFault Disk) : Action Unit := do
  let d ← query f
  modify fun h => { h with disk := d }

/-- Changes the disk in a way that is never refused. -/
def alter (f : Disk → Disk) : Action Unit := modify fun h => { h with disk := f h.disk }

end Action

end Keyfile
