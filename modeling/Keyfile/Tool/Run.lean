import Keyfile.Log.Filter
import Keyfile.Store
import Keyfile.Tool.Arguments

namespace Keyfile

structure Ending where
  code : Nat
  output : Text
deriving DecidableEq, Repr

namespace Ending

def success (lines : List Text) : Ending := ⟨0, lines.flatMap (· ++ ['\n'])⟩

def refusal : Ending := ⟨1, []⟩

def misuse : Ending := ⟨2, []⟩

end Ending

namespace Command

def target : Text := chars "cfgtool"

def entryLine (entry : Text × List Text) : Text :=
  entry.1 ++ [' ', '=', ' '] ++ List.intercalate [',', ' '] entry.2

def perform (file : Path) (options : Options) : Command → Action Ending
  | create comments => do
    let _ ← Store.create file comments options
    Action.note .info target (chars "Created " ++ decode file)
    return .success []
  | get sectionName key => do
    let store ← Store.ofFile file options
    return .success (store.get sectionName key)
  | set sectionName key values => do
    let store ← Store.ofFile file options
    store.apart (Store.set sectionName key values)
    Action.note .info target
      (chars "Updated [" ++ sectionName ++ chars "] " ++ key ++ chars " in " ++ decode file)
    return .success []
  | sections => do
    let store ← Store.ofFile file options
    return .success store.sectionNames
  | keys sectionName => do
    let store ← Store.ofFile file options
    match store.keyNames? sectionName with
    | some names => return .success names
    | none =>
      Action.note .warn target
        (chars "No section [" ++ sectionName ++ chars "] in " ++ decode file)
      return .refusal
  | check sectionName key? => do
    let store ← Store.ofFile file options
    return if store.has (sectionName :: key?.toList) then .success [] else .refusal
  | read sectionName => do
    let keys ← sectionOfFile file sectionName
    return .success (keys.entries.map entryLine)
  | dump => do
    let store ← Store.ofFile file options
    return .success [← liftExcept store.dump]

end Command

/-- A command carried out, to whatever end. Staging files go to the given directory, or else to
that of the system. -/
def Invocation.run (i : Invocation) (systemDir : Path) (h : Host) : Ending × Host :=
  let options := Options.usual (i.stagingDir?.getD systemDir)
  match (i.command.perform i.file options).run h with
  | (.ok ending, h) => (ending, h)
  | (.error e, h) => (.refusal, { h with log := ⟨.error, Command.target, e.message⟩ :: h.log })

def version : Text := chars "0.1.0"

def versionLine : Text := chars "cfgtool " ++ version

def helpLines : List Text :=
  [chars "Read and surgically edit INI-style configuration files", [],
    chars "Usage: cfgtool [OPTIONS] --file <FILE> <COMMAND>"]

def runTool (arguments : List Text) (systemDir : Path) (h : Host) : Ending × Host :=
  match Demand.ofArguments arguments with
  | .help => (.success helpLines, h)
  | .version => (.success [versionLine], h)
  | .misuse => (.misuse, h)
  | .run i => i.run systemDir h

/-- The lines that a process shows of what it tells, oldest first. -/
def shownLog (f : Filter) (log : List Record) : List Text :=
  (log.reverse.filter f.shows).map Record.shown

end Keyfile
