import Keyfile.Tool.Run

namespace Keyfile

def pathOfLocation (l : Location) : String :=
  String.ofList (decode ([slash].intercalate l))

def probe (path : String) : IO (Option Node) := do
  try
    let content ← IO.FS.readBinFile path
    return some (.file content.toList)
  catch
    | .inappropriateType .. => return some .directory
    | _ => return none

/-- A disk with what really stands on the way to a path, and there. -/
def survey (d : Disk) (p : Path) : IO Disk :=
  p.places.foldlM (fun d place => do
    match ← probe (pathOfLocation place) with
    | some node => return d.put place node
    | none => return d) d

def writeBack (old new : Disk) (l : Location) : IO Unit :=
  match new.node? l with
  | some (.file content) =>
    if old.node? l = some (.file content) then pure ()
    else IO.FS.writeBinFile (pathOfLocation l) ⟨content.toArray⟩
  | _ => pure ()

def pathsOf (arguments : List Text) (systemDir : Path) : List Path :=
  match Demand.ofArguments arguments with
  | .run i => [i.file, (Options.usual (i.stagingDir?.getD systemDir)).stagingPath]
  | _ => []

def process (arguments : List Text) : IO Ending := do
  let systemDir := encode (chars ((← IO.getEnv "TMPDIR").getD "/tmp"))
  let filter := Filter.ofEnvironment ((← IO.getEnv "RUST_LOG").map chars)
  let paths := pathsOf arguments systemDir
  let disk ← paths.foldlM survey ⟨[([[slash]], .directory)], []⟩
  let (ending, host) := runTool arguments systemDir ⟨disk, []⟩
  (paths.take 1).forM fun p => writeBack disk host.disk p.location
  let errors ← IO.getStderr
  (shownLog filter host.log).forM fun line => errors.putStrLn (String.ofList line)
  if ending.code = 2 then errors.putStrLn "cfgtool: unusable arguments; try --help"
  return ending

end Keyfile

def main (arguments : List String) : IO UInt32 := do
  let ending ← Keyfile.process (arguments.map Keyfile.chars)
  IO.print (String.ofList ending.output)
  return UInt32.ofNat ending.code
