import Keyfile.Disk

namespace Keyfile

/-- Whether every update is forced to the disk before it counts as done. -/
inductive Durability where
  | forced
  | deferred
deriving DecidableEq, Repr

structure Options where
  stagingDir : Path
  stagingName : Text
  durability : Durability
deriving DecidableEq, Repr

namespace Options

/-- Staging files go to the given directory, under the usual name, and every update is forced to
the disk. -/
def usual (stagingDir : Path) : Options := ⟨stagingDir, chars "cfgstore", .forced⟩

/-- The path of a staging file, but for the part that makes it the only one of its name. -/
def stagingPath (o : Options) : Path :=
  Path.join o.stagingDir (encode (o.stagingName ++ chars ".temp_conf.XXXXXX"))

end Options

end Keyfile
