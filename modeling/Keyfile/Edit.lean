import Keyfile.Setting
import Keyfile.Slot

namespace Keyfile

/-- A block, with a newline before it if the line before it lacks one. -/
def onNewLine (terminated : Bool) (block : Bytes) : Bytes :=
  if terminated then block else newline :: block

/-- Lines with a block in place of those of a slot, in one pass. `placed` tells that the block is
written, and `terminated` that what is written so far does not end inside a line. -/
def withBlock (slot : Slot) (block : Bytes) (placed terminated : Bool) : List Line → Bytes
  | [] => if placed then [] else onNewLine terminated block
  | line :: rest =>
    let reached : Bool := slot.above < line.number
    let kept : Bool := line.number ≤ slot.above || slot.below ≤ line.number
    (if reached && !placed then onNewLine terminated block else []) ++
      (if kept then line.raw else []) ++
      withBlock slot block (placed || reached) (if kept then line.isTerminated else terminated) rest

namespace Setting

def slotIn (s : Setting) (content : Bytes) : Slot :=
  Slot.find s.sectionName s.key (Line.scan content)

def applyTo (s : Setting) (content : Bytes) : Bytes :=
  let slot := s.slotIn content
  withBlock slot (encode (s.render slot.hasSection)) false true (Line.scan content)

end Setting

end Keyfile
