import SpaceLink.Can.Fragmenter
import SpaceLink.CommandLine.Report
import SpaceLink.CommandLine.World

/-! # Showing fragments

How a payload would go over a bus with extended identifiers, frame by frame.
-/
namespace SpaceLink.FragmentOptions
open Presentation (FrameRow)

def canConfig (options : FragmentOptions) : CanConfig := ⟨.extended, options.frameData⟩

def rows (options : FragmentOptions) (fragmenter : Fragmenter) (payload : Bytes) :
    Except CanError (List FrameRow) := do
  let frames ← (fragmenter.fragment options.src options.dst payload).1
  (frames.mapIdx Prod.mk).mapM fun (index, frame) => do
    let onBus ← Fragment.toCan options.canConfig.layout frame
    return ⟨index, frame, onBus.id⟩

def cut (options : FragmentOptions) (payload : Bytes) : Except Failure (List FrameRow) := do
  let fragmenter ← (Fragmenter.of options.canConfig).mapError (.ofCan "invalid frame size")
  (options.rows fragmenter payload).mapError (.ofCan "fragment failed")

/-- Tells of a payload that has been cut. All its frames have one transaction. -/
def record (options : FragmentOptions) (payload : Bytes) (rows : List FrameRow) : LogRecord where
  level := .debug
  message := "fragmented payload"
  fields := [("src", .natural options.src.toNat), ("dst", .natural options.dst.toNat),
    ("transaction_id", .ofOption (rows.head?.map fun row => .natural row.transaction)),
    ("frames", .natural rows.length), ("bytes", .natural payload.length)]

def run (world : World) (format : OutputFormat) (options : FragmentOptions) :
    Except Failure Report := do
  let payload ← world.payload options.payload
  let rows ← options.cut payload
  return {
    output := (Presentation.ofFrames rows).render format
    log := [options.record payload rows] }

end SpaceLink.FragmentOptions
