import SpaceLink.Bytes
import SpaceLink.Can.Identifier

/-! # Frames

A frame on the bus has a raw identifier; a fragment is a frame whose identifier has been read under a
layout.
-/
namespace SpaceLink

structure CanFrame where
  id : UInt32
  data : Bytes
  deriving DecidableEq

structure Fragment where
  identifier : Identifier
  data : Bytes
  deriving DecidableEq

/-- Settings that the nodes of a bus share. -/
structure CanConfig where
  layout : Layout
  maxFrameData : Nat := 8
  deriving DecidableEq

namespace CanConfig

def classicFrameData : Nat := 8
def largeFrameData : Nat := 64

def classic (layout : Layout) : CanConfig := ⟨layout, classicFrameData⟩

def validate (c : CanConfig) : Except CanError Unit := do
  c.layout.validate
  if 1 ≤ c.maxFrameData ∧ c.maxFrameData ≤ largeFrameData then return ()
  else throw (.invalidFrameCapacity c.maxFrameData)

end CanConfig

namespace Fragment

def toCan (layout : Layout) (f : Fragment) : Except CanError CanFrame := do
  if CanConfig.largeFrameData < f.data.length then
    throw (.frameDataTooLarge f.data.length CanConfig.largeFrameData)
  return ⟨← layout.pack f.identifier, f.data⟩

def ofCan (layout : Layout) (frame : CanFrame) : Except CanError Fragment := do
  return ⟨← layout.unpack frame.id, frame.data⟩

end Fragment
end SpaceLink
