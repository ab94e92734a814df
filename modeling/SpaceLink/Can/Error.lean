import SpaceLink.Transport.Error

/-! # Fragmentation errors -/
namespace SpaceLink

inductive CanError where
  | invalidLayout (reason : String)
  | fieldOverflow (field : String) (value width : Nat)
  | invalidFrameCapacity (capacity : Nat)
  | frameDataTooLarge (length max : Nat)
  | payloadTooLarge (size frames maxFrames : Nat)
  | sequenceAnomaly (src dst transaction expected found : UInt32)
  | unknownTransaction (src dst transaction : UInt32)
  | busClosed
  | transport (error : TransportError)
  deriving DecidableEq

namespace CanError

private def route (src dst transaction : UInt32) : String :=
  s!"transaction {transaction.toNat} ({src.toNat}->{dst.toNat})"

def message : CanError → String
  | invalidLayout reason => "invalid identifier layout: " ++ reason
  | fieldOverflow field value width => field ++ s!" value {value} does not fit in {width} bits"
  | invalidFrameCapacity capacity =>
    s!"invalid frame data capacity {capacity} (must be 1..=64)"
  | frameDataTooLarge length max => s!"frame data too large ({length} bytes, max {max})"
  | payloadTooLarge size frames maxFrames =>
    s!"payload too large ({size} bytes needs {frames} frames, max {maxFrames})"
  | sequenceAnomaly src dst transaction expected found =>
    "sequence anomaly in " ++ route src dst transaction ++
      s!": expected remain {expected.toNat}, found {found.toNat}"
  | unknownTransaction src dst transaction => "no open " ++ route src dst transaction
  | busClosed => "CAN bus closed"
  | transport error => error.message

end CanError
end SpaceLink
