import SpaceLink.Packet.Basic
import SpaceLink.Pieces
import SpaceLink.SequenceCounter

/-! # Segmentation

A body is cut into packets that carry consecutive sequence counts; the flags say which packet opens
the message and which closes it.
-/
namespace SpaceLink

/-- Version, type, application and secondary header flag of each packet come from the template. -/
structure Segmenter where
  template : Header
  qualifier : UInt16
  maxBody : Nat
  counter : SequenceCounter

namespace Segmenter

/-- No piece is empty or longer than a data field. -/
def of (template : Header) (qualifier : UInt16) (maxBody : Nat) : Segmenter :=
  ⟨template, qualifier, max 1 (min maxBody Framing.maxDataField), .fresh Header.countWrap (by decide)⟩

def flagsFor (index total : Nat) : SequenceFlags :=
  if total = 1 then .unsegmented
  else if index = 0 then .first
  else if index + 1 = total then .last
  else .continuation

def packetFor (s : Segmenter) (total index : Nat) (count : UInt64) (piece : Bytes) : Packet where
  header := { s.template with
    sequenceFlags := flagsFor index total
    sequenceCount := count.toUInt16 }
  qualifier := s.qualifier
  body := piece

/-- Cuts a body into packets, in the order in which they are to be sent. -/
def segment (s : Segmenter) (body : Bytes) : List Packet × Segmenter :=
  let total := Pieces.count s.maxBody body.length
  let (counts, counter) := s.counter.increment (Int64.ofNat total)
  let numbered := counts.toList.zip (Pieces.cut s.maxBody body)
  (numbered.mapIdx fun index (count, piece) => s.packetFor total index count piece,
    { s with counter := counter })

end Segmenter
end SpaceLink
