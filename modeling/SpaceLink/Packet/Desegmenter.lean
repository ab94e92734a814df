import SpaceLink.Gathered
import SpaceLink.Packet.Basic
import SpaceLink.Packet.Error
import SpaceLink.Store

/-! # Joining segments

Segments of one message are joined as long as their counts follow each other. Whatever breaks the
row discards the message in progress, and only that of the same qualifier and application.
-/
namespace SpaceLink

/-- A message in progress: its first packet, what has come so far, and the last count seen. -/
structure PartialMessage where
  first : Packet
  body : Gathered
  lastCount : UInt16

abbrev ApplicationKey := UInt16 × UInt16

structure Desegmenter where
  maxMessageSize : Nat
  inProgress : Store ApplicationKey PartialMessage := {}

namespace Desegmenter

/-- Sixteen mebibytes. -/
def defaultMaxMessageSize : Nat := 16 * 1024 * 1024

def of (maxMessageSize : Nat) : Desegmenter := { maxMessageSize := maxMessageSize }

def pending (d : Desegmenter) : Nat := d.inProgress.size

def keyOf (p : Packet) : ApplicationKey := (p.qualifier, p.header.apid)

/-- The count after `count`, in fourteen bits. -/
def nextCount (count : UInt16) : UInt16 := ((count.toUInt64 + 1) % Header.countWrap).toUInt16

def checkSize (d : Desegmenter) (size : Nat) : Except PacketError Unit :=
  if d.maxMessageSize < size then .error (.messageTooLarge size d.maxMessageSize) else .ok ()

/-- Joins a packet to the message in progress, if it is the next one and the message may grow. -/
def extend (d : Desegmenter) (p : Packet) : Option PartialMessage → Except PacketError PartialMessage
  | none => .error (.sequenceAnomaly p.header.apid none p.header.sequenceCount)
  | some started => do
    let expected := nextCount started.lastCount
    if p.header.sequenceCount ≠ expected then
      throw (.sequenceAnomaly p.header.apid (some expected) p.header.sequenceCount)
    d.checkSize (started.body.size + p.body.length)
    return { started with body := started.body.append p.body, lastCount := p.header.sequenceCount }

def finish (m : PartialMessage) : Packet :=
  { m.first with
    header := { m.first.header with sequenceFlags := .unsegmented }
    body := m.body.bytes }

/-- Takes a packet in, and gives the message that it completes. -/
def accept (d : Desegmenter) (p : Packet) : Except PacketError (Option Packet) × Desegmenter :=
  let key := keyOf p
  let cleared := { d with inProgress := d.inProgress.erase key }
  let store (m : PartialMessage) : Desegmenter :=
    { d with inProgress := d.inProgress.insert key m }
  match p.header.sequenceFlags with
  | .unsegmented => ((d.checkSize p.body.length).map fun _ => some p, cleared)
  | .first =>
    match d.checkSize p.body.length with
    | .error error => (.error error, cleared)
    | .ok () => (.ok none, store ⟨p, .of p.body, p.header.sequenceCount⟩)
  | .continuation =>
    match d.extend p (d.inProgress.get? key) with
    | .error error => (.error error, cleared)
    | .ok m => (.ok none, store m)
  | .last =>
    match d.extend p (d.inProgress.get? key) with
    | .error error => (.error error, cleared)
    | .ok m => (.ok (some (finish m)), cleared)

end Desegmenter
end SpaceLink
