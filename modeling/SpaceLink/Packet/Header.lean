import SpaceLink.BitField
import SpaceLink.Bytes

/-! # Packet headers

The primary header of a space packet: two words of packed fields and the length of the data field.
A field that is wider than its slot is cut to it; `isValid` says that nothing is cut.
-/
namespace SpaceLink

inductive PacketType where
  | telemetry | telecommand
  deriving DecidableEq

namespace PacketType

def bit : PacketType → UInt64
  | telemetry => 0
  | telecommand => 1

def ofBit (bit : UInt64) : PacketType := if bit = 0 then telemetry else telecommand

def name : PacketType → String
  | telemetry => "telemetry"
  | telecommand => "telecommand"

def label : PacketType → String
  | telemetry => "Telemetry"
  | telecommand => "Telecommand"

def all : List PacketType := [telemetry, telecommand]

def ofName? (name : String) : Option PacketType := all.find? (·.name == name)

end PacketType

/-- The place of a packet in its message. -/
inductive SequenceFlags where
  | continuation | first | last | unsegmented
  deriving DecidableEq

namespace SequenceFlags

def bits : SequenceFlags → UInt64
  | continuation => 0
  | first => 1
  | last => 2
  | unsegmented => 3

def ofBits (bits : UInt64) : SequenceFlags :=
  if bits = 0 then continuation else if bits = 1 then first else if bits = 2 then last
  else unsegmented

def name : SequenceFlags → String
  | continuation => "continuation"
  | first => "first"
  | last => "last"
  | unsegmented => "unsegmented"

def label : SequenceFlags → String
  | continuation => "Continuation"
  | first => "First"
  | last => "Last"
  | unsegmented => "Unsegmented"

def all : List SequenceFlags := [continuation, first, last, unsegmented]

def ofName? (name : String) : Option SequenceFlags := all.find? (·.name == name)

end SequenceFlags

/-- A primary header without its length field, which follows from the body. -/
structure Header where
  version : UInt8 := 0
  packetType : PacketType := .telemetry
  secondaryHeader : Bool := false
  apid : UInt16 := 0
  sequenceFlags : SequenceFlags := .unsegmented
  sequenceCount : UInt16 := 0
  deriving DecidableEq

namespace Header

def size : Nat := 6
def maxVersion : UInt8 := 7
def maxApid : UInt16 := 2047
def maxSequenceCount : UInt16 := 16383
def countWrap : UInt64 := 16384

def versionField : BitField := ⟨13, 3, by decide, by decide⟩
def typeField : BitField := ⟨12, 1, by decide, by decide⟩
def secondaryField : BitField := ⟨11, 1, by decide, by decide⟩
def apidField : BitField := ⟨0, 11, by decide, by decide⟩
def flagsField : BitField := ⟨14, 2, by decide, by decide⟩
def countField : BitField := ⟨0, 14, by decide, by decide⟩

def telemetry (apid sequenceCount : UInt16) : Header :=
  { apid := apid, sequenceCount := sequenceCount }

def telecommand (apid sequenceCount : UInt16) : Header :=
  { telemetry apid sequenceCount with packetType := .telecommand }

def isValid (h : Header) : Bool :=
  h.version ≤ maxVersion && h.apid ≤ maxApid && h.sequenceCount ≤ maxSequenceCount

/-- The word that identifies the packet. -/
def identification (h : Header) : UInt64 :=
  apidField.insertLow
    (secondaryField.insertLow
      (typeField.insertLow (versionField.insertLow 0 h.version.toUInt64) h.packetType.bit)
      h.secondaryHeader.toUInt64)
    h.apid.toUInt64

/-- The word that orders the packet. -/
def control (h : Header) : UInt64 :=
  countField.insertLow (flagsField.insertLow 0 h.sequenceFlags.bits) h.sequenceCount.toUInt64

def toBytes (h : Header) (lengthField : UInt16) : Bytes :=
  Bytes.ofWord 2 h.identification.toNat ++ Bytes.ofWord 2 h.control.toNat ++
    Bytes.ofWord 2 lengthField.toNat

def ofWords (identification control : UInt64) : Header where
  version := (versionField.extract identification).toUInt8
  packetType := .ofBit (typeField.extract identification)
  secondaryHeader := secondaryField.extract identification == 1
  apid := (apidField.extract identification).toUInt16
  sequenceFlags := .ofBits (flagsField.extract control)
  sequenceCount := (countField.extract control).toUInt16

/-- Reads six bytes as a header and its length field. -/
def ofBytes (bytes : Bytes) : Header × UInt16 :=
  let wordAt (start : Nat) : Nat := Bytes.word ((bytes.drop start).take 2)
  (ofWords (UInt64.ofNat (wordAt 0)) (UInt64.ofNat (wordAt 2)), UInt16.ofNat (wordAt 4))

end Header
end SpaceLink
