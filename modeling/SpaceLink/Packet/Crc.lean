import SpaceLink.Bytes

/-! # Checksums

Cyclic redundancy checks of sixteen bits, one bit at a time. A variant is a generator polynomial, a
start value and a bit order; where the lowest bit comes first, the polynomial is written with its
bits reversed and the register shifts down.
-/
namespace SpaceLink

inductive Crc where
  | ccittFalse | xmodem | kermit | arc
  deriving DecidableEq

/-- The register of a check: its feedback word, what it starts from, and whether the lowest bit of a
byte comes first. -/
structure CrcRegister where
  feedback : UInt16
  start : UInt16
  lowFirst : Bool

namespace CrcRegister

def shift (r : CrcRegister) (state : UInt16) : UInt16 :=
  if r.lowFirst then
    if state &&& 1 = 1 then (state >>> 1) ^^^ r.feedback else state >>> 1
  else
    if state &&& 0x8000 = 0x8000 then (state <<< 1) ^^^ r.feedback else state <<< 1

def feed (r : CrcRegister) (state : UInt16) (byte : UInt8) : UInt16 :=
  let mixed := state ^^^ if r.lowFirst then byte.toUInt16 else byte.toUInt16 <<< 8
  Nat.repeat r.shift 8 mixed

def run (r : CrcRegister) (bytes : Bytes) : UInt16 := bytes.foldl r.feed r.start

end CrcRegister

namespace Crc

def size : Nat := 2

def default : Crc := ccittFalse

def register : Crc → CrcRegister
  | ccittFalse => ⟨0x1021, 0xFFFF, false⟩
  | xmodem => ⟨0x1021, 0, false⟩
  | kermit => ⟨0x8408, 0, true⟩
  | arc => ⟨0xA001, 0, true⟩

def checksum (crc : Crc) (header body : Bytes) : UInt16 := crc.register.run (header ++ body)

def name : Crc → String
  | ccittFalse => "ccitt_false"
  | xmodem => "xmodem"
  | kermit => "kermit"
  | arc => "arc"

def all : List Crc := [ccittFalse, xmodem, kermit, arc]

def ofName? (name : String) : Option Crc := all.find? (·.name == name)

end Crc
end SpaceLink
