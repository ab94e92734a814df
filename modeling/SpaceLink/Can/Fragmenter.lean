import SpaceLink.Can.Frame
import SpaceLink.Pieces
import SpaceLink.SequenceCounter

/-! # Fragmentation

A payload is cut into the frames of one transaction, which count down to zero. A number is drawn for
the transaction only when all its identifiers are known to fit.
-/
namespace SpaceLink

structure Fragmenter where
  config : CanConfig
  transactions : SequenceCounter

namespace Fragmenter

/-- Starts before transaction zero. A valid layout has a bit for transactions at least, and far
less than a word. -/
def of (config : CanConfig) : Except CanError Fragmenter := do
  config.validate
  match SequenceCounter.fresh? (UInt64.ofNat config.layout.transactionWrap) with
  | some counter => .ok ⟨config, counter⟩
  | none => .error (.transport (.invalidWrap 0))

def framesFor (f : Fragmenter) (length : Nat) : Nat := Pieces.count f.config.maxFrameData length

def typeFor (index total : Nat) : FrameType :=
  if index = 0 then .start else if index + 1 = total then .last else .continuation

def frameFor (src dst transaction : UInt32) (total index : Nat) (piece : Bytes) : Fragment :=
  ⟨⟨src, dst, typeFor index total, UInt32.ofNat (total - 1 - index), transaction⟩, piece⟩

/-- Cuts a payload into frames from `src` to `dst`, under the next transaction number. -/
def fragment (f : Fragmenter) (src dst : UInt32) (payload : Bytes) :
    Except CanError (List Fragment) × Fragmenter :=
  let total := f.framesFor payload.length
  if f.config.layout.maxFrames < total then
    (.error (.payloadTooLarge payload.length total f.config.layout.maxFrames), f)
  else match f.config.layout.pack ⟨src, dst, .start, UInt32.ofNat (total - 1), 0⟩ with
    | .error error => (.error error, f)
    | .ok _ =>
      let (transaction, transactions) := f.transactions.next
      (.ok ((Pieces.cut f.config.maxFrameData payload).mapIdx
          fun index piece => frameFor src dst transaction.toUInt32 total index piece),
        { f with transactions := transactions })

def retransmissionRequest (src dst transaction : UInt32) : Fragment :=
  ⟨⟨src, dst, .retransmit, 0, transaction⟩, []⟩

end Fragmenter
end SpaceLink
