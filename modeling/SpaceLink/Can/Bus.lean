import SpaceLink.Can.Frame

/-! # The loopback bus

A bus inside one program: what is sent at one tap waits at every other open tap, in order. A loss
rule may take frames out on their way. It is asked once for each frame sent, and may go by all the
frames that it has been asked about before.
-/
namespace SpaceLink

/-- Decides by the earlier frames and the frame at hand whether that one is lost. -/
abbrev LossRule := List CanFrame → CanFrame → Bool

structure BusTap where
  number : Nat
  isOpen : Bool := true
  /-- Still taking part in the bus; a tap that was given up does not, even if nobody shut it. -/
  attached : Bool := true
  waiting : List CanFrame := []

structure LoopbackBus where
  taps : List BusTap := []
  loss : Option LossRule := none
  /-- The frames that the loss rule has been asked about, the latest first. -/
  offered : List CanFrame := []

namespace BusTap

def describe (p : BusTap) : String :=
  s!"LoopbackPort \x7b id: {p.number}, closed: {!p.isOpen} \x7d"

end BusTap

namespace LoopbackBus

/-- Taps are numbered in the order in which they are opened. -/
def openTap (bus : LoopbackBus) : BusTap × LoopbackBus :=
  let tap : BusTap := { number := bus.taps.length }
  (tap, { bus with taps := bus.taps ++ [tap] })

def tapCount (bus : LoopbackBus) : Nat := bus.taps.countP (·.attached)

def describe (bus : LoopbackBus) : String := s!"LoopbackBus \x7b ports: {bus.tapCount} \x7d"

def modify (bus : LoopbackBus) (number : Nat) (change : BusTap → BusTap) : LoopbackBus :=
  { bus with taps := bus.taps.map fun p => if p.number = number then change p else p }

/-- From now on the rule decides; it starts with no frames behind it. -/
def setLoss (bus : LoopbackBus) (rule : Option LossRule) : LoopbackBus :=
  { bus with loss := rule, offered := [] }

/-- The frame goes to all attached taps but the one that it comes from. -/
def broadcast (bus : LoopbackBus) (number : Nat) (frame : CanFrame) : LoopbackBus :=
  { bus with taps := bus.taps.map fun p =>
      if p.attached && p.number != number then { p with waiting := p.waiting ++ [frame] } else p }

/-- Sends from an open tap. A frame that is lost counts as sent. -/
def send (bus : LoopbackBus) (number : Nat) (frame : CanFrame) :
    Except CanError Unit × LoopbackBus :=
  if !(bus.taps.any fun p => p.number = number && p.isOpen) then (.error .busClosed, bus)
  else match bus.loss with
    | none => (.ok (), bus.broadcast number frame)
    | some rule =>
      let asked := { bus with offered := frame :: bus.offered }
      if rule bus.offered frame then (.ok (), asked) else (.ok (), asked.broadcast number frame)

/-- The next frame that waits at a tap. Without one, a tap that takes no part in the bus any more
reports the end, and any other waits: then there is no result. -/
def receive? (bus : LoopbackBus) (number : Nat) : Option (Except CanError CanFrame) × LoopbackBus :=
  match bus.taps.find? (·.number = number) with
  | none => (some (.error .busClosed), bus)
  | some tap =>
    match tap.waiting with
    | frame :: rest => (some (.ok frame), bus.modify number fun p => { p with waiting := rest })
    | [] => (if tap.attached then none else some (.error .busClosed), bus)

def shutdown (bus : LoopbackBus) (number : Nat) : LoopbackBus :=
  bus.modify number fun p => { p with isOpen := false, attached := false }

def drop (bus : LoopbackBus) (number : Nat) : LoopbackBus :=
  bus.modify number fun p => { p with attached := false, waiting := [] }

/-- Everything that waits at a tap, up to its first failure or until it would have to wait. -/
def drain (number : Nat) : Nat → LoopbackBus → List (Except CanError CanFrame) × LoopbackBus
  | 0, bus => ([], bus)
  | steps + 1, bus =>
    match bus.receive? number with
    | (some (.ok frame), bus) =>
      let (rest, bus) := drain number steps bus
      (.ok frame :: rest, bus)
    | (some (.error error), bus) => ([.error error], bus)
    | (none, bus) => ([], bus)

def waitingAt (bus : LoopbackBus) (number : Nat) : Nat :=
  ((bus.taps.find? (·.number = number)).map fun p => p.waiting.length).getD 0

end LoopbackBus
end SpaceLink
