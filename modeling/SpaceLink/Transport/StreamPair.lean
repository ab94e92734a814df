import SpaceLink.Bytes
import SpaceLink.Transport.Error

/-! # Connected streams

Two ends with a stream of bytes in each direction: what one end writes waits in order until the other
reads it. Shutting down either end stops both directions, so that nothing more is written, and both
streams end behind the bytes that wait.
-/
namespace SpaceLink

inductive StreamEnd where
  | left | right
  deriving DecidableEq

def StreamEnd.other : StreamEnd → StreamEnd
  | left => right
  | right => left

/-- What one end holds: the bytes that wait for it, and for how many milliseconds it waits. -/
structure StreamHalf where
  waiting : Bytes := []
  readTimeout : Option Nat := none
  writeTimeout : Option Nat := none

structure StreamPair where
  left : StreamHalf := {}
  right : StreamHalf := {}
  isShut : Bool := false

namespace StreamPair

def label : String := "unix:pair"

def description : String := "LinkStream \x7b type: \"unix\" \x7d"

def half (pair : StreamPair) : StreamEnd → StreamHalf
  | .left => pair.left
  | .right => pair.right

def setHalf (pair : StreamPair) (side : StreamEnd) (half : StreamHalf) : StreamPair :=
  match side with
  | .left => { pair with left := half }
  | .right => { pair with right := half }

def setWaiting (pair : StreamPair) (side : StreamEnd) (waiting : Bytes) : StreamPair :=
  pair.setHalf side { pair.half side with waiting := waiting }

/-- Writes all of `bytes`. Nothing to write cannot fail. -/
def write (pair : StreamPair) (side : StreamEnd) (bytes : Bytes) :
    Except IoError Unit × StreamPair :=
  if bytes.isEmpty then (.ok (), pair)
  else if pair.isShut then (.error .brokenPipe, pair)
  else (.ok (), pair.setWaiting side.other ((pair.half side.other).waiting ++ bytes))

/-- How a read ends that has met the last of the bytes that wait. While more may come and the read
has all the time, it does not end. -/
def exhausted (pair : StreamPair) (side : StreamEnd) (atEnd : Except IoError Bytes) :
    Option (Except IoError Bytes) :=
  if pair.isShut then some atEnd
  else if (pair.half side).readTimeout.isSome then some (.error .wouldBlock)
  else none

/-- Reads `length` bytes. A read that fails has taken what was there. -/
def read (pair : StreamPair) (side : StreamEnd) (length : Nat) :
    Option (Except IoError Bytes) × StreamPair :=
  let waiting := (pair.half side).waiting
  if length ≤ waiting.length then
    (some (.ok (waiting.take length)), pair.setWaiting side (waiting.drop length))
  else (pair.exhausted side (.error .cutShort), pair.setWaiting side [])

def readToEnd (pair : StreamPair) (side : StreamEnd) :
    Option (Except IoError Bytes) × StreamPair :=
  (pair.exhausted side (.ok (pair.half side).waiting), pair.setWaiting side [])

/-- Shuts down both directions; a second time does nothing. -/
def shutDown (pair : StreamPair) : StreamPair := { pair with isShut := true }

def setReadTimeout (pair : StreamPair) (side : StreamEnd) (timeout : Option Nat) :
    Except TransportError StreamPair := do
  checkTimeout timeout
  return pair.setHalf side { pair.half side with readTimeout := timeout }

def setWriteTimeout (pair : StreamPair) (side : StreamEnd) (timeout : Option Nat) :
    Except TransportError StreamPair := do
  checkTimeout timeout
  return pair.setHalf side { pair.half side with writeTimeout := timeout }

end StreamPair
end SpaceLink
