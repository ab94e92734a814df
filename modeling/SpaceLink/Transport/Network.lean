import SpaceLink.Io.Sink
import SpaceLink.Transport.Error
import SpaceLink.Transport.Host

/-! # Networks

What the outside answers to a program that looks for a host, opens a socket or connects to one. The
name of a socket is a host and a number behind the last colon.
-/
namespace SpaceLink

structure SocketName where
  host : String
  number : UInt16
  deriving DecidableEq

namespace SocketName

def render (name : SocketName) : String := name.host ++ s!":{name.number.toNat}"

def parse (text : String) : Except IoError SocketName :=
  match Text.splitLast? ':' text.toList with
  | none => .error .invalidSocketAddress
  | some (host, number) =>
    match Text.word16? number with
    | some number => .ok ⟨String.ofList host, number⟩
    | none => .error .invalidSocketNumber

end SocketName

/-- A connection that stands: the names of its two ends, and what becomes of bytes written to it. -/
structure Connection where
  near : SocketName
  far : SocketName
  sink : Sink := {}

structure Network where
  /-- The address of a host in its usual writing. -/
  lookup : String → Except IoError String
  /-- Opens a socket to listen at, and gives its name. Number zero stands for any that is free. -/
  listen : SocketName → Except IoError SocketName
  dial : SocketName → Except IoError Connection

namespace Network

/-- The first of the numbers that are given out for zero. -/
def firstFree : UInt16 := 32768

/-- The one name that a machine knows by itself. -/
def ownName : String := "localhost"

/-- Finds a host without asking another machine. -/
def lookupAlone (text : String) : Except IoError String :=
  if text.contains '\x00' then .error .zeroInText
  else match Host.read? text.toList with
    | some host => .ok host.render
    | none =>
      if text.toLower = ownName then .ok Host.loopback.render
      else .error (if Host.isName text.toList then .nameUnanswered else .nameUnknown)

def isLong (name : SocketName) : Bool := ((Host.read? name.host.toList).map Host.isLong).getD false

def isUnspecified (name : SocketName) : Bool :=
  ((Host.read? name.host.toList).map Host.isUnspecified).getD false

/-- A machine from which no route leads anywhere, and which has no long address. Sockets can be
opened, but for those in use. -/
def isolated (inUse : List SocketName) : Network where
  lookup := lookupAlone
  listen name :=
    if name ∈ inUse then .error .addressInUse
    else if isLong name && !isUnspecified name then .error .addressNotAvailable
    else .ok (if name.number = 0 then { name with number := firstFree } else name)
  dial name := .error (if isLong name then .addressNotAvailable else .networkUnreachable)

/-- The socket of a name. A name that cannot be read, or whose host is not found, is a failure to
connect. -/
def find (network : Network) (address : String) : Except TransportError SocketName := do
  let name ← (SocketName.parse address).mapError (.connect address)
  let host ← (network.lookup name.host).mapError (.connect address)
  return { name with host := host }

def bind (network : Network) (address : String) : Except TransportError SocketName := do
  let name ← network.find address
  (network.listen name).mapError (.bind name.render)

def connect (network : Network) (address : String) : Except TransportError Connection := do
  let name ← network.find address
  (network.dial name).mapError (.connect address)

end Network
end SpaceLink
