import SpaceLink.Link.Error
import SpaceLink.Packet.Header
import SpaceLink.Text.Split

/-! # Addresses

The text address of a packet link: an optional scheme, the name of a socket, and an optional number of
an application. Parsing undoes printing.
-/
namespace SpaceLink

def packetScheme : String := "malspp"
def canScheme : String := "malcan"

def canAddress (node : UInt32) : String := canScheme ++ s!"://{node.toNat}"

/-- An address whose socket is kept under the name that was given. -/
structure PacketAddress where
  authority : String
  apid : Option UInt16
  deriving DecidableEq

namespace PacketAddress

def render (a : PacketAddress) : String :=
  packetScheme ++ "://" ++ a.authority ++
    match a.apid with
    | some apid => s!"/{apid.toNat}"
    | none => ""

/-- What stands behind the scheme, if that is the right one or missing. -/
def withoutScheme (text : List Char) : Except String (List Char) :=
  match Text.splitFirst? [':', '/', '/'] text with
  | none => .ok text
  | some (scheme, rest) =>
    if scheme = packetScheme.toList then .ok rest
    else .error ("unsupported scheme `" ++ String.ofList scheme ++ "`")

/-- The number of the application; nothing stands for none. -/
def readApid (text : List Char) : Except String (Option UInt16) :=
  if text.isEmpty then .ok none
  else match Text.word16? text with
    | none => .error "apid is not a number"
    | some n => if Header.maxApid < n then .error "apid exceeds 2047" else .ok (some n)

/-- A host that is not empty, and a number behind the last colon. -/
def isAuthority (text : List Char) : Bool :=
  match Text.splitLast? ':' text with
  | some (host, number) => !host.isEmpty && (Text.word16? number).isSome
  | none => false

def parts (text : List Char) : Except String PacketAddress := do
  let rest ← withoutScheme text
  let (authority, apid) := (Text.splitFirst? ['/'] rest).getD (rest, [])
  let apid ← readApid apid
  if isAuthority authority then return ⟨String.ofList authority, apid⟩
  else throw "expected host:port"

def parse (text : String) : Except LinkError PacketAddress :=
  (parts text.toList).mapError (.invalidAddress text)

end PacketAddress
end SpaceLink
