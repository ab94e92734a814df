import SpaceLink.CommandLine.Invocation
import SpaceLink.Link.ConfigFile
import SpaceLink.Transport.Network

/-! # The outside of a command

All that a command gets from outside its arguments: the contents of files, the answers of the
network, and facts about the machine.
-/
namespace SpaceLink

/-- What a program says about the machine that it was built for. -/
structure BuildFacts where
  system : String := "unknown"
  architecture : String := "unknown"
  target : String := "unknown"
  compiler : String := "unknown"
  revision : String := "unknown"

structure World where
  file : String → Except IoError Bytes
  network : Network
  build : BuildFacts := {}
  terminal : Bool := false

namespace World

def configFile (world : World) (path : String) : Except LinkError PacketLinkConfig := do
  let contents ← (world.file path).mapError (LinkError.configFile path)
  loadConfig PacketLinkConfig.ofJson? path contents

/-- The configuration of a link, from a file or by default. A number in the arguments goes before
the one in the file. -/
def linkConfig (world : World) (path : Option String) (apid : Option UInt16) :
    Except Failure PacketLinkConfig := do
  let config ← match path with
    | none => pure {}
    | some path => (world.configFile path).mapError (.ofLink "invalid config")
  return match apid with
    | some apid => { config with apid := apid }
    | none => config

def payload (world : World) : PayloadSource → Except Failure Bytes
  | .nothing => .ok []
  | .text text => .ok (utf8 text)
  | .file path => (world.file path).mapError (.ofIo ("failed reading " ++ path))

end World
end SpaceLink
