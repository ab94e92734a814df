import SpaceLink.Link.PacketLink
import SpaceLink.Transport.Network

/-! # Packet links over a network

A packet link starts by connecting to a listener, or by accepting what connects. The number in an
address goes before the one in the configuration.
-/
namespace SpaceLink

/-- The configuration with the number that the address gives. -/
def PacketAddress.configure (address : PacketAddress) (config : PacketLinkConfig) :
    PacketLinkConfig :=
  match address.apid with
  | some apid => { config with apid := apid }
  | none => config

/-- Connects to the listener at an address. The configuration is looked at when the connection
stands. -/
def PacketLink.connect (network : Network) (address : String) (config : PacketLinkConfig) :
    Except LinkError PacketLink := do
  let address ← PacketAddress.parse address
  let connection ← (network.connect address.authority).mapError .transport
  PacketLink.ofStream connection.sink connection.near.render connection.far.render
    (address.configure config)

structure PacketListener where
  name : SocketName
  config : PacketLinkConfig

namespace PacketListener

def bind (network : Network) (address : String) (config : PacketLinkConfig) :
    Except LinkError PacketListener := do
  let address ← PacketAddress.parse address
  let config := address.configure config
  config.validate
  return ⟨← (network.bind address.authority).mapError .transport, config⟩

def address (listener : PacketListener) : String :=
  (PacketAddress.mk listener.name.render (some listener.config.apid)).render

def accept (listener : PacketListener) (peer : SocketName) : Except LinkError PacketLink :=
  PacketLink.ofStream {} listener.name.render peer.render listener.config

end PacketListener
end SpaceLink
