import SpaceLink.CommandLine.World
import SpaceLink.Link.PacketListener

/-! # Listening from the command line

An open socket takes one peer after the other and shows what they send, until as many messages have
been shown as were asked for.
-/
namespace SpaceLink

structure Listening where
  listener : PacketListener
  format : OutputFormat
  raw : Bool
  /-- How many messages are still to come, if they are counted. -/
  left : Option Nat

namespace Listening

/-- Opens the socket. One message is shown at least. -/
def bind (world : World) (format : OutputFormat) (options : ListenOptions) :
    Except Failure Listening := do
  let config ← world.linkConfig options.config options.apid
  let listener ← (PacketListener.bind world.network options.address config).mapError
    (.ofLink "bind failed")
  return ⟨listener, format, options.raw, options.count.map (max 1)⟩

def record (l : Listening) : LogRecord where
  level := .info
  message := "waiting for links"
  fields := [("address", .text l.listener.address)]

def payloadOf (l : Listening) (message : Message) : Bytes :=
  if l.raw then message.body else Payload.decode l.listener.config.codec message.body

def isDone (l : Listening) : Bool := l.left == some 0

/-- Shows what a peer sends until its stream ends, but no more messages than are to come. -/
def serve (l : Listening) (peer : SocketName) (arriving : Source) (time : Nat) :
    Except Failure (Bytes × Listening) := do
  let link ← (l.listener.accept peer).mapError (.ofLink "accept failed")
  let messages := (link.hearAll arriving).inbox.waiting
  let messages := messages.take (l.left.getD messages.length)
  let shown := messages.flatMap fun message =>
    (Presentation.ofMessage message (l.payloadOf message) time).render l.format
  return (shown, { l with left := l.left.map (· - messages.length) })

end Listening
end SpaceLink
