import SpaceLink.Packet.Wire

/-! # Packet writers

A writer has one buffer for all of its calls. A call clears it, gathers its packets there, sends
them in one go and flushes. A packet without an encoding ends the call before the sink hears of it;
what has been gathered by then, or could not be sent, stays in the buffer until the next call.
-/
namespace SpaceLink

structure PacketWriter where
  framing : Framing
  sink : Sink
  buffer : Gathered := .empty

namespace PacketWriter

def clear (writer : PacketWriter) : PacketWriter := { writer with buffer := .empty }

/-- Sends what has been gathered, and flushes. -/
def writeBuffered (writer : PacketWriter) : Except PacketError Unit × PacketWriter :=
  let (result, sink) := writer.sink.send writer.buffer.bytes
  (result.mapError PacketError.ofSink, { writer with sink := sink })

/-- Gathers what a step writes, and sends it unless the step fails. -/
def gather (writer : PacketWriter) (step : PacketWriting) :
    Except PacketError Unit × PacketWriter :=
  match step writer.buffer with
  | (.error error, buffer) => (.error error, { writer with buffer := buffer })
  | (.ok (), buffer) => writeBuffered { writer with buffer := buffer }

def write (writer : PacketWriter) (p : Packet) : Except PacketError Unit × PacketWriter :=
  writer.clear.gather (PacketWriting.packet writer.framing p)

def writeAll (writer : PacketWriter) (packets : List Packet) :
    Except PacketError Unit × PacketWriter :=
  writer.clear.gather (packets.forM (PacketWriting.packet writer.framing))

end PacketWriter
end SpaceLink
