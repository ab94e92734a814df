import SpaceLink.CommandLine.Run
import Std.Async.DNS
import Std.Async.TCP

/-! # The program

Files, sockets and the standard streams for the commands, which decide all else.
-/
namespace SpaceLink.Program
open Std.Net Std.Async

def numberOf : IO.Error → Option UInt32
  | .otherError n _ | .resourceBusy n _ | .resourceVanished n _ | .unsupportedOperation n _
  | .hardwareFault n _ | .unsatisfiedConstraints n _ | .illegalOperation n _ | .protocolError n _
  | .timeExpired n _ | .alreadyExists _ n _ | .interrupted _ n _ | .noFileOrDirectory _ n _
  | .invalidArgument _ n _ | .permissionDenied _ n _ | .resourceExhausted _ n _
  | .inappropriateType _ n _ | .noSuchThing _ n _ => some n
  | _ => none

def ioErrorOf (e : IO.Error) : IoError :=
  match numberOf e with
  | some n => .ofNumber (min n (0 - n)).toNat
  | none => ⟨.other, toString e⟩

def attempt {α : Type} (action : IO α) : IO (Except IoError α) := do
  match ← action.toBaseIO with
  | .ok result => return .ok result
  | .error e => return .error (ioErrorOf e)

def readFiles (paths : List String) : IO (List (String × Except IoError Bytes)) :=
  paths.mapM fun (path : String) => do
    let contents ← attempt (IO.FS.readBinFile path)
    return (path, contents.map fun bytes => bytes.data.toList)

def nameOf : SocketAddress → SocketName
  | .v4 ⟨addr, number⟩ => ⟨toString addr, number⟩
  | .v6 ⟨addr, number⟩ => ⟨"[" ++ toString addr ++ "]", number⟩

def hostOf (name : SocketName) : IO (Option IPAddr) := do
  match IPv4Addr.ofString name.host with
  | some addr => return some (.v4 addr)
  | none => return (← (DNS.getAddrInfo name.host "").block)[0]?

def addressOf (name : SocketName) : IO SocketAddress := do
  match ← hostOf name with
  | some (.v4 addr) => return .v4 ⟨addr, name.number⟩
  | some (.v6 addr) => return .v6 ⟨addr, name.number⟩
  | none => throw (.userError ("no usable address for " ++ name.render))

/-- A network that gives to every request the answer that the system has given to this one. -/
def answering (listen : Except IoError SocketName) (dial : Except IoError Connection) : Network :=
  ⟨.ok, fun _ => listen, fun _ => dial⟩

def unanswered : IoError := .networkUnreachable

/-- Connects, sends, and says how it went. -/
def send (s : Sending) : IO Report := do
  let client ← TCP.Socket.Client.mk
  let dialled ← match s.target? with
    | none => pure (.error unanswered)
    | some name => attempt do
      (client.connect (← addressOf name)).block
      client.noDelay
      return Connection.mk (nameOf (← client.getSockName)) (nameOf (← client.getPeerName)) {}
  let report (answer : Except IoError Connection) : Report :=
    s.run (answering (.error unanswered) answer)
  match s.deliver (answering (.error unanswered) dialled) with
  | .error _ => return report dialled
  | .ok link =>
    let written ← attempt do
      (client.send ⟨link.sink.written.toArray⟩).block
      client.shutdown.block
    match written with
    | .ok () => return report dialled
    | .error e => return report (dialled.map fun c => { c with sink := { writes := [.fault e] } })

partial def receive (peer : TCP.Socket.Client) (received : ByteArray) : IO ByteArray := do
  match ← attempt (peer.recv? 65536).block with
  | .ok (some bytes) => receive peer (received ++ bytes)
  | _ => return received

def seconds : IO Nat := return (← Std.Time.Timestamp.now).toSecondsSinceUnixEpoch.val.toNat

partial def serve (server : TCP.Socket.Server) (l : Listening) : IO Report := do
  match ← attempt server.accept.block with
  | .error e => return .ofFailure (.ofLink "accept failed" (.transport (.accept e)))
  | .ok peer =>
    let received ← receive peer .empty
    let name := nameOf (← peer.getPeerName)
    match l.serve name (.ofBytes received.data.toList) (← seconds) with
    | .error failure => return .ofFailure failure
    | .ok (shown, l) =>
      let output ← IO.getStdout
      output.write ⟨shown.toArray⟩
      output.flush
      if l.isDone then return {} else serve server l

/-- Writes what a command leaves behind, and gives its exit code. -/
def finish (level : LogLevel) (format : LogFormat) (report : Report) : IO UInt32 := do
  let output ← IO.getStdout
  output.write ⟨report.output.toArray⟩
  output.flush
  let now := (← Std.Time.DateTime.now).toISO8601String
  for line in report.complaints level format (some now) do IO.eprintln line
  return report.code.toUInt32

/-- Opens the socket that a command has chosen, and serves it. -/
def listen (world : World) (i : Invocation) (chosen : Listening) : IO UInt32 := do
  let server ← TCP.Socket.Server.mk
  let bound ← attempt do
    server.bind (← addressOf chosen.listener.name)
    server.listen 128
    server.noDelay
    return nameOf (← server.getSockName)
  match i.outcome { world with network := answering bound (.error unanswered) } with
  | .done report => finish i.logLevel i.logFormat report
  | .listening l =>
    discard <| finish i.logLevel i.logFormat { log := [l.record] }
    finish i.logLevel i.logFormat (← serve server l)

def run (i : Invocation) : IO UInt32 := do
  let files ← readFiles i.command.paths
  let world : World := {
    file := fun path => (files.lookup path).getD (.error .noSuchFile)
    network := ⟨.ok, .ok, fun _ => .error unanswered⟩
    terminal := ← (← IO.getStdout).isTty }
  match i.command, i.outcome world with
  | .send options, _ =>
    match Sending.prepare world options with
    | .ok s => finish i.logLevel i.logFormat (← send s)
    | .error failure => finish i.logLevel i.logFormat (.ofFailure failure)
  | _, .done report => finish i.logLevel i.logFormat report
  | _, .listening chosen => listen world i chosen

end SpaceLink.Program

def main (args : List String) : IO UInt32 :=
  match SpaceLink.Invocation.parse args with
  | .ok i => SpaceLink.Program.run i
  | .error stop => SpaceLink.Program.finish .error .text stop.report
