import SpaceLink.Bytes
import SpaceLink.Io.Error

/-! # Byte sinks

A sink answers its coming writes and flushes one after the other: a write accepts up to a limit or
fails, a flush succeeds or fails. Where the answers end, everything is accepted. What was accepted
stays in order. Shutting the stream that a sink belongs to may fail too.
-/
namespace SpaceLink

inductive WriteEvent where
  | accept (limit : Nat)
  | fault (error : IoError)

structure Sink where
  writes : List WriteEvent := []
  flushes : List (Option IoError) := []
  shutFault : Option IoError := none
  written : Bytes := []
  writeCalls : Nat := 0
  flushCalls : Nat := 0

inductive SinkError where
  | closed
  | fault (error : IoError)

/-- What became of a buffer: how the writing ended, the part that was accepted, how many writes it
took, and the answers left. -/
structure Pushed where
  result : Except SinkError Unit
  accepted : Bytes
  calls : Nat
  rest : List WriteEvent

namespace Sink

/-- Writes until the buffer is empty, a write accepts nothing or a fault comes that is no
interruption. -/
def push (buffer : Bytes) : List WriteEvent → Pushed
  | [] => ⟨.ok (), buffer, if buffer.isEmpty then 0 else 1, []⟩
  | event :: rest =>
    if buffer.isEmpty then ⟨.ok (), [], 0, event :: rest⟩
    else match event with
      | .accept limit =>
        if limit = 0 then ⟨.error .closed, [], 1, rest⟩
        else
          let later := push (buffer.drop limit) rest
          { later with accepted := buffer.take limit ++ later.accepted, calls := later.calls + 1 }
      | .fault error =>
        if error.isInterrupted then
          let later := push buffer rest
          { later with calls := later.calls + 1 }
        else ⟨.error (.fault error), [], 1, rest⟩

/-- Flushes until it succeeds or a fault comes that is no interruption: the result, the number of
calls and the answers left. -/
def settle : List (Option IoError) → Except SinkError Unit × Nat × List (Option IoError)
  | [] => (.ok (), 1, [])
  | none :: rest => (.ok (), 1, rest)
  | some error :: rest =>
    if error.isInterrupted then
      let (result, calls, left) := settle rest
      (result, calls + 1, left)
    else (.error (.fault error), 1, rest)

/-- What shutting the stream gives. One that is not connected any more is as good as shut. -/
def shutResult (sink : Sink) : Except IoError Unit :=
  match sink.shutFault with
  | some error => if error.kind = .notConnected then .ok () else .error error
  | none => .ok ()

/-- Writes all of `buffer` and then flushes; after a failed write there is no flush. -/
def send (sink : Sink) (buffer : Bytes) : Except SinkError Unit × Sink :=
  let pushed := push buffer sink.writes
  let sink := { sink with
    writes := pushed.rest
    written := sink.written ++ pushed.accepted
    writeCalls := sink.writeCalls + pushed.calls }
  match pushed.result with
  | .error e => (.error e, sink)
  | .ok () =>
    let (result, calls, left) := settle sink.flushes
    (result, { sink with flushes := left, flushCalls := sink.flushCalls + calls })

end Sink
end SpaceLink
