import SpaceLink.Bytes
import SpaceLink.Io.Error

/-! # Byte sources

A source is what its coming reads will meet: pieces of data, each of which a read may take a part
of, and faults. An empty piece is an end of file seen once, and behind the last event the file ends.
-/
namespace SpaceLink

inductive ReadEvent where
  | data (bytes : Bytes)
  | fault (error : IoError)

abbrev Source := List ReadEvent

namespace Source

/-- Everything that is still to be read, in one piece. -/
def ofBytes (bytes : Bytes) : Source := if bytes.isEmpty then [] else [.data bytes]

def contents (source : Source) : Bytes :=
  source.flatMap fun
    | .data bytes => bytes
    | .fault _ => []

/-- Reads until `needed` bytes are there, the file ends or a fault comes that is no interruption.
A read of no bytes is not made. -/
def fill (needed : Nat) : Source → Except IoError Bytes × Source
  | [] => (.ok [], [])
  | .data chunk :: rest =>
    if needed = 0 then (.ok [], .data chunk :: rest)
    else if chunk.isEmpty then (.ok [], rest)
    else if chunk.length ≤ needed then
      let (result, source) := fill (needed - chunk.length) rest
      (result.map (chunk ++ ·), source)
    else (.ok (chunk.take needed), .data (chunk.drop needed) :: rest)
  | .fault error :: rest =>
    if needed = 0 then (.ok [], .fault error :: rest)
    else if error.isInterrupted then fill needed rest
    else (.error error, rest)

end Source
end SpaceLink
