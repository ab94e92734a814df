import SpaceLink.Codec.Stream
import SpaceLink.CommandLine.Failure
import SpaceLink.CommandLine.Log

/-! # Payloads

What a user sends is the one blob of a message body. A body that cannot be read so is shown as it
arrived.
-/
namespace SpaceLink.Payload

def elements (payload : Bytes) : List Element := [some (.blob payload)]

def encode (codec : Codec) (payload : Bytes) : Except Failure Bytes :=
  (codec.encode (elements payload)).mapError fun error =>
    .because ExitCode.dataInvalid "encode failed" error.message

/-- Tells of a payload that has become a message body. The split form has a row of flags. -/
def record (codec : Codec) (payload body : Bytes) : LogRecord where
  level := .trace
  message := codec.name ++ " encode"
  fields := [("elements", .natural (elements payload).length)] ++
    (match codec with
      | .plain => []
      | .split => [("bitset", .natural (Flags.pack (Split.flags (elements payload))).length)]) ++
    [("bytes", .natural body.length)]

/-- The blob of a body. A body whose one element is null has nothing to show. -/
def decode (codec : Codec) (body : Bytes) : Bytes :=
  match codec.decode [.blob] body with
  | .ok [some (.blob payload)] => payload
  | .ok _ => []
  | .error _ => body

/-- The payload if it is text, else its size. -/
def preview (payload : Bytes) : String :=
  (ofUtf8? payload).getD s!"<binary {payload.length} bytes>"

end SpaceLink.Payload
