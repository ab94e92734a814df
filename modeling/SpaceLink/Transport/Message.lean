import SpaceLink.Bytes

/-! # Received messages

A message that a link hands up: where it came from, its body, and properties that the link adds.
-/
namespace SpaceLink

/-- Texts under names, sorted by name, each name once. -/
abbrev Properties := List (String × String)

namespace Properties

def insert (key value : String) : Properties → Properties
  | [] => [(key, value)]
  | (k, v) :: rest =>
    if key < k then (key, value) :: (k, v) :: rest
    else if key = k then (key, value) :: rest
    else (k, v) :: insert key value rest

def get? (properties : Properties) (key : String) : Option String := properties.lookup key

end Properties

def sourceProperty : String := "source"

structure Message where
  source : String
  body : Bytes
  properties : Properties
  deriving DecidableEq

namespace Message

def of (source : String) (body : Bytes) : Message :=
  ⟨source, body, [(sourceProperty, source)]⟩

def withProperty (message : Message) (key value : String) : Message :=
  { message with properties := message.properties.insert key value }

end Message
end SpaceLink
