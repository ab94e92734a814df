/-! # Services of a link

The patterns of interaction that a link may carry, and the levels of service it may honour.
-/
namespace SpaceLink

inductive Interaction where
  | send | submit | request | invoke | progress | pubSub
  deriving DecidableEq

namespace Interaction

def all : List Interaction := [send, submit, request, invoke, progress, pubSub]

def name : Interaction → String
  | send => "send" | submit => "submit" | request => "request" | invoke => "invoke"
  | progress => "progress" | pubSub => "pub_sub"

def label : Interaction → String
  | pubSub => "pubsub"
  | other => other.name

end Interaction

inductive QualityOfService where
  | bestEffort | assured | queued | timely
  deriving DecidableEq

namespace QualityOfService

def all : List QualityOfService := [bestEffort, assured, queued, timely]

def name : QualityOfService → String
  | bestEffort => "best_effort" | assured => "assured" | queued => "queued" | timely => "timely"

end QualityOfService
end SpaceLink
