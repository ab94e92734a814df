import SpaceLink.Can.Frame

/-! # Sent transactions

The frames of the transactions sent last, to be repeated on request. Numbers wrap around, so a later
transaction takes the place of an earlier one of the same number and node.
-/
namespace SpaceLink

structure SentTransaction where
  transaction : UInt32
  dst : UInt32
  frames : List CanFrame
  deriving DecidableEq

/-- At most `depth` transactions, the oldest first. -/
structure ResendCache where
  depth : Nat
  entries : List SentTransaction := []

namespace ResendCache

def insert (c : ResendCache) (sent : SentTransaction) : ResendCache :=
  if c.depth = 0 then c
  else
    let others := c.entries.filter fun e => !(e.transaction = sent.transaction && e.dst = sent.dst)
    let kept := if others.length = c.depth then others.tail else others
    { c with entries := kept ++ [sent] }

def find? (c : ResendCache) (transaction dst : UInt32) : Option (List CanFrame) :=
  (c.entries.find? fun e => e.transaction = transaction && e.dst = dst).map (·.frames)

end ResendCache
end SpaceLink
