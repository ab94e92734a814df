import SpaceLink.Bytes

/-! # Cutting

A body is cut into pieces of one size, the last of which holds the rest. An empty body is one empty
piece.
-/
namespace SpaceLink.Pieces

/-- How many pieces of `size` bytes a body of `length` bytes takes. -/
def count (size length : Nat) : Nat := max 1 ((length + size - 1) / size)

/-- Cuts `more` further pieces off the body and leaves the rest as the last one; `done` holds the
earlier pieces in reverse. -/
def collect (size : Nat) : Nat → Bytes → List Bytes → List Bytes
  | 0, body, done => (body :: done).reverse
  | more + 1, body, done => collect size more (body.drop size) (body.take size :: done)

def cut (size : Nat) (body : Bytes) : List Bytes :=
  collect size (count size body.length - 1) body []

end SpaceLink.Pieces
