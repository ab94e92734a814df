import SpaceLink.Bytes

/-! # Gathering

Bytes that come in pieces. The pieces are kept as they come and joined once, and the number of
bytes is known all along.
-/
namespace SpaceLink

/-- Pieces of a byte string, the latest first. -/
structure Gathered where
  pieces : List Bytes := []
  size : Nat := 0
  size_eq : size = pieces.flatten.length := by rfl

namespace Gathered

def bytes (g : Gathered) : Bytes := g.pieces.reverse.flatten

def append (g : Gathered) (piece : Bytes) : Gathered where
  pieces := piece :: g.pieces
  size := piece.length + g.size
  size_eq := by simp [g.size_eq]

def empty : Gathered := {}

def of (piece : Bytes) : Gathered := empty.append piece

@[simp] theorem bytes_empty : empty.bytes = [] := rfl

@[simp] theorem bytes_append (g : Gathered) (piece : Bytes) :
    (g.append piece).bytes = g.bytes ++ piece := by
  simp [bytes, append]

@[simp] theorem bytes_of (piece : Bytes) : (of piece).bytes = piece := by simp [of]

theorem size_eq_length (g : Gathered) : g.size = g.bytes.length := by
  simp [g.size_eq, bytes, List.length_flatten, List.sum_reverse]

end Gathered
end SpaceLink
