import KnownAnswer.Bytes

/-!
# Blocks

The unit a block cipher works on: sixteen bytes.
-/

namespace KnownAnswer

abbrev Block := Vector UInt8 16

namespace Block

def size : Nat := 16

def zero : Block := Vector.replicate 16 0

def xor (a b : Block) : Block := Vector.zipWith (· ^^^ ·) a b

/-- The first sixteen bytes of a string; one that is shorter is filled up with zeros. -/
def ofBytes (bytes : Bytes) : Block := Vector.ofFn fun i => bytes.getD i 0

/-- Copies bytes into a block, from the cell `start` on. -/
def overwrite (block : Block) (start : Nat) (bytes : Bytes) : Block :=
  Vector.ofFn fun i => if i < start then block[i] else bytes.getD (i - start) block[i]

def toBytes (block : Block) : Bytes := block.toList

@[simp] theorem length_toBytes (block : Block) : block.toBytes.length = 16 := by
  simp [toBytes]

end Block

/-- The blocks of a byte string, the last one filled up with zeros. -/
def Bytes.blocks (bytes : Bytes) : List Block := (chunks 16 bytes).map Block.ofBytes

end KnownAnswer
