import KnownAnswer.Cipher.Dialogue

/-!
# CBC-MAC over a stream of bytes

The running state of a CBC-MAC that is fed byte strings of any length.  A block goes to the cipher
as soon as it is full, so a string may be cut anywhere without a change in the blocks.
-/

namespace KnownAnswer

/-- The chaining value, and the bytes that wait for their block to fill up.  Cells of `pending`
from `filled` on are zero. -/
structure CbcMac where
  chain : Block
  pending : Block
  filled : Fin 16
  deriving DecidableEq

namespace CbcMac

variable {ε : Type}

def start : CbcMac := ⟨Block.zero, Block.zero, 0⟩

/-- Hands over the waiting block, added to the chaining value; the answer is the next one. -/
def absorb (mac : CbcMac) : Dialogue ε CbcMac := do
  let chain ← Dialogue.ask (Block.xor mac.chain mac.pending)
  return { chain, pending := Block.zero, filled := 0 }

/-- Takes up bytes, as many at a time as the waiting block has room for. -/
def update (mac : CbcMac) (bytes : Bytes) : Dialogue ε CbcMac :=
  if bytes = [] then
    return mac
  else
    let size := min (16 - mac.filled.val) bytes.length
    let pending := mac.pending.overwrite mac.filled (bytes.take size)
    if h : mac.filled.val + size < 16 then
      update { mac with pending, filled := ⟨mac.filled.val + size, h⟩ } (bytes.drop size)
    else do
      let mac ← absorb { mac with pending }
      update mac (bytes.drop size)
termination_by bytes.length
decreasing_by
  -- room is left in the waiting block and bytes are left, so a piece is never empty
  all_goals
    have : 0 < bytes.length := List.length_pos_iff.mpr ‹_›
    have := mac.filled.isLt
    simp only [List.length_drop]
    omega

/-- Fills the waiting block up with zeros; on a block boundary there is nothing to do. -/
def pad (mac : CbcMac) : Dialogue ε CbcMac :=
  if mac.filled = 0 then return mac else mac.absorb

/-- The value of the whole stream, filled up with zeros. -/
def finish (mac : CbcMac) : Dialogue ε Block := do
  let mac ← mac.pad
  return mac.chain

end CbcMac

end KnownAnswer
