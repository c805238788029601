import KnownAnswer.Ccm.CbcMac
import KnownAnswer.Proofs.Blocks
import KnownAnswer.Proofs.Dialogue

/-!
# The stream behind a CBC-MAC

A CBC-MAC that was fed a stream has chained the whole blocks of the stream and holds what is left
of it.  `CbcMac.chainBlocks` is the chaining alone, block by block and without a buffer; feeding,
padding and finishing are equal to it as dialogues (`update_holding`, `pad_holding`,
`finish_holding`), so against every cipher, one that fails included.  How a string is cut into
pieces does not show (`update_update_holding`).
-/

namespace KnownAnswer.CbcMac

open Bytes (blocks whole rest)

variable {ε : Type}

/-! ## Chaining -/

/-- Hands over blocks, each added to the answer to the one before it. -/
def chainBlocks (chain : Block) : List Block → Dialogue ε Block
  | [] => return chain
  | block :: rest => do
    let chain ← Dialogue.ask (chain.xor block)
    chainBlocks chain rest

theorem chainBlocks_append (chain : Block) (front back : List Block) :
    (chainBlocks chain (front ++ back) : Dialogue ε Block) =
      chainBlocks chain front >>= fun chain => chainBlocks chain back := by
  induction front generalizing chain with
  | nil => rfl
  | cons block rest ih =>
      rw [List.cons_append, chainBlocks, chainBlocks, Dialogue.bind_assoc]
      exact congrArg _ (funext ih)

open Ccm.Definition (chained chainInputs) in
theorem plays_chainBlocks (encrypt : Block → Block) (chain : Block) (bs : List Block) :
    Dialogue.Plays encrypt (chainBlocks chain bs : Dialogue ε Block)
      (chainInputs encrypt chain bs) (.ok (chained encrypt chain bs)) := by
  induction bs generalizing chain with
  | nil => exact Dialogue.Plays.result chain
  | cons block rest ih => exact Dialogue.Plays.call (ih (encrypt (chain.xor block)))

/-! ## A state and the stream it stands for -/

/-- The state that has reached `chain` and holds the bytes `waiting` of an unfinished block. -/
def holding (chain : Block) (waiting : Bytes) : CbcMac where
  chain
  pending := Block.ofBytes waiting
  filled := ⟨waiting.length % 16, Nat.mod_lt _ (by decide)⟩

theorem start_eq_holding : start = holding Block.zero [] := by
  rw [start, holding, Block.ofBytes_nil]
  rfl

theorem absorb_eq (mac : CbcMac) :
    (mac.absorb : Dialogue ε CbcMac) =
      Dialogue.ask (mac.chain.xor mac.pending) >>= fun chain => return holding chain [] := by
  simp only [holding, Block.ofBytes_nil]
  rfl

theorem filled_holding (chain : Block) {waiting : Bytes} (h : waiting.length < 16) :
    (holding chain waiting).filled.val = waiting.length := Nat.mod_eq_of_lt h

theorem overwrite_holding (chain : Block) {waiting : Bytes} (h : waiting.length < 16)
    (piece : Bytes) :
    (holding chain waiting).pending.overwrite (holding chain waiting).filled piece =
      Block.ofBytes (waiting ++ piece) := by
  rw [filled_holding chain h]
  exact Block.overwrite_ofBytes waiting piece

/-! ## Feeding -/

/-- A turn of the loop that takes up all bytes and leaves the block unfinished. -/
theorem update_holding_of_lt (chain : Block) {waiting bytes : Bytes}
    (h : waiting.length + bytes.length < 16) :
    ((holding chain waiting).update bytes : Dialogue ε CbcMac) =
      return holding chain (waiting ++ bytes) := by
  have hw : waiting.length < 16 := by omega
  by_cases hnil : bytes = []
  · rw [update, if_pos hnil, hnil, List.append_nil]
  · have hsize : min (16 - (holding chain waiting).filled.val) bytes.length = bytes.length := by
      rw [filled_holding chain hw]
      omega
    have hroom : (holding chain waiting).filled.val + bytes.length < 16 := by
      rwa [filled_holding chain hw]
    have hstate : ({ holding chain waiting with
        pending := Block.ofBytes (waiting ++ bytes)
        filled := ⟨(holding chain waiting).filled.val + bytes.length, hroom⟩ } : CbcMac) =
          holding chain (waiting ++ bytes) := by
      simp only [holding, List.length_append, Nat.mod_eq_of_lt hw, Nat.mod_eq_of_lt h]
    rw [update, if_neg hnil]
    simp only [hsize, List.take_length, List.drop_length, overwrite_holding chain hw, dif_pos hroom]
    rw [hstate, update, if_pos rfl]

/-- A turn of the loop that fills the block up. -/
theorem update_holding_append (chain : Block) {waiting piece : Bytes} (h : waiting.length < 16)
    (hfull : waiting.length + piece.length = 16) (bytes : Bytes) :
    ((holding chain waiting).update (piece ++ bytes) : Dialogue ε CbcMac) =
      Dialogue.ask (chain.xor (Block.ofBytes (waiting ++ piece))) >>= fun chain =>
        (holding chain []).update bytes := by
  have hnil : piece ++ bytes ≠ [] := by
    intro hnil
    have hlen := congrArg List.length hnil
    rw [List.length_append, List.length_nil] at hlen
    omega
  have hsize : min (16 - (holding chain waiting).filled.val) (piece ++ bytes).length =
      piece.length := by
    rw [filled_holding chain h, List.length_append]
    omega
  have hroom : ¬ (holding chain waiting).filled.val + piece.length < 16 := by
    rw [filled_holding chain h]
    omega
  rw [update, if_neg hnil]
  simp only [hsize, List.take_left, List.drop_left, overwrite_holding chain h, dif_neg hroom,
    absorb_eq, Dialogue.bind_assoc, Dialogue.pure_bind]
  rfl

/-- **Feeding a string.** The whole blocks that it completes are chained, and the rest waits. -/
theorem update_holding (chain : Block) {waiting : Bytes} (h : waiting.length < 16)
    (bytes : Bytes) :
    ((holding chain waiting).update bytes : Dialogue ε CbcMac) = do
      let chain ← chainBlocks chain (blocks (whole (waiting ++ bytes)))
      return holding chain (rest (waiting ++ bytes)) := by
  -- on the number of bytes; what waits is any unfinished block
  induction hn : bytes.length using Nat.strongRecOn generalizing chain waiting bytes with
  | _ n ih =>
      by_cases hlt : waiting.length + bytes.length < 16
      · have hshort : (waiting ++ bytes).length < 16 := by rwa [List.length_append]
        rw [update_holding_of_lt chain hlt, Bytes.whole_of_length_lt hshort,
          Bytes.rest_of_length_lt hshort, Bytes.blocks_nil]
        rfl
      · have hfull : waiting.length + (bytes.take (16 - waiting.length)).length = 16 := by
          rw [List.length_take]
          omega
        have hhead : (waiting ++ bytes.take (16 - waiting.length)).length = 16 := by
          rwa [List.length_append]
        have hdvd : 16 ∣ (waiting ++ bytes.take (16 - waiting.length)).length :=
          ⟨1, hhead⟩
        have hless : (bytes.drop (16 - waiting.length)).length < n := by
          rw [List.length_drop]
          omega
        rw [← List.take_append_drop (16 - waiting.length) bytes,
          update_holding_append chain h hfull, ← List.append_assoc, Bytes.whole_append_of_dvd hdvd,
          Bytes.rest_append_of_dvd hdvd, Bytes.blocks_append_of_length hhead, chainBlocks,
          Dialogue.bind_assoc]
        refine congrArg _ (funext fun chain => ?_)
        exact ih _ hless chain (show ([] : Bytes).length < 16 by decide) _ rfl

theorem update_holding_of_dvd (chain : Block) {bytes : Bytes} (h : 16 ∣ bytes.length) :
    ((holding chain []).update bytes : Dialogue ε CbcMac) = do
      let chain ← chainBlocks chain (blocks bytes)
      return holding chain [] := by
  rw [update_holding chain (by decide), List.nil_append, Bytes.whole_of_dvd h, Bytes.rest_of_dvd h]

theorem update_holding_toBytes (chain block : Block) :
    ((holding chain []).update block.toBytes : Dialogue ε CbcMac) = do
      let chain ← chainBlocks chain [block]
      return holding chain [] := by
  have hdvd : 16 ∣ block.toBytes.length := ⟨1, Block.length_toBytes block⟩
  rw [update_holding_of_dvd chain hdvd, Bytes.blocks_toBytes]

/-- Feeding one string after another is feeding both as one. -/
theorem update_update_holding (chain : Block) {waiting : Bytes} (h : waiting.length < 16)
    (front back : Bytes) :
    (((holding chain waiting).update front >>= fun mac => mac.update back) : Dialogue ε CbcMac) =
      (holding chain waiting).update (front ++ back) := by
  have hsplit : waiting ++ (front ++ back) =
      whole (waiting ++ front) ++ (rest (waiting ++ front) ++ back) := by
    rw [← List.append_assoc, ← List.append_assoc, Bytes.whole_append_rest]
  have hdvd := Bytes.dvd_length_whole (waiting ++ front)
  rw [update_holding chain h front, update_holding chain h (front ++ back), hsplit,
    Bytes.whole_append_of_dvd hdvd, Bytes.rest_append_of_dvd hdvd, Bytes.blocks_append_of_dvd hdvd,
    chainBlocks_append, Dialogue.bind_assoc, Dialogue.bind_assoc]
  refine congrArg _ (funext fun chain => ?_)
  rw [Dialogue.pure_bind, update_holding chain (Bytes.length_rest_lt _) back]

/-! ## Padding and finishing -/

theorem pad_holding (chain : Block) {waiting : Bytes} (h : waiting.length < 16) :
    ((holding chain waiting).pad : Dialogue ε CbcMac) = do
      let chain ← chainBlocks chain (blocks waiting)
      return holding chain [] := by
  by_cases hnil : waiting = []
  · rw [hnil, Bytes.blocks_nil]
    rfl
  · have hfilled : (holding chain waiting).filled ≠ 0 := by
      intro hzero
      have hlen := congrArg Fin.val hzero
      rw [filled_holding chain h] at hlen
      exact hnil (List.length_eq_zero_iff.mp hlen)
    rw [pad, if_neg hfilled, absorb_eq, Bytes.blocks_of_length_le hnil (Nat.le_of_lt h)]
    rfl

theorem finish_holding (chain : Block) {waiting : Bytes} (h : waiting.length < 16) :
    ((holding chain waiting).finish : Dialogue ε Block) = chainBlocks chain (blocks waiting) := by
  rw [finish, pad_holding chain h, Dialogue.bind_assoc]
  exact Dialogue.bind_result _

/-- **A padded part.** From a block boundary to a block boundary, the blocks of the part are
chained, the last one filled up with zeros. -/
theorem update_pad_holding (chain : Block) (bytes : Bytes) :
    (((holding chain []).update bytes >>= pad) : Dialogue ε CbcMac) = do
      let chain ← chainBlocks chain (blocks bytes)
      return holding chain [] := by
  have hwaiting : ([] : Bytes).length < 16 := by decide
  rw [update_holding chain hwaiting, List.nil_append,
    ← Bytes.blocks_whole_append_blocks_rest bytes, chainBlocks_append, Dialogue.bind_assoc,
    Dialogue.bind_assoc]
  refine congrArg _ (funext fun chain => ?_)
  rw [Dialogue.pure_bind, pad_holding chain (Bytes.length_rest_lt bytes)]

theorem update_finish_holding (chain : Block) (bytes : Bytes) :
    (((holding chain []).update bytes >>= finish) : Dialogue ε Block) =
      chainBlocks chain (blocks bytes) := by
  have hfinish : (finish : CbcMac → Dialogue ε Block) =
      fun mac => mac.pad >>= fun mac => return mac.chain := rfl
  rw [hfinish, ← Dialogue.bind_assoc, update_pad_holding, Dialogue.bind_assoc]
  exact Dialogue.bind_result _

end KnownAnswer.CbcMac
