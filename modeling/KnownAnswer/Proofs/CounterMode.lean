import KnownAnswer.Proofs.Formatting

/-!
# Counter mode, byte by byte

Payloads are encrypted in pieces, each under a counter of its own.  Said of the whole payload, byte
`k` is added to byte `k % 16` of the answer to counter `k / 16 + 1` (`plays_encryptPayload`); no
piece is seen in that, so neither are the boundaries between them.
-/

namespace KnownAnswer.Ccm

open Definition (blockCount)

theorem maxPayload_eq : maxPayload = 65535 := rfl

/-! ## The keystream -/

/-- A text with a keystream added to it that starts with the answer to the given counter. -/
def masked (encrypt : Block → Block) (nonce : Nonce) (counter : Nat) (text : Bytes) : Bytes :=
  text.mapIdx fun offset byte =>
    byte ^^^ (encrypt (counterBlock nonce (counter + offset / 16))).toBytes.getD (offset % 16) 0

theorem masked_nil (encrypt : Block → Block) (nonce : Nonce) (counter : Nat) :
    masked encrypt nonce counter [] = [] := rfl

theorem masked_append_of_length (encrypt : Block → Block) (nonce : Nonce) (counter : Nat)
    {head : Bytes} (hhead : head.length = 16) (rest : Bytes) :
    masked encrypt nonce counter (head ++ rest) =
      masked encrypt nonce counter head ++ masked encrypt nonce (counter + 1) rest := by
  rw [masked, List.mapIdx_append, hhead]
  have hkey : (fun offset byte => byte ^^^
      (encrypt (counterBlock nonce (counter + (offset + 16) / 16))).toBytes.getD
        ((offset + 16) % 16) 0) =
      fun offset byte => byte ^^^
        (encrypt (counterBlock nonce (counter + 1 + offset / 16))).toBytes.getD
          (offset % 16) 0 := by
    funext offset byte
    rw [Nat.add_div_right _ (by decide), Nat.add_mod_right, Nat.add_assoc, Nat.add_comm 1]
  rw [hkey, masked, masked]

theorem mask_eq_masked (encrypt : Block → Block) (nonce : Nonce) (counter : Nat) {piece : Bytes}
    (h : piece.length ≤ 16) :
    mask piece (encrypt (counterBlock nonce counter)) = masked encrypt nonce counter piece := by
  apply List.ext_getElem
  · rw [mask, masked, List.length_zipWith, Block.length_toBytes, List.length_mapIdx]
    omega
  · intro i hi hi'
    have hlt : i < 16 := by
      rw [masked, List.length_mapIdx] at hi'
      omega
    simp only [mask, masked, List.getElem_zipWith, List.getElem_mapIdx, Nat.div_eq_of_lt hlt,
      Nat.mod_eq_of_lt hlt, Nat.add_zero]
    rw [List.getD_eq_getElem]

/-- From counter one on, the keystream is that of the definition. -/
theorem masked_one (encrypt : Block → Block) (nonce : Nonce) (payload : Bytes) :
    masked encrypt nonce 1 payload = Definition.ciphertext encrypt nonce payload := by
  rw [masked, Definition.ciphertext]
  refine congrArg (fun f => payload.mapIdx f) (funext fun offset => funext fun byte => ?_)
  rw [Definition.keystreamByte, counterBlock_eq_counterInput, Nat.add_comm]

/-! ## The loop over the pieces -/

/-- The counter blocks from a counter on. -/
def counterBlocks (nonce : Nonce) (counter count : Nat) : List Block :=
  (List.range count).map fun i => counterBlock nonce (counter + i)

theorem counterBlocks_succ (nonce : Nonce) (counter count : Nat) :
    counterBlocks nonce counter (count + 1) =
      counterBlock nonce counter :: counterBlocks nonce (counter + 1) count := by
  rw [counterBlocks, List.range_succ_eq_map, List.map_cons, List.map_map, Nat.add_zero]
  refine congrArg _ (List.map_congr_left fun i _ => ?_)
  rw [Function.comp_apply, Nat.succ_eq_add_one, Nat.add_assoc, Nat.add_comm 1]

theorem length_counterBlocks (nonce : Nonce) (counter count : Nat) :
    (counterBlocks nonce counter count).length = count := by
  rw [counterBlocks, List.length_map, List.length_range]

theorem length_chunks_eq_blockCount (payload : Bytes) :
    (chunks 16 payload).length = blockCount payload.length :=
  length_chunks (by decide) payload

/-- One turn of the loop, while the counter fits its field. -/
theorem encryptPieces_cons_of_le (nonce : Nonce) (whole : Nat) {counter : Nat} (h : counter ≤ 65535)
    (done : List Bytes) (piece : Bytes) (pieces : List Bytes) :
    encryptPieces nonce whole counter done (piece :: pieces) =
      .call (counterBlock nonce counter) fun keystream =>
        encryptPieces nonce whole (counter + 1) (mask piece keystream :: done) pieces :=
  if_pos (maxPayload_eq ▸ h)

/-- A turn whose counter is beyond its field. -/
theorem encryptPieces_cons_of_lt (nonce : Nonce) (whole : Nat) {counter : Nat} (h : 65535 < counter)
    (done : List Bytes) (piece : Bytes) (pieces : List Bytes) :
    encryptPieces nonce whole counter done (piece :: pieces) =
      .refuse (.tooLong .payload whole 65535) :=
  if_neg (maxPayload_eq ▸ Nat.not_le_of_lt h)

theorem plays_encryptPieces_cons {encrypt : Block → Block} {nonce : Nonce} {whole counter : Nat}
    {done : List Bytes} {piece : Bytes} {pieces : List Bytes} {asked : List Block}
    {ending : Except Rejection Bytes} (hcounter : counter ≤ 65535)
    (h : Dialogue.Plays encrypt (encryptPieces nonce whole (counter + 1)
      (mask piece (encrypt (counterBlock nonce counter)) :: done) pieces) asked ending) :
    Dialogue.Plays encrypt (encryptPieces nonce whole counter done (piece :: pieces))
      (counterBlock nonce counter :: asked) ending := by
  rw [encryptPieces_cons_of_le nonce whole hcounter]
  exact Dialogue.Plays.call h

theorem plays_encryptPieces (encrypt : Block → Block) (nonce : Nonce) (whole counter : Nat)
    (done : List Bytes) (text : Bytes) (h : counter + blockCount text.length ≤ 65536) :
    Dialogue.Plays encrypt (encryptPieces nonce whole counter done (chunks 16 text))
      (counterBlocks nonce counter (blockCount text.length))
      (.ok (done.reverse.flatten ++ masked encrypt nonce counter text)) := by
  induction text using chunk_induction (show 0 < 16 by decide) generalizing counter done with
  | short xs hlt =>
      by_cases hne : xs = []
      · subst hne
        rw [chunks_nil, masked_nil, List.append_nil]
        exact Dialogue.Plays.result _
      · have hpos : 0 < xs.length := List.length_pos_iff.mpr hne
        have hcount : blockCount xs.length = 1 := by
          rw [blockCount]
          omega
        rw [hcount] at h ⊢
        rw [chunks_of_length_le hne (Nat.le_of_lt hlt), counterBlocks_succ,
          ← mask_eq_masked encrypt nonce counter (Nat.le_of_lt hlt)]
        refine plays_encryptPieces_cons (by omega) ?_
        rw [← List.flatten_concat, ← List.reverse_cons]
        exact Dialogue.Plays.result _
  | step head rest hhead ih =>
      have hcount : blockCount (head ++ rest).length = blockCount rest.length + 1 := by
        rw [blockCount, blockCount, List.length_append]
        omega
      rw [hcount] at h ⊢
      rw [chunks_append_of_length (by decide) hhead, counterBlocks_succ,
        masked_append_of_length encrypt nonce counter hhead,
        ← mask_eq_masked encrypt nonce counter (Nat.le_of_eq hhead), ← List.append_assoc,
        ← List.flatten_concat, ← List.reverse_cons]
      exact plays_encryptPieces_cons (by omega) (ih (counter + 1) _ (by omega))

/-- **The encryption pass** over a payload within capacity. -/
theorem plays_encryptPayload (encrypt : Block → Block) (nonce : Nonce) {payload : Bytes}
    (h : payload.length ≤ 65535) :
    Dialogue.Plays encrypt (encryptPayload nonce payload)
      (counterBlocks nonce 1 (blockCount payload.length))
      (.ok (Definition.ciphertext encrypt nonce payload)) := by
  have hcount : 1 + blockCount payload.length ≤ 65536 := by
    rw [blockCount]
    omega
  rw [← masked_one]
  exact plays_encryptPieces encrypt nonce payload.length 1 [] payload hcount

theorem plays_maskTag (encrypt : Block → Block) (nonce : Nonce) (mac : Block)
    (macLength : MacLength) :
    Dialogue.Plays encrypt (maskTag nonce mac macLength) [counterBlock nonce 0]
      (.ok ((mac.xor (encrypt (counterBlock nonce 0))).toBytes.take macLength.size)) :=
  Dialogue.Plays.call (Dialogue.Plays.result _)

end KnownAnswer.Ccm
