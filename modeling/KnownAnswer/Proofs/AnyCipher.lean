import KnownAnswer.Proofs.Sealing

/-!
# Sealing against any cipher

A cipher may answer the same block differently from call to call, and it may fail at any call.
Whatever it does, a message within capacity is never refused once its first block is handed over
(`willing_sealMessage`), and behind the calls of the authentication pass come the counter blocks in
their order, up to a call that fails (`sealMessage_log`).  If no call fails, the number of calls is
fixed by the lengths of the message (`takes_sealMessage`).
-/

namespace KnownAnswer

open Dialogue (Asks Takes Willing)

theorem CbcMac.takes_chainBlocks {ε : Type} (chain : Block) (blocks : List Block) :
    Takes (CbcMac.chainBlocks chain blocks : Dialogue ε Block) blocks.length := by
  induction blocks generalizing chain with
  | nil => exact .result chain
  | cons block rest ih => exact .call fun answer => ih answer

namespace Ccm

open Definition (blockCount callCount counterInputs headerBlocks)

/-! ## Counter blocks -/

/-- While the counters fit their field, each piece is encrypted under the next of them. -/
theorem asks_encryptPieces (nonce : Nonce) (whole counter : Nat) (done pieces : List Bytes)
    (h : counter + pieces.length ≤ 65536) :
    Asks (encryptPieces nonce whole counter done pieces)
      (counterBlocks nonce counter pieces.length) := by
  induction pieces generalizing counter done with
  | nil => exact .result _
  | cons piece pieces ih =>
      rw [List.length_cons] at h ⊢
      rw [encryptPieces_cons_of_le nonce whole (by omega), counterBlocks_succ]
      exact .call fun keystream => ih (counter + 1) _ (by omega)

theorem asks_encryptPayload (nonce : Nonce) {payload : Bytes} (h : payload.length ≤ 65535) :
    Asks (encryptPayload nonce payload) (counterBlocks nonce 1 (blockCount payload.length)) := by
  rw [← length_chunks_eq_blockCount]
  refine asks_encryptPieces nonce payload.length 1 [] _ ?_
  rw [length_chunks_eq_blockCount, blockCount]
  omega

theorem asks_maskTag (nonce : Nonce) (mac : Block) (macLength : MacLength) :
    Asks (maskTag nonce mac macLength) [counterBlock nonce 0] :=
  .call fun _ => .result _

/-! ## Whole messages -/

section

variable (parameters : Parameters) (header payload : Bytes)

/-- What is left of sealing when the message is authenticated. -/
def maskAll (mac : Block) : Dialogue Rejection Sealed := do
  let ciphertext ← encryptPayload parameters.nonce payload
  let tag ← maskTag parameters.nonce mac parameters.macLength
  return { ciphertext, tag }

variable {header payload}

theorem asks_maskAll (hpayload : payload.length ≤ 65535) (mac : Block) :
    Asks (maskAll parameters payload mac) (counterInputs parameters.nonce payload.length) := by
  rw [counterInputs_eq, maskAll]
  refine (asks_encryptPayload parameters.nonce hpayload).bind fun ciphertext => ?_
  rw [← List.append_nil [counterBlock parameters.nonce 0]]
  exact (asks_maskTag parameters.nonce mac parameters.macLength).bind fun tag => .result _

theorem sealMessage_of_le (hheader : header.length ≤ 65535) (hpayload : payload.length ≤ 65535) :
    sealMessage parameters header payload =
      authenticate parameters header payload >>= maskAll parameters payload := by
  rw [sealMessage, check_of_le hheader hpayload]
  rfl

theorem takes_authenticate (header payload : Bytes) :
    Takes (authenticate parameters header payload)
      (1 + headerBlocks header.length + blockCount payload.length) := by
  have hchain := CbcMac.takes_chainBlocks (ε := Rejection) Block.zero (Definition.authenticated
    parameters.nonce parameters.macLength header payload).blocks
  rw [length_blocks_authenticated] at hchain
  rwa [authenticate_eq_chainBlocks]

/-- How many calls a message takes depends on its lengths alone. -/
theorem takes_sealMessage (hheader : header.length ≤ 65535) (hpayload : payload.length ≤ 65535) :
    Takes (sealMessage parameters header payload) (callCount header.length payload.length) := by
  have hcount : callCount header.length payload.length =
      1 + headerBlocks header.length + blockCount payload.length +
        (blockCount payload.length + 1) := by
    rw [callCount]
    omega
  rw [sealMessage_of_le parameters hheader hpayload, hcount]
  refine (takes_authenticate parameters header payload).bind fun mac => ?_
  have hmasks := (asks_maskAll parameters hpayload mac).takes
  rwa [length_counterInputs] at hmasks

theorem willing_sealMessage (hheader : header.length ≤ 65535)
    (hpayload : payload.length ≤ 65535) : Willing (sealMessage parameters header payload) :=
  (takes_sealMessage parameters hheader hpayload).willing

/-- The first block comes first: nothing is chained to it yet. -/
theorem authenticate_eq_call (header payload : Bytes) :
    ∃ next, authenticate parameters header payload =
      .call (firstBlock parameters.nonce parameters.macLength (!header.isEmpty) payload.length)
        next := by
  rw [authenticate_eq_chainBlocks, blocks_authenticated, CbcMac.chainBlocks, Block.zero_xor]
  exact ⟨_, rfl⟩

theorem head?_authenticate_log (header payload : Bytes) (cipher : BlockCipher) :
    ((authenticate parameters header payload).run cipher).2.toList.head? =
      some (firstBlock parameters.nonce parameters.macLength (!header.isEmpty)
        payload.length) := by
  obtain ⟨next, hnext⟩ := authenticate_eq_call parameters header payload
  rw [hnext, Dialogue.head?_run_call]

theorem size_sealMessage_log_pos (hheader : header.length ≤ 65535)
    (hpayload : payload.length ≤ 65535) (cipher : BlockCipher) :
    0 < ((sealMessage parameters header payload).run cipher).2.size := by
  obtain ⟨next, hnext⟩ := authenticate_eq_call parameters header payload
  rw [sealMessage_of_le parameters hheader hpayload, hnext, Dialogue.call_bind,
    ← Array.length_toList]
  apply List.length_pos_of_mem
  exact List.mem_of_mem_head? (Dialogue.head?_run_call cipher _ _)

/-- **The calls of a sealing** are those of the authentication pass, and behind them the counter
blocks, up to a call that fails. -/
theorem sealMessage_log (hheader : header.length ≤ 65535) (hpayload : payload.length ≤ 65535)
    (cipher : BlockCipher) :
    ∃ counters,
      ((sealMessage parameters header payload).run cipher).2.toList =
        ((authenticate parameters header payload).run cipher).2.toList ++ counters ∧
      counters <+: counterInputs parameters.nonce payload.length ∧
      ∀ message, ((sealMessage parameters header payload).run cipher).1 = .ok message →
        counters = counterInputs parameters.nonce payload.length := by
  rw [sealMessage_of_le parameters hheader hpayload, Dialogue.run, Dialogue.run,
    Dialogue.runFrom_bind]
  rcases (authenticate parameters header payload).runFrom cipher Array.empty with ⟨ending, log⟩
  cases ending with
  | ok mac => exact (asks_maskAll parameters hpayload mac).runFrom cipher log
  | error stop =>
      refine ⟨[], (List.append_nil _).symm, List.nil_prefix, fun message hmessage => ?_⟩
      cases hmessage

end

end Ccm

end KnownAnswer
