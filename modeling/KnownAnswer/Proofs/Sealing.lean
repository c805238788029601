import KnownAnswer.Proofs.CounterMode

/-!
# Sealing as defined, and sealing cut short

Against a cipher that never fails, sealing a message within capacity succeeds with the ciphertext
and the tag of `Ccm.Definition`, and the blocks handed over are those of the definition in order
(`plays_sealMessage`).  Against a cipher that fails from some call on, sealing either does not
notice or ends in that fault at that call, with nothing handed over after it
(`sealMessage_run_failAfter`).
-/

namespace KnownAnswer.Ccm

open Definition (blockCount headerBlocks callCount chainInputs cipherInputs counterInputs)

/-! ## Counting blocks -/

theorem counterInputs_eq (nonce : Nonce) (payload : Nat) :
    counterInputs nonce payload =
      counterBlocks nonce 1 (blockCount payload) ++ [counterBlock nonce 0] := by
  rw [counterInputs, counterBlocks, counterBlock_eq_counterInput]
  refine congrArg (· ++ _) (List.map_congr_left fun i _ => ?_)
  rw [counterBlock_eq_counterInput, Nat.add_comm]

theorem length_blocks_encodedHeader (header : Bytes) :
    (Definition.encodedHeader header).blocks.length = headerBlocks header.length := by
  rw [Bytes.length_blocks, headerBlocks, Definition.encodedHeader]
  by_cases hnil : header = []
  · rw [if_pos hnil, if_pos (List.length_eq_zero_iff.mpr hnil)]
    rfl
  · rw [if_neg hnil, if_neg (mt List.length_eq_zero_iff.mp hnil)]
    split
    · simp only [List.length_append, Bytes.length_bigEndian, blockCount]
    · simp only [List.length_append, Bytes.length_bigEndian, blockCount]
      rfl

theorem length_blocks_authenticated (nonce : Nonce) (macLength : MacLength)
    (header payload : Bytes) :
    (Definition.authenticated nonce macLength header payload).blocks.length =
      1 + headerBlocks header.length + blockCount payload.length := by
  rw [blocks_authenticated, List.length_cons, List.length_append, length_blocks_encodedHeader,
    Bytes.length_blocks, blockCount]
  omega

/-- The blocks of a message that its CBC-MAC encrypts. -/
theorem length_macInputs (encrypt : Block → Block) (nonce : Nonce) (macLength : MacLength)
    (header payload : Bytes) :
    (chainInputs encrypt Block.zero
      (Definition.authenticated nonce macLength header payload).blocks).length =
      1 + headerBlocks header.length + blockCount payload.length := by
  rw [Definition.length_chainInputs, length_blocks_authenticated]

theorem length_counterInputs (nonce : Nonce) (payload : Nat) :
    (counterInputs nonce payload).length = blockCount payload + 1 := by
  rw [counterInputs, List.length_append, List.length_map, List.length_range, List.length_singleton]

theorem length_cipherInputs (encrypt : Block → Block) (nonce : Nonce) (macLength : MacLength)
    (header payload : Bytes) :
    (cipherInputs encrypt nonce macLength header payload).length =
      callCount header.length payload.length := by
  rw [cipherInputs, List.length_append, length_macInputs, length_counterInputs, callCount]
  omega

/-! ## Sealing against a cipher that never fails -/

theorem check_of_le {header payload : Nat} (hheader : header ≤ maxHeader)
    (hpayload : payload ≤ maxPayload) :
    Lengths.check header payload = .ok ⟨header, payload, hheader, hpayload⟩ := by
  rw [Lengths.check, dif_pos hheader, dif_pos hpayload]

theorem plays_authenticate (encrypt : Block → Block) (parameters : Parameters)
    (header payload : Bytes) :
    Dialogue.Plays encrypt (authenticate parameters header payload)
      (chainInputs encrypt Block.zero (Definition.authenticated parameters.nonce
        parameters.macLength header payload).blocks)
      (.ok (Definition.mac encrypt parameters.nonce parameters.macLength header payload)) := by
  rw [authenticate_eq_chainBlocks]
  exact CbcMac.plays_chainBlocks encrypt Block.zero _

theorem plays_sealMessage (encrypt : Block → Block) (parameters : Parameters)
    (header payload : Bytes) (hheader : header.length ≤ 65535)
    (hpayload : payload.length ≤ 65535) :
    Dialogue.Plays encrypt (sealMessage parameters header payload)
      (cipherInputs encrypt parameters.nonce parameters.macLength header payload)
      (.ok { ciphertext := Definition.ciphertext encrypt parameters.nonce payload
             tag := Definition.tag encrypt parameters.nonce parameters.macLength header payload }) := by
  have hmac := plays_authenticate encrypt parameters header payload
  have htag := plays_maskTag encrypt parameters.nonce
    (Definition.mac encrypt parameters.nonce parameters.macLength header payload)
    parameters.macLength
  rw [counterBlock_eq_counterInput, ← Definition.tag] at htag
  rw [sealMessage, check_of_le hheader hpayload, cipherInputs, counterInputs_eq,
    counterBlock_eq_counterInput]
  refine hmac.bind ((plays_encryptPayload encrypt parameters.nonce hpayload).bind ?_)
  rw [← List.append_nil [Definition.counterInput parameters.nonce 0]]
  exact htag.bind (Dialogue.Plays.result _)

/-- What sealing yields, and the blocks it hands over for that. -/
theorem run_sealMessage (encrypt : Block → Block) (parameters : Parameters)
    (header payload : Bytes) (hheader : header.length ≤ 65535)
    (hpayload : payload.length ≤ 65535) :
    (sealMessage parameters header payload).run (.total encrypt) =
      (.ok { ciphertext := Definition.ciphertext encrypt parameters.nonce payload
             tag := Definition.tag encrypt parameters.nonce parameters.macLength header payload },
        (cipherInputs encrypt parameters.nonce parameters.macLength header payload).toArray) :=
  (plays_sealMessage encrypt parameters header payload hheader hpayload).run_total

/-- **Sealing is what the definition says.** -/
theorem sealMessage_run_total (encrypt : Block → Block) (parameters : Parameters)
    (header payload : Bytes) (hheader : header.length ≤ 65535)
    (hpayload : payload.length ≤ 65535) :
    ((sealMessage parameters header payload).run (.total encrypt)).1 =
      .ok { ciphertext := Definition.ciphertext encrypt parameters.nonce payload
            tag := Definition.tag encrypt parameters.nonce parameters.macLength header payload } := by
  rw [run_sealMessage encrypt parameters header payload hheader hpayload]

/-- A header of the first length that takes the six-byte form, and a payload that ends within a
block. -/
theorem sealMessage_run_total_long_header :
    let parameters : Parameters :=
      ⟨⟨Vector.replicate 16 0⟩, ⟨Vector.replicate 13 0⟩, ⟨8, by decide, by decide, by decide⟩⟩
    let header : Bytes := List.replicate 0xFF00 0x5A
    let payload : Bytes := List.replicate 17 1
    header.length ≤ 65535 ∧ payload.length ≤ 65535 ∧
      ((sealMessage parameters header payload).run (.total id)).1 =
        .ok { ciphertext := Definition.ciphertext id parameters.nonce payload
              tag := Definition.tag id parameters.nonce parameters.macLength header payload } := by
  intro parameters header payload
  have hheader : header.length ≤ 65535 := by
    rw [List.length_replicate]
    decide
  have hpayload : payload.length ≤ 65535 := by decide
  exact ⟨hheader, hpayload, sealMessage_run_total id parameters header payload hheader hpayload⟩

/-! ## Sealing against a cipher that gives up -/

theorem sealMessage_log_total (encrypt : Block → Block) (parameters : Parameters)
    (header payload : Bytes) (hheader : header.length ≤ 65535)
    (hpayload : payload.length ≤ 65535) :
    ((sealMessage parameters header payload).run (.total encrypt)).2.toList =
      cipherInputs encrypt parameters.nonce parameters.macLength header payload := by
  rw [run_sealMessage encrypt parameters header payload hheader hpayload]

theorem sealMessage_calls_total (encrypt : Block → Block) (parameters : Parameters)
    (header payload : Bytes) (hheader : header.length ≤ 65535)
    (hpayload : payload.length ≤ 65535) :
    ((sealMessage parameters header payload).run (.total encrypt)).2.size =
      callCount header.length payload.length := by
  rw [← Array.length_toList, sealMessage_log_total _ _ _ _ hheader hpayload, length_cipherInputs]

/-- **A cipher that fails cuts a sealing off cleanly.** If it is good for as many calls as the
message needs, its end is not noticed.  If not, sealing ends in the fault, and the blocks handed
over are those of the full run up to the call that failed, this one included.  The full run hands
over the inputs of the CBC-MAC, then the counter blocks from one on, and last counter zero. -/
theorem sealMessage_run_failAfter (encrypt : Block → Block) (calls : Nat) (reason : String)
    (parameters : Parameters) (header payload : Bytes) (hheader : header.length ≤ 65535)
    (hpayload : payload.length ≤ 65535) :
    let full := (sealMessage parameters header payload).run (.total encrypt)
    let cut := (sealMessage parameters header payload).run
      ((BlockCipher.total encrypt).failAfter calls reason)
    let needed := callCount header.length payload.length
    let macInputs := chainInputs encrypt Block.zero
      (Definition.authenticated parameters.nonce parameters.macLength header payload).blocks
    (needed ≤ calls →
      (∃ message, full.1 = .ok message ∧ cut.1 = .ok message) ∧ cut.2.size = needed) ∧
    (calls < needed →
      cut.1 = .error (.fault ⟨reason⟩) ∧ cut.2.size = calls + 1 ∧
        cut.2.toList = full.2.toList.take (calls + 1)) ∧
    full.2.toList = macInputs ++ counterInputs parameters.nonce payload.length ∧
    macInputs.length = 1 + headerBlocks header.length + blockCount payload.length := by
  intro full cut needed macInputs
  have hlog : full.2.toList = macInputs ++ counterInputs parameters.nonce payload.length :=
    sealMessage_log_total encrypt parameters header payload hheader hpayload
  have hsize : full.2.size = needed :=
    sealMessage_calls_total encrypt parameters header payload hheader hpayload
  refine ⟨?_, ?_, hlog, length_macInputs _ _ _ _ _⟩
  · intro henough
    have hsame : cut = full := Dialogue.run_failAfter_of_le _ calls reason _ (hsize ▸ henough)
    have hending := congrArg Prod.fst
      (run_sealMessage encrypt parameters header payload hheader hpayload)
    rw [hsame]
    exact ⟨⟨_, hending, hending⟩, hsize⟩
  · intro hshort
    obtain ⟨hending, htrace⟩ := Dialogue.run_failAfter_of_lt (.total encrypt) calls reason
      (sealMessage parameters header payload) (hsize ▸ hshort)
    refine ⟨hending, ?_, htrace⟩
    rw [← Array.length_toList, htrace, List.length_take, Array.length_toList,
      sealMessage_calls_total _ _ _ _ hheader hpayload]
    exact Nat.min_eq_left hshort

/-- A cipher good for five calls where seven are needed: the first block, one block of the header,
two of the payload and counter one are answered, and counter two is not. -/
theorem sealMessage_run_failAfter_five :
    let parameters : Parameters :=
      ⟨⟨Vector.replicate 16 0⟩, ⟨Vector.replicate 13 0⟩, ⟨8, by decide, by decide, by decide⟩⟩
    let header : Bytes := [1, 2, 3]
    let payload : Bytes := List.replicate 17 1
    let full := (sealMessage parameters header payload).run (.total id)
    let cut := (sealMessage parameters header payload).run
      ((BlockCipher.total id).failAfter 5 "fault")
    header.length ≤ 65535 ∧ payload.length ≤ 65535 ∧
      5 < callCount header.length payload.length ∧
      cut.1 = .error (.fault ⟨"fault"⟩) ∧ cut.2.size = 6 ∧
        cut.2.toList = full.2.toList.take 6 := by
  intro parameters header payload full cut
  have hheader : header.length ≤ 65535 := by decide
  have hpayload : payload.length ≤ 65535 := by decide
  have hshort : 5 < callCount header.length payload.length := by decide
  exact ⟨hheader, hpayload, hshort,
    (sealMessage_run_failAfter id 5 "fault" parameters header payload hheader hpayload).2.1 hshort⟩

end KnownAnswer.Ccm
