import KnownAnswer.Proofs.AnyCipher
import Mathlib.Data.List.Nodup

/-!
# Blocks that are kept apart

No counter block is used twice under a key: within a sealing the counters differ, across sealings
the nonces do, and the first block of an authentication pass is no counter block at all because its
flags always tell the length of a tag.  Under a cipher that maps no two blocks to one, payloads that
are encrypted under two nonces are therefore masked differently in every block
(`counterBlocks_separated`).
-/

namespace KnownAnswer.Ccm

open Dialogue (Asks)
open Definition (blockCount ciphertext counterInput keystreamByte)

/-! ## Formats -/

theorem counterBlock_injective {nonce nonce' : Nonce} {i j : Nat} (hi : i ≤ 65535)
    (hj : j ≤ 65535) (h : counterBlock nonce i = counterBlock nonce' j) :
    nonce = nonce' ∧ i = j := by
  have hbytes := congrArg Block.toBytes h
  rw [toBytes_counterBlock, toBytes_counterBlock] at hbytes
  obtain ⟨hfront, hcounter⟩ := List.append_inj hbytes (by simp)
  obtain ⟨-, hnonce⟩ := List.append_inj hfront rfl
  refine ⟨Nonce.toBytes_injective hnonce, ?_⟩
  exact Bytes.bigEndian_injective (show i < 256 ^ 2 by omega) (show j < 256 ^ 2 by omega) hcounter

/-- The shortest tag has four bytes, so its bits in the flags are never all zero. -/
theorem firstBlock_ne_counterBlock (nonce nonce' : Nonce) (macLength : MacLength)
    (hasHeader : Bool) (payload counter : Nat) :
    firstBlock nonce macLength hasHeader payload ≠ counterBlock nonce' counter := by
  intro h
  have hbytes := congrArg Block.toBytes h
  rw [toBytes_firstBlock, toBytes_counterBlock, List.append_assoc, List.append_assoc,
    List.singleton_append, List.singleton_append] at hbytes
  have hflags := congrArg UInt8.toNat (List.cons.inj hbytes).1
  rw [toNat_flags] at hflags
  have hmin : 4 ≤ macLength.size := macLength.min_le
  have hone : (1 : UInt8).toNat = 1 := rfl
  omega

/-! ## Counters of one sealing -/

theorem nodup_counterBlocks (nonce : Nonce) {counter count : Nat} (h : counter + count ≤ 65536) :
    (counterBlocks nonce counter count).Nodup := by
  refine List.Nodup.map_on ?_ List.nodup_range
  intro i hi j hj hij
  rw [List.mem_range] at hi hj
  have hcounters := (counterBlock_injective (by omega) (by omega) hij).2
  omega

/-- Counter zero is apart from those that a payload is encrypted under. -/
theorem counterBlock_zero_notMem (nonce : Nonce) {count : Nat} (h : count ≤ 65535) :
    counterBlock nonce 0 ∉ counterBlocks nonce 1 count := by
  intro hmem
  obtain ⟨i, hi, hzero⟩ := List.mem_map.mp hmem
  rw [List.mem_range] at hi
  have hcounters := (counterBlock_injective (by omega) (by omega) hzero).2
  omega

theorem nodup_counterInputs (nonce : Nonce) {payload : Nat} (h : payload ≤ 65535) :
    (counterBlocks nonce 1 (blockCount payload) ++ [counterBlock nonce 0]).Nodup := by
  have hcount : blockCount payload ≤ 65535 := by
    rw [blockCount]
    omega
  rw [List.nodup_append]
  refine ⟨nodup_counterBlocks nonce (by omega), List.nodup_singleton _, ?_⟩
  rintro block hblock _ hzero rfl
  rw [List.mem_singleton.mp hzero] at hblock
  exact counterBlock_zero_notMem nonce hcount hblock

/-! ## Two ciphertexts of one payload -/

/-- A full block of a ciphertext gives away the keystream that its payload was masked with. -/
theorem encrypt_eq_of_block_eq {encrypt : Block → Block} {nonce nonce' : Nonce} {payload : Bytes}
    {i : Nat} (hfull : 16 * (i + 1) ≤ payload.length)
    (h : ((ciphertext encrypt nonce payload).drop (16 * i)).take 16 =
      ((ciphertext encrypt nonce' payload).drop (16 * i)).take 16) :
    encrypt (counterBlock nonce (i + 1)) = encrypt (counterBlock nonce' (i + 1)) := by
  refine Vector.ext fun r hr => ?_
  have hlt : 16 * i + r < payload.length := by omega
  have hbyte := congrArg (fun text => text[r]?) h
  have hdiv : (16 * i + r) / 16 = i := by omega
  have hmod : (16 * i + r) % 16 = r := by omega
  simp only [List.getElem?_take, List.getElem?_drop, hr, if_true, ciphertext,
    List.getElem?_mapIdx, List.getElem?_eq_getElem hlt, Option.map_some, Option.some.injEq,
    keystreamByte, hdiv, hmod, ← counterBlock_eq_counterInput, UInt8.xor_right_inj] at hbyte
  simpa [Block.toBytes, hr] using hbyte

/-! ## Separation -/

/-- **Counter blocks are kept apart.** Behind the calls of the authentication pass, whose first is
the first block, a sealing hands over the counter blocks from one on for its payload and then
counter zero for its tag, no two of them alike, up to a call that fails.  Counter blocks of two
sealings are only alike if nonce and counter are, and first blocks are like none of them.  So under
two nonces the ciphertexts of one payload differ in every full block. -/
theorem counterBlocks_separated (parameters parameters' : Parameters)
    (header header' payload : Bytes) (hheader : header.length ≤ 65535)
    (hheader' : header'.length ≤ 65535) (hpayload : payload.length ≤ 65535) :
    let counters := counterBlocks parameters.nonce 1 (blockCount payload.length)
    (∀ cipher, ∃ asked,
      ((sealMessage parameters header payload).run cipher).2.toList =
        ((authenticate parameters header payload).run cipher).2.toList ++ asked ∧
      ((authenticate parameters header payload).run cipher).2.toList.head? =
        some (firstBlock parameters.nonce parameters.macLength (!header.isEmpty)
          payload.length) ∧
      asked <+: counters ++ [counterBlock parameters.nonce 0] ∧
      ∀ message, ((sealMessage parameters header payload).run cipher).1 = .ok message →
        asked = counters ++ [counterBlock parameters.nonce 0]) ∧
    (Asks (encryptPayload parameters.nonce payload) counters ∧
      (∀ mac, Asks (maskTag parameters.nonce mac parameters.macLength)
        [counterBlock parameters.nonce 0]) ∧
      (counters ++ [counterBlock parameters.nonce 0]).Nodup) ∧
    (∀ i j, i ≤ 65535 → j ≤ 65535 →
      counterBlock parameters.nonce i = counterBlock parameters'.nonce j →
        parameters.nonce = parameters'.nonce ∧ i = j) ∧
    (∀ hasHeader length counter,
      firstBlock parameters.nonce parameters.macLength hasHeader length ≠
        counterBlock parameters'.nonce counter) ∧
    (∀ encrypt, Function.Injective encrypt → parameters.nonce ≠ parameters'.nonce →
      ∃ message message',
        ((sealMessage parameters header payload).run (.total encrypt)).1 = .ok message ∧
        ((sealMessage parameters' header' payload).run (.total encrypt)).1 = .ok message' ∧
        ∀ i, 16 * (i + 1) ≤ payload.length →
          (message.ciphertext.drop (16 * i)).take 16 ≠
            (message'.ciphertext.drop (16 * i)).take 16) := by
  intro counters
  refine ⟨fun cipher => ?_, ⟨?_, ?_, ?_⟩, ?_, ?_, ?_⟩
  · obtain ⟨asked, hlog, hasked, hall⟩ := sealMessage_log parameters hheader hpayload cipher
    rw [counterInputs_eq] at hasked hall
    exact ⟨asked, hlog, head?_authenticate_log parameters header payload cipher, hasked, hall⟩
  · exact asks_encryptPayload parameters.nonce hpayload
  · exact fun mac => asks_maskTag parameters.nonce mac parameters.macLength
  · exact nodup_counterInputs parameters.nonce hpayload
  · exact fun i j hi hj hij => counterBlock_injective hi hj hij
  · exact fun hasHeader length counter => firstBlock_ne_counterBlock _ _ _ hasHeader length counter
  · intro encrypt hinjective hnonces
    have hseals := run_sealMessage encrypt parameters header payload hheader hpayload
    have hseals' := run_sealMessage encrypt parameters' header' payload hheader' hpayload
    refine ⟨_, _, congrArg Prod.fst hseals, congrArg Prod.fst hseals', ?_⟩
    intro i hfull hsame
    have hblocks := hinjective (encrypt_eq_of_block_eq hfull hsame)
    have hcounter : i + 1 ≤ 65535 := by omega
    exact hnonces (counterBlock_injective hcounter hcounter hblocks).1

/-- Two full blocks and one byte under two nonces: three counters and counter zero, and two blocks
in which the ciphertexts differ. -/
theorem counterBlocks_separated_two_nonces :
    let parameters : Parameters :=
      ⟨⟨Vector.replicate 16 0⟩, ⟨Vector.replicate 13 0⟩, ⟨4, by decide, by decide, by decide⟩⟩
    let parameters' : Parameters := { parameters with nonce := ⟨Vector.replicate 13 1⟩ }
    let header : Bytes := [1, 2, 3]
    let payload : Bytes := List.replicate 33 7
    header.length ≤ 65535 ∧ ([] : Bytes).length ≤ 65535 ∧ payload.length ≤ 65535 ∧
      Function.Injective (id : Block → Block) ∧ parameters.nonce ≠ parameters'.nonce ∧
      (counterBlocks parameters.nonce 1 3 ++ [counterBlock parameters.nonce 0]).Nodup ∧
      ∃ message message',
        ((sealMessage parameters header payload).run (.total id)).1 = .ok message ∧
        ((sealMessage parameters' [] payload).run (.total id)).1 = .ok message' ∧
        message.ciphertext.take 16 ≠ message'.ciphertext.take 16 ∧
        (message.ciphertext.drop 16).take 16 ≠ (message'.ciphertext.drop 16).take 16 := by
  intro parameters parameters' header payload
  have hheader : header.length ≤ 65535 := by decide
  have hheader' : ([] : Bytes).length ≤ 65535 := by decide
  have hpayload : payload.length ≤ 65535 := by decide
  have hinjective : Function.Injective (id : Block → Block) := Function.injective_id
  have hnonces : parameters.nonce ≠ parameters'.nonce := by decide
  have hcount : blockCount payload.length = 3 := by decide
  obtain ⟨-, ⟨-, -, hnodup⟩, -, -, hciphertexts⟩ :=
    counterBlocks_separated parameters parameters' header [] payload hheader hheader' hpayload
  rw [hcount] at hnodup
  obtain ⟨message, message', hmessage, hmessage', hblocks⟩ := hciphertexts id hinjective hnonces
  exact ⟨hheader, hheader', hpayload, hinjective, hnonces, hnodup, message, message', hmessage,
    hmessage', hblocks 0 (by decide), hblocks 1 (by decide)⟩

end KnownAnswer.Ccm
