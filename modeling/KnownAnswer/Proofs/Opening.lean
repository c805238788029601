import KnownAnswer.Proofs.Sealing

/-!
# Opening what was sealed

The byte that counter mode adds to a payload depends on the nonce and on the place of the byte, and
on nothing else.  So sealing a ciphertext once more gives the payload back, under whatever header
and length of tag; a ciphertext tells nothing of the header; the ciphertext of a payload that is cut
anywhere is the ciphertext cut there; and of two payloads only the difference shows in the
difference of their ciphertexts (`sealMessage_recoverable`).
-/

namespace KnownAnswer.Ccm

open Definition (ciphertext keystreamByte)

/-! ## Ciphertexts byte by byte -/

theorem xor_xor_xor_cancel (key a b : UInt8) : (a ^^^ key) ^^^ (b ^^^ key) = a ^^^ b := by
  calc
    (a ^^^ key) ^^^ (b ^^^ key) = a ^^^ (key ^^^ key) ^^^ b := by
      rw [UInt8.xor_comm b, UInt8.xor_assoc, UInt8.xor_assoc, UInt8.xor_assoc]
    _ = a ^^^ b := by rw [UInt8.xor_self, UInt8.xor_zero]

section

variable (encrypt : Block → Block) (nonce : Nonce)

theorem getElem?_ciphertext (payload : Bytes) (k : Nat) :
    (ciphertext encrypt nonce payload)[k]? =
      payload[k]?.map (· ^^^ keystreamByte encrypt nonce k) := by
  rw [ciphertext, List.getElem?_mapIdx]

/-- Adding the keystream twice adds nothing. -/
theorem ciphertext_ciphertext (payload : Bytes) :
    ciphertext encrypt nonce (ciphertext encrypt nonce payload) = payload := by
  apply List.ext_getElem?
  intro k
  rw [getElem?_ciphertext, getElem?_ciphertext, Option.map_map]
  have htwice : (· ^^^ keystreamByte encrypt nonce k) ∘ (· ^^^ keystreamByte encrypt nonce k) =
      id := by
    funext byte
    show byte ^^^ keystreamByte encrypt nonce k ^^^ keystreamByte encrypt nonce k = byte
    rw [UInt8.xor_assoc, UInt8.xor_self, UInt8.xor_zero]
  rw [htwice, Option.map_id_apply]

theorem ciphertext_injective : Function.Injective (ciphertext encrypt nonce) :=
  Function.LeftInverse.injective (ciphertext_ciphertext encrypt nonce)

theorem ciphertext_take (count : Nat) (payload : Bytes) :
    ciphertext encrypt nonce (payload.take count) =
      (ciphertext encrypt nonce payload).take count := by
  apply List.ext_getElem?
  intro k
  rw [getElem?_ciphertext, List.getElem?_take, List.getElem?_take, getElem?_ciphertext]
  split
  · rfl
  · rfl

/-- The keystream falls out of the difference of two ciphertexts. -/
theorem zipWith_xor_ciphertext (payload payload' : Bytes) :
    List.zipWith (· ^^^ ·) (ciphertext encrypt nonce payload) (ciphertext encrypt nonce payload') =
      List.zipWith (· ^^^ ·) payload payload' := by
  apply List.ext_getElem?
  intro k
  rw [List.getElem?_zipWith, List.getElem?_zipWith, getElem?_ciphertext, getElem?_ciphertext]
  cases payload[k]? with
  | none => rfl
  | some byte =>
      cases payload'[k]? with
      | none => rfl
      | some byte' => exact congrArg some (xor_xor_xor_cancel _ byte byte')

end

/-! ## Opening -/

/-- **What is sealed can be opened.** Sealing the ciphertext once more under the same key and nonce,
with any header and any length of tag, yields the payload, and sealing that as before yields the
tag; so no two payloads are sealed alike.  The ciphertext is the same for every header and every
length of tag, a payload that is cut has the ciphertext cut there, and the ciphertexts of two
payloads of one length differ as the payloads do. -/
theorem sealMessage_recoverable (encrypt : Block → Block) (parameters : Parameters)
    (header payload : Bytes) (hheader : header.length ≤ 65535)
    (hpayload : payload.length ≤ 65535) :
    let outcome := fun (macLength : MacLength) (header payload : Bytes) =>
      ((sealMessage { parameters with macLength } header payload).run (.total encrypt)).1
    ∃ message, outcome parameters.macLength header payload = .ok message ∧
      (∀ macLength header', header'.length ≤ 65535 →
        ∃ opened, outcome macLength header' message.ciphertext = .ok opened ∧
          opened.ciphertext = payload ∧
          ∃ again, outcome parameters.macLength header opened.ciphertext = .ok again ∧
            again.tag = message.tag) ∧
      (∀ payload', payload'.length ≤ 65535 →
        outcome parameters.macLength header payload' = .ok message → payload' = payload) ∧
      (∀ macLength header', header'.length ≤ 65535 →
        ∃ other, outcome macLength header' payload = .ok other ∧
          other.ciphertext = message.ciphertext) ∧
      (∀ front, front <+: payload →
        ∃ cut, outcome parameters.macLength header front = .ok cut ∧
          cut.ciphertext = message.ciphertext.take front.length) ∧
      (∀ payload', payload'.length = payload.length →
        ∃ other, outcome parameters.macLength header payload' = .ok other ∧
          List.zipWith (· ^^^ ·) message.ciphertext other.ciphertext =
            List.zipWith (· ^^^ ·) payload payload') := by
  intro outcome
  -- from here on the runs are those two functions of the inputs
  have hseals : ∀ (macLength : MacLength) (header payload : Bytes), header.length ≤ 65535 →
      payload.length ≤ 65535 → outcome macLength header payload =
        .ok ⟨ciphertext encrypt parameters.nonce payload,
          Definition.tag encrypt parameters.nonce macLength header payload⟩ :=
    fun macLength header payload hheader hpayload => congrArg Prod.fst
      (run_sealMessage encrypt { parameters with macLength } header payload hheader hpayload)
  refine ⟨_, hseals parameters.macLength header payload hheader hpayload, ?_, ?_, ?_, ?_, ?_⟩
  · intro macLength header' hheader'
    have hopened := hseals macLength header' (ciphertext encrypt parameters.nonce payload) hheader'
      (by rwa [Definition.length_ciphertext])
    refine ⟨_, hopened, ciphertext_ciphertext encrypt parameters.nonce payload, ?_⟩
    rw [ciphertext_ciphertext]
    exact ⟨_, hseals parameters.macLength header payload hheader hpayload, rfl⟩
  · intro payload' hpayload' hsame
    rw [hseals parameters.macLength header payload' hheader hpayload', Except.ok.injEq,
      Sealed.mk.injEq] at hsame
    exact ciphertext_injective encrypt parameters.nonce hsame.1
  · intro macLength header' hheader'
    exact ⟨_, hseals macLength header' payload hheader' hpayload, rfl⟩
  · intro front hfront
    refine ⟨_, hseals parameters.macLength header front hheader
      (Nat.le_trans hfront.length_le hpayload), ?_⟩
    rw [← ciphertext_take, ← List.prefix_iff_eq_take.mp hfront]
  · intro payload' hlength
    refine ⟨_, hseals parameters.macLength header payload' hheader (hlength ▸ hpayload), ?_⟩
    exact zipWith_xor_ciphertext encrypt parameters.nonce payload payload'

/-- A payload of one block and one byte, opened without a header and with another length of tag, and
cut within its first block. -/
theorem sealMessage_recoverable_two_blocks :
    let parameters : Parameters :=
      ⟨⟨Vector.replicate 16 0⟩, ⟨Vector.replicate 13 0⟩, ⟨8, by decide, by decide, by decide⟩⟩
    let longest : MacLength := ⟨16, by decide, by decide, by decide⟩
    let header : Bytes := [1, 2, 3]
    let payload : Bytes := List.replicate 17 7
    let front : Bytes := List.replicate 5 7
    header.length ≤ 65535 ∧ payload.length ≤ 65535 ∧ front <+: payload ∧
      ∃ message,
        ((sealMessage parameters header payload).run (.total id)).1 = .ok message ∧
        (∃ opened,
          ((sealMessage { parameters with macLength := longest } [] message.ciphertext).run
            (.total id)).1 = .ok opened ∧ opened.ciphertext = payload) ∧
        ∃ cut, ((sealMessage parameters header front).run (.total id)).1 = .ok cut ∧
          cut.ciphertext = message.ciphertext.take 5 := by
  intro parameters longest header payload front
  have hheader : header.length ≤ 65535 := by decide
  have hpayload : payload.length ≤ 65535 := by decide
  have hfront : front <+: payload := by decide
  obtain ⟨message, hmessage, hopen, -, -, hcut, -⟩ :=
    sealMessage_recoverable id parameters header payload hheader hpayload
  obtain ⟨opened, hopened, hsame, -⟩ := hopen longest [] (by decide)
  exact ⟨hheader, hpayload, hfront, message, hmessage, ⟨opened, hopened, hsame⟩,
    hcut front hfront⟩

end KnownAnswer.Ccm
