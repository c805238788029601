import KnownAnswer.Conformance.Outcome
import KnownAnswer.Proofs.Guards

/-!
# What a refusal says

Sealing refuses a message for the length of a part and for nothing else, and it does so before any
block is handed over; counter mode could refuse a payload of the same kind later, but never comes to
it.  So an error of validation means that no block was encrypted, and where there is none, either the
message is sealed or the cipher is to blame, with the first call that it failed
(`sealMessage_refusal_exact`).  Guards on ranges and words of the machine do not change this: none of
them ever halts a sealing.
-/

namespace KnownAnswer.Ccm

open Dialogue (Answered Willing)

section

variable (parameters : Parameters) {header payload : Bytes} (cipher : BlockCipher)

/-! ## Beyond capacity -/

theorem run_sealMessage_of_header_lt (h : 65535 < header.length) (payload : Bytes) :
    (sealMessage parameters header payload).run cipher =
      (.error (.refused (.tooLong .header header.length 65535)), #[]) := by
  unfold sealMessage
  rw [Lengths.check_of_header_lt h]
  rfl

theorem run_sealMessage_of_payload_lt (hheader : header.length ≤ 65535)
    (h : 65535 < payload.length) :
    (sealMessage parameters header payload).run cipher =
      (.error (.refused (.tooLong .payload payload.length 65535)), #[]) := by
  unfold sealMessage
  rw [Lengths.check_of_payload_lt hheader h]
  rfl

/-! ## Within capacity -/

theorem isValidation_of_run_sealMessage (hheader : header.length ≤ 65535)
    (hpayload : payload.length ≤ 65535) {error : SealError}
    (h : ((sealMessage parameters header payload).run cipher).1 = .error error) :
    error.isValidation = false := by
  cases error with
  | refused reason =>
      exact absurd h ((willing_sealMessage parameters hheader hpayload).runFrom_ne_refused cipher
        Array.empty reason)
  | fault fault => rfl

theorem willing_encryptPayload (nonce : Nonce) (h : payload.length ≤ 65535) :
    Willing (encryptPayload nonce payload) :=
  (asks_encryptPayload nonce h).takes.willing

/-! ## Errors of validation -/

theorem run_sealMessage_isValidation_iff (header payload : Bytes) :
    (∃ error : SealError, ((sealMessage parameters header payload).run cipher).1 = .error error ∧
      error.isValidation = true) ↔ 65535 < header.length ∨ 65535 < payload.length := by
  constructor
  · rintro ⟨error, herror, hvalidation⟩
    by_contra hwithin
    rw [not_or, Nat.not_lt, Nat.not_lt] at hwithin
    have hfault := isValidation_of_run_sealMessage parameters cipher hwithin.1 hwithin.2 herror
    rw [hfault] at hvalidation
    cases hvalidation
  · intro hbeyond
    rcases Nat.lt_or_ge 65535 header.length with hheader | hheader
    · have hrun := run_sealMessage_of_header_lt parameters cipher hheader payload
      exact ⟨_, congrArg Prod.fst hrun, rfl⟩
    · have hpayload : 65535 < payload.length := hbeyond.resolve_left (Nat.not_lt_of_le hheader)
      have hrun := run_sealMessage_of_payload_lt parameters cipher hheader hpayload
      exact ⟨_, congrArg Prod.fst hrun, rfl⟩

/-! ## With every guard in place -/

theorem run_guarded (header payload : Bytes) :
    (Guarded.sealMessage parameters header payload).run cipher =
      (((sealMessage parameters header payload).run cipher).1.mapError (Stop.map .rejected),
        ((sealMessage parameters header payload).run cipher).2) := by
  rw [Guarded.sealMessage_eq]
  exact Dialogue.runFrom_mapRefusal _ cipher _ Array.empty

theorem run_guarded_ne_outOfRange (header payload : Bytes) :
    ((Guarded.sealMessage parameters header payload).run cipher).1 ≠
      .error (.refused .outOfRange) := by
  rw [run_guarded]
  show Except.mapError _ ((sealMessage parameters header payload).run cipher).1 ≠ _
  intro hhalt
  cases hending : ((sealMessage parameters header payload).run cipher).1 with
  | ok message =>
      rw [hending] at hhalt
      cases hhalt
  | error stop =>
      -- what the plain program refuses is a rejection, and a fault is no refusal
      rw [hending] at hhalt
      cases stop with
      | refused reason => cases hhalt
      | fault fault => cases hhalt

end

/-! ## Every message -/

/-- **A refusal comes before any call.** Whatever the lengths of header and payload and whatever the
cipher does, the error of a sealing is one of validation exactly if one of the lengths is beyond
capacity.  It then names the header if that is too long and the payload otherwise, with the exact
length, and no block was handed over.  In every other case a block is handed over, and the sealing
comes to its message with every call answered or ends in the fault of the first call that was not:
counter mode does not refuse.  With every guard in place there are the same endings and the same
calls, so no guard ever halts a sealing. -/
theorem sealMessage_refusal_exact (parameters : Parameters) (header payload : Bytes)
    (cipher : BlockCipher) :
    let run := (sealMessage parameters header payload).run cipher
    let guarded := (Guarded.sealMessage parameters header payload).run cipher
    ((∃ error : SealError, run.1 = .error error ∧ error.isValidation = true) ↔
      65535 < header.length ∨ 65535 < payload.length) ∧
    (65535 < header.length →
      run = (.error (.refused (.tooLong .header header.length 65535)), #[])) ∧
    (header.length ≤ 65535 → 65535 < payload.length →
      run = (.error (.refused (.tooLong .payload payload.length 65535)), #[])) ∧
    (header.length ≤ 65535 → payload.length ≤ 65535 →
      0 < run.2.size ∧
      ((∃ message, run.1 = .ok message ∧ Answered cipher run.2) ∨
        ∃ log block fault, Answered cipher log ∧ cipher.answer log block = .error fault ∧
          run = (.error (.fault fault), log.push block)) ∧
      Willing (encryptPayload parameters.nonce payload)) ∧
    guarded = (run.1.mapError (Stop.map .rejected), run.2) ∧
    guarded.1 ≠ .error (.refused .outOfRange) := by
  intro run guarded
  refine ⟨?_, ?_, ?_, ?_, ?_, ?_⟩
  · exact run_sealMessage_isValidation_iff parameters cipher header payload
  · intro hheader
    exact run_sealMessage_of_header_lt parameters cipher hheader payload
  · intro hheader hpayload
    exact run_sealMessage_of_payload_lt parameters cipher hheader hpayload
  · intro hheader hpayload
    refine ⟨size_sealMessage_log_pos parameters hheader hpayload cipher, ?_, ?_⟩
    · exact (willing_sealMessage parameters hheader hpayload).run_cases cipher
    · exact willing_encryptPayload parameters.nonce hpayload
  · exact run_guarded parameters cipher header payload
  · exact run_guarded_ne_outOfRange parameters cipher header payload

/-- Of a header and a payload that are both too long the header is named.  A message that holds
nothing still takes a call, and against a cipher that answers none it is the cipher that is blamed. -/
theorem sealMessage_refusal_exact_both_too_long :
    let parameters : Parameters :=
      ⟨⟨Vector.replicate 16 0⟩, ⟨Vector.replicate 13 0⟩, ⟨8, by decide, by decide, by decide⟩⟩
    let header : Bytes := List.replicate 65536 0
    let payload : Bytes := List.replicate 65537 1
    let mute : BlockCipher := BlockCipher.identity.failAfter 0 "mute"
    let long := (sealMessage parameters header payload).run mute
    let empty := (sealMessage parameters [] []).run mute
    65535 < header.length ∧ 65535 < payload.length ∧
      long = (.error (.refused (.tooLong .header 65536 65535)), #[]) ∧
      0 < empty.2.size ∧ ∃ fault, empty.1 = .error (.fault fault) := by
  intro parameters header payload mute long empty
  have hheader : header.length = 65536 := List.length_replicate
  have hpayload : payload.length = 65537 := List.length_replicate
  -- only their lengths count
  clear_value header payload
  have hbeyond : 65535 < header.length := by omega
  obtain ⟨-, hlong, -⟩ := sealMessage_refusal_exact parameters header payload mute
  obtain ⟨-, -, -, hempty, -⟩ := sealMessage_refusal_exact parameters [] [] mute
  obtain ⟨hused, hending, -⟩ := hempty (by decide) (by decide)
  have hmute : ∀ log, Answered mute log → log.size = 0 := by
    intro log hanswered
    cases hanswered with
    | start => rfl
    | push h hanswer => cases hanswer
  refine ⟨hbeyond, by omega, ?_, hused, ?_⟩
  · rw [← hheader]
    exact hlong hbeyond
  · rcases hending with ⟨message, hmessage, hanswered⟩ | ⟨log, block, fault, -, -, hrun⟩
    · have hunused := hmute _ hanswered
      omega
    · exact ⟨fault, congrArg Prod.fst hrun⟩

end KnownAnswer.Ccm
