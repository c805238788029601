import KnownAnswer.Conformance.Harness
import KnownAnswer.Proofs.Admission
import KnownAnswer.Proofs.AnyCipher

/-!
# No cipher for a rejected vector

A vector that violates a condition is reported with the first one it violates, and no cipher is
built for it; one that violates none gets one cipher, for its own key, and the report is that of
sealing with it.  Sealing refuses nothing once the cipher is there, so such a vector is not
rejected, unless by a check: a check may report what it likes.  If the checks keep to the output
(`Checks.SpeakOfOutput`), the kind of a failure tells whether there was a cipher
(`Harness.trial_gating`).
-/

namespace KnownAnswer.Conformance

open Ccm (Parameters Rejection)

/-! ## Failures of checks -/

/-- A check that keeps to the output.  What it has to say is no error of sealing: that a vector is
rejected, or that its cipher fails, is found out before there is an output. -/
def Check.SpeaksOfOutput (check : Check) : Prop :=
  ∀ expected actual failure, check.failure? expected actual = some failure →
    failure.sealError? = none

/-- No registered check reports an error of sealing: none says that a vector was rejected, or that
its cipher failed. -/
def Checks.SpeakOfOutput (checks : Checks) : Prop := ∀ check ∈ checks, check.SpeaksOfOutput

theorem Check.speaksOfOutput_length : Check.length.SpeaksOfOutput := by
  intro expected actual failure h
  rw [failure?_length] at h
  obtain ⟨-, h⟩ := Option.ite_none_left_eq_some.mp h
  cases h
  rfl

theorem Check.speaksOfOutput_content : Check.content.SpeaksOfOutput := by
  intro expected actual failure h
  obtain ⟨⟨offset, e, a⟩, -, hfailure⟩ := Option.map_eq_some_iff.mp h
  rw [← hfailure]
  rfl

theorem Checks.SpeakOfOutput.add {checks : Checks} {check : Check} (hchecks : checks.SpeakOfOutput)
    (hcheck : check.SpeaksOfOutput) : (checks.add check).SpeakOfOutput := by
  intro other hother
  rcases List.mem_append.mp hother with hold | hnew
  · exact hchecks other hold
  · rw [List.mem_singleton.mp hnew]
    exact hcheck

theorem Checks.speakOfOutput_standard : Checks.standard.SpeakOfOutput := by
  have hnone : SpeakOfOutput [] := fun _ hcheck => absurd hcheck List.not_mem_nil
  exact (hnone.add Check.speaksOfOutput_length).add Check.speaksOfOutput_content

theorem Failure.isValidation_of_sealError? {failure : Failure} (h : failure.sealError? = none) :
    failure.isValidation = false := by
  cases failure with
  | rejected reason => cases h
  | cipherFault fault => cases h
  | lengthMismatch expected actual => rfl
  | contentMismatch offset expected actual => rfl

/-- The bytes that a vector is sealed to, if it is. -/
def sealedBytes? (cipherFor : Ccm.Key → BlockCipher) (vector : TestVector) : Option Bytes :=
  match (sealVector cipherFor vector).1 with
  | .ok message => some message.toBytes
  | .error _ => none

namespace Harness

theorem judge_eq_fail_iff {harness : Harness} {expected actual : Bytes} {failure : Failure} :
    harness.judge expected actual = .fail failure ↔
      harness.checks.failure? expected actual = some failure := by
  rw [judge]
  cases harness.checks.failure? expected actual with
  | none => simp
  | some other => simp

theorem sealError?_of_judge {harness : Harness} (hchecks : harness.checks.SpeakOfOutput)
    {expected actual : Bytes} {failure : Failure}
    (h : harness.judge expected actual = .fail failure) : failure.sealError? = none := by
  obtain ⟨check, hcheck, hfailure⟩ := List.exists_of_findSome?_eq_some (judge_eq_fail_iff.mp h)
  exact hchecks check hcheck expected actual failure hfailure

/-! ## One trial -/

variable (harness : Harness) {vector : TestVector}

theorem trial_of_error {reason : Rejection} (h : vector.validate = .error reason) :
    harness.trial vector =
      ⟨{ id := vector.id, outcome := .fail (.rejected reason), output := none }, none⟩ := by
  rw [trial, sealVector, h]
  rfl

variable {parameters : Parameters} {blocks : Array Block}

theorem trial_of_sealed (h : vector.validate = .ok parameters) {message : Ccm.Sealed}
    (hrun : (Ccm.sealMessage parameters vector.header vector.plaintext).run
      (harness.cipherFor parameters.key) = (.ok message, blocks)) :
    harness.trial vector =
      ⟨{ id := vector.id
         outcome := harness.judge vector.expected message.toBytes
         output := if harness.capture then some message.toBytes else none },
        some ⟨parameters.key, blocks⟩⟩ := by
  simp only [trial, sealVector, h, hrun]

theorem trial_of_stopped (h : vector.validate = .ok parameters) {stop : Ccm.SealError}
    (hrun : (Ccm.sealMessage parameters vector.header vector.plaintext).run
      (harness.cipherFor parameters.key) = (.error stop, blocks)) :
    harness.trial vector =
      ⟨{ id := vector.id, outcome := .fail (Failure.ofSealError stop) },
        some ⟨parameters.key, blocks⟩⟩ := by
  simp only [trial, sealVector, h, hrun]

theorem output_trial (vector : TestVector) :
    (harness.trial vector).report.output =
      if harness.capture then sealedBytes? harness.cipherFor vector else none := by
  rw [trial, sealedBytes?]
  rcases sealVector harness.cipherFor vector with ⟨ending, cipher⟩
  cases ending with
  | error reason => simp
  | ok message => rfl

/-- A trial asks for no other cipher than that for the key of an admitted vector, and the number of
workers does not show in it. -/
theorem trial_congr {harness harness' : Harness} (hchecks : harness.checks = harness'.checks)
    (hcapture : harness.capture = harness'.capture)
    (hcipher : ∀ parameters, vector.validate = .ok parameters →
      harness.cipherFor parameters.key = harness'.cipherFor parameters.key) :
    harness.trial vector = harness'.trial vector := by
  cases hvalidate : vector.validate with
  | error reason => rw [trial_of_error harness hvalidate, trial_of_error harness' hvalidate]
  | ok parameters =>
      simp only [trial, sealVector, judge, hvalidate, hcipher parameters hvalidate, hchecks,
        hcapture]

/-- An admitted vector gets a cipher for its key, which is used.  What is reported is the judgement
on what sealing with it yields, or the fault that sealing ends with: within the capacity of the
length fields nothing is refused any more. -/
theorem trial_of_ok (h : vector.validate = .ok parameters)
    {ending : Except Ccm.SealError Ccm.Sealed}
    (hrun : (Ccm.sealMessage parameters vector.header vector.plaintext).run
      (harness.cipherFor parameters.key) = (ending, blocks)) :
    (harness.trial vector).cipher = some ⟨parameters.key, blocks⟩ ∧ 0 < blocks.size ∧
      (∀ message, ending = .ok message →
        (harness.trial vector).report =
          { id := vector.id
            outcome := harness.judge vector.expected message.toBytes
            output := if harness.capture then some message.toBytes else none }) ∧
      (∀ stop, ending = .error stop → ∃ fault, stop = .fault fault ∧
        (harness.trial vector).report =
          { id := vector.id, outcome := .fail (.cipherFault fault), output := none }) := by
  obtain ⟨-, -, -, hheader, hplaintext⟩ := TestVector.validate_eq_ok_iff.mp h
  have hused := Ccm.size_sealMessage_log_pos parameters hheader hplaintext
    (harness.cipherFor parameters.key)
  rw [hrun] at hused
  cases ending with
  | ok message =>
      rw [trial_of_sealed harness h hrun]
      refine ⟨rfl, hused, ?_, ?_⟩
      · intro other hother
        cases hother
        rfl
      · intro stop hstop
        cases hstop
  | error stop =>
      rw [trial_of_stopped harness h hrun]
      refine ⟨rfl, hused, ?_, ?_⟩
      · intro message hmessage
        cases hmessage
      · intro other hother
        cases hother
        cases stop with
        | refused reason =>
            have hwilling := (Ccm.willing_sealMessage parameters hheader
              hplaintext).runFrom_ne_refused (harness.cipherFor parameters.key) Array.empty reason
            exact absurd (congrArg Prod.fst hrun) hwilling
        | fault fault => exact ⟨fault, rfl, rfl⟩

/-- If the checks keep to the output, what is reported of an admitted vector is no rejection. -/
theorem isValidation_of_trial (hchecks : harness.checks.SpeakOfOutput)
    (h : vector.validate = .ok parameters) {failure : Failure}
    (hfailure : (harness.trial vector).report.outcome = .fail failure) :
    failure.isValidation = false := by
  rcases hrun : (Ccm.sealMessage parameters vector.header vector.plaintext).run
    (harness.cipherFor parameters.key) with ⟨ending, blocks⟩
  obtain ⟨-, -, hsealed, hstopped⟩ := trial_of_ok harness h hrun
  cases ending with
  | ok message =>
      rw [hsealed message rfl] at hfailure
      exact Failure.isValidation_of_sealError? (sealError?_of_judge hchecks hfailure)
  | error stop =>
      obtain ⟨fault, -, hreport⟩ := hstopped stop rfl
      rw [hreport] at hfailure
      cases hfailure
      rfl

/-- A check that blames the key is believed: the vector is reported as rejected, cipher or not. -/
example :
    let blame : Check :=
      { name := "blame", failure? := fun _ _ => some (.rejected (.missing .key)) }
    let harness : Harness := { cipherFor := fun _ => BlockCipher.identity, checks := [blame] }
    let vector : TestVector :=
      { id := "v", key := some (List.replicate 16 7), nonce := some (List.replicate 13 1)
        macLength := some 8 }
    (harness.trial vector).report.outcome = .fail (.rejected (.missing .key)) ∧
      Trial.ciphers [harness.trial vector] = 1 := by
  decide +kernel

end Harness

end KnownAnswer.Conformance
