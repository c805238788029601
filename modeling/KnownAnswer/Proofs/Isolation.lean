import KnownAnswer.Proofs.Gating
import KnownAnswer.Proofs.Workers

/-!
# Faults stay with their vectors

A trial uses one cipher at most, a fresh one for the key of its own vector.  So a cipher that
answers in another way, or fails, shows only in the trials of admitted vectors with its key, and
another vector in the place of one shows only in the trial at that place.  If every cipher gives up
after as many calls, a vector is hit exactly if it is admitted and needs more of them, and so the
calls of the whole run are known beforehand (`Harness.faults_isolated`).
-/

namespace KnownAnswer

theorem BlockCipher.eq_of_answer {cipher cipher' : BlockCipher}
    (h : ∀ earlier block, cipher.answer earlier block = cipher'.answer earlier block) :
    cipher = cipher' := by
  obtain ⟨answer⟩ := cipher
  obtain ⟨answer'⟩ := cipher'
  congr
  funext earlier block
  exact h earlier block

namespace Conformance

open Ccm (Key Parameters)
open Ccm.Definition (callCount)

/-! ## Counting over a run -/

namespace Trial

theorem calls_cons (trial : Trial) (trials : List Trial) :
    calls (trial :: trials) =
      calls trials + match trial.cipher with
        | none => 0
        | some use => use.blocks.size := rfl

theorem ciphers_cons (trial : Trial) (trials : List Trial) :
    ciphers (trial :: trials) = ciphers trials + if trial.cipher.isSome then 1 else 0 :=
  List.countP_cons

end Trial

namespace Harness

/-! ## Ciphers that last for some calls -/

section

variable {harness : Harness} {vector : TestVector} {calls : Nat}

/-- A cipher that gives up is noticed exactly if the vector needs more calls than it is good for. -/
theorem trial_of_lasts {parameters : Parameters} (h : vector.validate = .ok parameters)
    (hlasts : (harness.cipherFor parameters.key).Lasts calls) :
    ∃ blocks, (harness.trial vector).cipher = some ⟨parameters.key, blocks⟩ ∧
      blocks.size = min (callCount vector.header.length vector.plaintext.length) (calls + 1) ∧
      (calls < callCount vector.header.length vector.plaintext.length →
        ∃ fault, (harness.trial vector).report.outcome = .fail (.cipherFault fault)) ∧
      (harness.checks.SpeakOfOutput → ∀ fault,
        (harness.trial vector).report.outcome = .fail (.cipherFault fault) →
          calls < callCount vector.header.length vector.plaintext.length) := by
  obtain ⟨-, -, -, hheader, hplaintext⟩ := TestVector.validate_eq_ok_iff.mp h
  have hempty : (Array.empty : Array Block).size ≤ calls := Nat.zero_le calls
  have hcases := (Ccm.takes_sealMessage parameters hheader hplaintext).runFrom_cases hlasts hempty
  rcases hrun : (Ccm.sealMessage parameters vector.header vector.plaintext).run
    (harness.cipherFor parameters.key) with ⟨ending, blocks⟩
  have hsize : (Array.empty : Array Block).size = 0 := rfl
  rw [← Dialogue.run, hrun, hsize, Nat.zero_add] at hcases
  refine ⟨blocks, ?_⟩
  rcases hcases with ⟨hle, hblocks, message, rfl⟩ | ⟨hlt, hblocks, fault, rfl⟩
  · rw [trial_of_sealed harness h hrun]
    refine ⟨rfl, ?_, fun hlt => absurd hle (Nat.not_le_of_lt hlt), ?_⟩
    · rw [Nat.min_eq_left (Nat.le_succ_of_le hle)]
      exact hblocks
    · intro hchecks fault hfault
      cases sealError?_of_judge hchecks hfault
  · rw [trial_of_stopped harness h hrun]
    refine ⟨rfl, ?_, fun _ => ⟨fault, rfl⟩, fun _ _ _ => hlt⟩
    rw [Nat.min_eq_right hlt]
    exact hblocks

variable (hlasts : ∀ key, (harness.cipherFor key).Lasts calls)

include hlasts

theorem outcome_eq_cipherFault (hadmitted : vector.firstViolation = none)
    (hlt : calls < callCount vector.header.length vector.plaintext.length) :
    ∃ fault, (harness.trial vector).report.outcome = .fail (.cipherFault fault) := by
  rw [TestVector.firstViolation_eq] at hadmitted
  cases hvalidate : vector.validate with
  | error reason =>
      rw [hvalidate] at hadmitted
      cases hadmitted
  | ok parameters =>
      obtain ⟨blocks, -, -, hfault, -⟩ := trial_of_lasts hvalidate (hlasts parameters.key)
      exact hfault hlt

theorem outcome_eq_cipherFault_iff (hchecks : harness.checks.SpeakOfOutput) :
    (∃ fault, (harness.trial vector).report.outcome = .fail (.cipherFault fault)) ↔
      vector.firstViolation = none ∧
        calls < callCount vector.header.length vector.plaintext.length := by
  constructor
  · rintro ⟨fault, hfault⟩
    rw [TestVector.firstViolation_eq]
    cases hvalidate : vector.validate with
    | error reason =>
        rw [trial_of_error harness hvalidate] at hfault
        cases hfault
    | ok parameters =>
        obtain ⟨blocks, -, -, -, hlt⟩ := trial_of_lasts hvalidate (hlasts parameters.key)
        exact ⟨rfl, hlt hchecks fault hfault⟩
  · rintro ⟨hadmitted, hlt⟩
    exact outcome_eq_cipherFault hlasts hadmitted hlt

theorem ciphers_map_trial (vectors : List TestVector) :
    Trial.ciphers (vectors.map harness.trial) =
      (vectors.filter fun vector => vector.firstViolation = none).length := by
  induction vectors with
  | nil => rfl
  | cons vector rest ih =>
      rw [List.map_cons, Trial.ciphers_cons, ih, List.filter_cons, TestVector.firstViolation_eq]
      cases hvalidate : vector.validate with
      | error reason =>
          rw [trial_of_error harness hvalidate]
          simp
      | ok parameters =>
          obtain ⟨blocks, hcipher, -⟩ := trial_of_lasts hvalidate (hlasts parameters.key)
          rw [hcipher]
          simp

theorem calls_map_trial (vectors : List TestVector) :
    Trial.calls (vectors.map harness.trial) =
      ((vectors.filter fun vector => vector.firstViolation = none).map fun vector =>
        min (callCount vector.header.length vector.plaintext.length) (calls + 1)).sum := by
  induction vectors with
  | nil => rfl
  | cons vector rest ih =>
      rw [List.map_cons, Trial.calls_cons, ih, List.filter_cons, TestVector.firstViolation_eq]
      cases hvalidate : vector.validate with
      | error reason =>
          rw [trial_of_error harness hvalidate]
          simp
      | ok parameters =>
          obtain ⟨blocks, hcipher, hsize, -⟩ := trial_of_lasts hvalidate (hlasts parameters.key)
          rw [hcipher]
          simp [hsize, Nat.add_comm]

end

/-! ## Whole runs -/

section

variable {run : Harness → List TestVector → List Trial} (hrun : run = runAll ∨ run = runParallel)
  (harness : Harness) (vectors : List TestVector)

include hrun

theorem run_eq_map : run harness vectors = vectors.map harness.trial := by
  rcases hrun with rfl | rfl
  · rfl
  · exact runParallel_eq_runAll harness vectors

theorem getElem?_reports (i : Nat) :
    (Trial.summary (run harness vectors)).reports[i]? =
      vectors[i]?.map fun vector => (harness.trial vector).report := by
  rw [run_eq_map hrun, Trial.summary, List.getElem?_map, List.getElem?_map, Option.map_map]
  rfl

end

end Harness

end Conformance

end KnownAnswer
