import KnownAnswer.CommandLine.Report
import KnownAnswer.Fixture.Load
import KnownAnswer.Proofs.Hexadecimal
import KnownAnswer.Proofs.Verdict

/-!
# Outputs that are pasted as expectations

The bytes a vector is sealed to do not depend on what it expects.  So an output that a run has
kept, put into the vector as the expected bytes, lets it pass in every later run with ciphers that
answer alike; and since the line that shows the output is read back as these bytes, however it is
broken up by blanks, it may be pasted into a fixture as it stands (`pasted_output_passes`).  A vector
without an output is rejected, and stays so whatever it expects.
-/

namespace KnownAnswer

theorem Fixture.ByteSource.decode_of_spaced {bytes : Bytes} {text : String}
    (h : Hex.Spaced (Hex.encode bytes).toList text.toList) (vector : String) (field : ByteField) :
    (ByteSource.digits text).decode vector field = .ok bytes := by
  rw [ByteSource.decode, Hex.decode_of_spaced h, Hex.decode_encode]
  rfl

namespace Conformance

open CommandLine (reportLines)

namespace Harness

section

variable {encrypt : Ccm.Key → Block → Block} {harness : Harness} {vector : TestVector}
  (hcipher : ∀ key, harness.cipherFor key = .total (encrypt key))

include hcipher

/-- An output tells of a sealing, and that of the vector with other expectations is the same. -/
theorem sealed_of_output {output : Bytes} (h : (harness.trial vector).report.output = some output) :
    (∃ size, vector.macLength = some size ∧ output.length = vector.plaintext.length + size) ∧
      ∀ (later : Harness) (expected : Bytes),
        (∀ key, later.cipherFor key = .total (encrypt key)) →
        (later.trial { vector with expected }).report.outcome = later.judge expected output := by
  cases hvalidate : vector.validate with
  | error reason =>
      rw [trial_of_error harness hvalidate] at h
      cases h
  | ok parameters =>
      obtain ⟨message, hsealed, hlength, hreport⟩ := report_trial_of_total hcipher hvalidate
      have houtput : message.toBytes = output := by
        rw [hreport] at h
        by_cases hcapture : harness.capture = true
        · simpa [hcapture] using h
        · simp [hcapture] at h
      have hsize := (TestVector.validate_eq_ok_iff.mp hvalidate).macLength
      refine ⟨⟨_, hsize, houtput ▸ hlength⟩, fun later expected hlater => ?_⟩
      have hpasted : ({ vector with expected } : TestVector).validate = .ok parameters := hvalidate
      obtain ⟨message', hsealed', -, hreport'⟩ := report_trial_of_total hlater hpasted
      -- both runs seal the same inputs with ciphers that answer alike
      rw [hsealed] at hsealed'
      cases hsealed'
      rw [hreport', houtput]

/-- Where outputs are kept, a vector lacks one only if it is rejected, for which its expected bytes
do not matter. -/
theorem rejected_of_no_output (hcapture : harness.capture = true)
    (h : (harness.trial vector).report.output = none) :
    ∃ reason, (harness.trial vector).report.outcome = .fail (.rejected reason) ∧
      ∀ (later : Harness) (expected : Bytes),
        (later.trial { vector with expected }).report.outcome = .fail (.rejected reason) := by
  cases hvalidate : vector.validate with
  | error reason =>
      refine ⟨reason, ?_, fun later expected => ?_⟩
      · rw [trial_of_error harness hvalidate]
      · have hpasted : ({ vector with expected } : TestVector).validate = .error reason := hvalidate
        rw [trial_of_error later hpasted]
  | ok parameters =>
      obtain ⟨message, -, -, hreport⟩ := report_trial_of_total hcipher hvalidate
      rw [hreport, hcapture] at h
      cases h

end

/-- **Dump, paste, pass.** Let a run keep its outputs, under ciphers that never fail.  Of a report
with an output, the second line shows its length, which is that of the plaintext and the tag
together, and its digits, and these are read back as the output, with blanks anywhere between them.
The vector that expects this output passes under the standard checks in every later run with the
same ciphers, alone or wherever it stands in a list.  A vector whose report has no output fails for
the same reason whatever it expects. -/
theorem pasted_output_passes (encrypt : Ccm.Key → Block → Block) {harness : Harness}
    (hcipher : ∀ key, harness.cipherFor key = .total (encrypt key))
    (hcapture : harness.capture = true) {vectors : List TestVector} {i : Nat} {vector : TestVector}
    (hvector : vectors[i]? = some vector) :
    ∃ report, (Trial.summary (harness.runParallel vectors)).reports[i]? = some report ∧
      (∀ output, report.output = some output →
        let pasted := { vector with expected := output }
        (∃ size, vector.macLength = some size ∧ output.length = vector.plaintext.length + size) ∧
        reportLines report = [vector.id ++ ": " ++ report.outcome.text,
          "  " ++ toString output.length ++ " bytes: " ++ Hex.encode output] ∧
        Hex.decode (Hex.encode output) = .ok output ∧
        (∀ text : String, Hex.Spaced (Hex.encode output).toList text.toList →
          ∀ id field, (Fixture.ByteSource.digits text).decode id field = .ok output) ∧
        ∀ later : Harness, (∀ key, later.cipherFor key = .total (encrypt key)) →
          later.checks = Checks.standard →
          (later.trial pasted).report.outcome = .pass ∧
          ∀ (others : List TestVector) (j : Nat), others[j]? = some pasted →
            (Trial.summary (later.runParallel others)).reports[j]? =
              some (later.trial pasted).report) ∧
      (report.output = none →
        ∃ failure, report.outcome = .fail failure ∧
          ∀ (later : Harness) (expected : Bytes),
            let changed := { vector with expected }
            (later.trial changed).report.outcome = .fail failure ∧
            ∀ (others : List TestVector) (j : Nat), others[j]? = some changed →
              (Trial.summary (later.runParallel others)).reports[j]? =
                some (later.trial changed).report) := by
  refine ⟨_, getElem?_reports_runParallel harness hvector, ?_, ?_⟩
  · intro output houtput pasted
    obtain ⟨hlength, hagain⟩ := sealed_of_output hcipher houtput
    refine ⟨hlength, ?_, Hex.decode_encode output, ?_, ?_⟩
    · rw [reportLines, houtput, Report.line, id_trial]
      rfl
    · exact fun text => Fixture.ByteSource.decode_of_spaced
    · intro later hlater hstandard
      refine ⟨?_, fun others j => getElem?_reports_runParallel later⟩
      rw [hagain later output hlater, judge_eq_pass_iff hstandard]
  · intro hnone
    obtain ⟨reason, hreason, hagain⟩ := rejected_of_no_output hcipher hcapture hnone
    exact ⟨_, hreason, fun later expected =>
      ⟨hagain later expected, fun others j => getElem?_reports_runParallel later⟩⟩

/-- A vector that expects the wrong bytes, and one without a key.  With what the first is sealed to
the first passes, run by other workers behind the second. -/
theorem pasted_output_passes_two_vectors :
    let harness : Harness :=
      { cipherFor := fun _ => .total id, capture := true, jobs := 3 }
    let later : Harness := { cipherFor := fun _ => .total id, jobs := 2 }
    let vector : TestVector :=
      { id := "v", key := some (List.replicate 16 7), nonce := some (List.replicate 13 1),
        macLength := some 4, expected := [1, 2, 3] }
    let keyless : TestVector := { id := "w" }
    ∃ output : Bytes, output.length = 4 ∧
      Hex.decode (Hex.encode output) = .ok output ∧
      (Trial.summary (harness.runParallel [vector, keyless])).reports[0]?.map Report.output =
        some (some output) ∧
      (later.trial { vector with expected := output }).report.outcome = .pass ∧
      (Trial.summary (later.runParallel [keyless, { vector with expected := output }])).reports[1]? =
        some (later.trial { vector with expected := output }).report := by
  intro harness later vector keyless
  have hcipher : ∀ key, harness.cipherFor key = .total ((fun _ => id) key) := fun _ => rfl
  have hlater : ∀ key, later.cipherFor key = .total ((fun _ => id) key) := fun _ => rfl
  have hvector : [vector, keyless][0]? = some vector := rfl
  obtain ⟨report, hreport, hpaste, -⟩ := pasted_output_passes (fun _ => id) hcipher rfl hvector
  have hvalidate : vector.validate = .ok
      ⟨⟨Vector.replicate 16 7⟩, ⟨Vector.replicate 13 1⟩, ⟨4, by decide, by decide, by decide⟩⟩ := by
    decide
  obtain ⟨message, -, -, htrial⟩ := report_trial_of_total hcipher hvalidate
  have hsame := hreport.symm.trans (getElem?_reports_runParallel harness hvector)
  have houtput : report.output = some message.toBytes := by
    rw [Option.some.inj hsame, htrial]
    rfl
  obtain ⟨⟨size, hsize, hlength⟩, -, hdecode, -, hpasses⟩ := hpaste _ houtput
  cases hsize
  obtain ⟨hpass, hlist⟩ := hpasses later hlater rfl
  refine ⟨message.toBytes, hlength, hdecode, ?_, hpass, hlist _ 1 rfl⟩
  rw [hreport, Option.map_some, houtput]

end Harness

end Conformance

end KnownAnswer
