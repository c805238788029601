import KnownAnswer.Proofs.Gating
import KnownAnswer.Proofs.Workers

/-!
# What a verdict says

A vector conforms if its expected bytes are those that sealing its own inputs yields.  With a cipher
that never fails and the standard checks, the vectors that pass are the ones that conform
(`Harness.outcome_eq_pass_iff`).  A summary names exactly those that do not
(`Harness.failingIds_summary`), and its counts and its last line go by these names
(`Summary.line_eq_verdict`).
-/

namespace KnownAnswer

/-- The expected bytes are the ciphertext and the tag of the vector's own inputs, which are
admissible. -/
def TestVector.Conforms (encrypt : Ccm.Key → Block → Block) (vector : TestVector) : Prop :=
  ∃ parameters, vector.Supplies parameters ∧ ∃ message,
    ((Ccm.sealMessage parameters vector.header vector.plaintext).run
      (.total (encrypt parameters.key))).1 = .ok message ∧
    vector.expected = message.ciphertext ++ message.tag

namespace Conformance

/-! ## Checks of equal outputs -/

/-- No difference is found if one string begins with the other, be it as long or longer. -/
theorem firstDifference_eq_none_iff (offset : Nat) (expected actual : Bytes) :
    firstDifference offset expected actual = none ↔
      expected <+: actual ∨ actual <+: expected := by
  induction expected generalizing offset actual with
  | nil => simp [firstDifference]
  | cons e expected ih =>
      cases actual with
      | nil => simp [firstDifference]
      | cons a actual =>
          rw [firstDifference, List.cons_prefix_cons, List.cons_prefix_cons]
          by_cases hbyte : e = a
          · rw [if_pos hbyte, ih, hbyte]
            simp
          · rw [if_neg hbyte]
            simp [hbyte, Ne.symm hbyte]

theorem Check.failure?_length_eq_none_iff {expected actual : Bytes} :
    Check.length.failure? expected actual = none ↔ expected.length = actual.length := by
  rw [failure?_length]
  by_cases hlen : expected.length = actual.length
  · simp [hlen]
  · simp [hlen]

theorem Check.failure?_content_eq_none_iff {expected actual : Bytes} :
    Check.content.failure? expected actual = none ↔
      expected <+: actual ∨ actual <+: expected := by
  rw [failure?_content, Option.map_eq_none_iff, firstDifference_eq_none_iff]

theorem eq_iff_length_and_prefix {expected actual : Bytes} :
    expected = actual ↔
      expected.length = actual.length ∧ (expected <+: actual ∨ actual <+: expected) := by
  constructor
  · rintro rfl
    exact ⟨rfl, .inl List.prefix_rfl⟩
  · rintro ⟨hlen, hbegins | hbegins⟩
    · exact hbegins.eq_of_length hlen
    · exact (hbegins.eq_of_length hlen.symm).symm

theorem Checks.failure?_standard_eq_none_iff (expected actual : Bytes) :
    Checks.standard.failure? expected actual = none ↔ expected = actual := by
  rw [Checks.failure?, List.findSome?_eq_none_iff, standard, List.forall_mem_cons,
    List.forall_mem_singleton, Check.failure?_length_eq_none_iff,
    Check.failure?_content_eq_none_iff, eq_iff_length_and_prefix]

theorem Outcome.isPass_iff {outcome : Outcome} : outcome.isPass = true ↔ outcome = .pass := by
  cases outcome with
  | pass => exact ⟨fun _ => rfl, fun _ => rfl⟩
  | fail failure => exact ⟨nofun, nofun⟩

namespace Harness

variable {harness : Harness}

theorem judge_eq_pass_iff (hstandard : harness.checks = Checks.standard)
    (expected actual : Bytes) : harness.judge expected actual = .pass ↔ expected = actual := by
  rw [← Checks.failure?_standard_eq_none_iff, judge, hstandard]
  cases Checks.standard.failure? expected actual with
  | none => simp
  | some failure => simp

/-! ## Passing and conforming -/

@[simp] theorem id_trial (harness : Harness) (vector : TestVector) :
    (harness.trial vector).report.id = vector.id := by
  rw [trial]
  split <;> rfl

variable {encrypt : Ccm.Key → Block → Block}

/-- An admitted vector is sealed, and its output is judged and perhaps kept. -/
theorem report_trial_of_total {harness : Harness} {encrypt : Ccm.Key → Block → Block}
    (hcipher : ∀ key, harness.cipherFor key = .total (encrypt key)) {vector : TestVector}
    {parameters : Ccm.Parameters} (h : vector.validate = .ok parameters) :
    ∃ message : Ccm.Sealed,
      ((Ccm.sealMessage parameters vector.header vector.plaintext).run
        (.total (encrypt parameters.key))).1 = .ok message ∧
      message.toBytes.length = vector.plaintext.length + parameters.macLength.size ∧
      (harness.trial vector).report =
        { id := vector.id
          outcome := harness.judge vector.expected message.toBytes
          output := if harness.capture then some message.toBytes else none } := by
  have hsupplies := TestVector.validate_eq_ok_iff.mp h
  have hrun := Ccm.run_sealMessage (encrypt parameters.key) parameters vector.header
    vector.plaintext hsupplies.header_le hsupplies.plaintext_le
  refine ⟨_, congrArg Prod.fst hrun, ?_, ?_⟩
  · rw [Ccm.Sealed.toBytes, List.length_append, Ccm.Definition.length_ciphertext,
      Ccm.Definition.length_tag]
  · rw [← hcipher] at hrun
    rw [trial_of_sealed harness h hrun]

/-- **Passing is conforming.** -/
theorem outcome_eq_pass_iff (hcipher : ∀ key, harness.cipherFor key = .total (encrypt key))
    (hstandard : harness.checks = Checks.standard) (vector : TestVector) :
    (harness.trial vector).report.outcome = .pass ↔ vector.Conforms encrypt := by
  rcases hvalidate : vector.validate with reason | parameters
  · rw [trial_of_error _ hvalidate]
    refine ⟨nofun, ?_⟩
    rintro ⟨parameters, hsupplies, -⟩
    rw [TestVector.validate_eq_ok_iff.mpr hsupplies] at hvalidate
    cases hvalidate
  · obtain ⟨message, hsealed, -, hreport⟩ := report_trial_of_total hcipher hvalidate
    rw [hreport]
    refine (judge_eq_pass_iff hstandard _ _).trans ⟨fun hexpected => ?_, ?_⟩
    · exact ⟨parameters, TestVector.validate_eq_ok_iff.mp hvalidate, message, hsealed, hexpected⟩
    · rintro ⟨other, hother, message', hmessage, hexpected⟩
      -- a vector supplies one set of parameters, and sealing them has one result
      rw [← TestVector.validate_eq_ok_iff, hvalidate] at hother
      cases hother
      rw [hsealed] at hmessage
      cases hmessage
      exact hexpected

/-- Whether a vector conforms is found out by running it. -/
instance (encrypt : Ccm.Key → Block → Block) :
    DecidablePred (TestVector.Conforms encrypt) := fun vector =>
  let harness : Harness := { cipherFor := fun key => .total (encrypt key) }
  decidable_of_iff ((harness.trial vector).report.outcome = .pass)
    (outcome_eq_pass_iff (fun _ => rfl) rfl vector)

/-! ## Counting and naming -/

end Harness

namespace Summary

theorem failed_add_passed (summary : Summary) : summary.failed + summary.passed = summary.total :=
  Nat.sub_add_cancel summary.passed_le_total

theorem failed_eq (summary : Summary) :
    summary.failed = (summary.reports.filter fun r => !r.outcome.isPass).length := by
  have hsplit := List.length_eq_countP_add_countP (fun r : Report => r.outcome.isPass)
    (l := summary.reports)
  rw [failed, total, passed, hsplit, Nat.add_sub_cancel_left, List.countP_eq_length_filter]
  simp

theorem length_failingIds (summary : Summary) : summary.failingIds.length = summary.failed := by
  rw [failingIds, List.length_map, failed_eq]

/-- The verdict on a number of vectors of which those with the given ids fail. -/
def verdict (total : Nat) (failing : List String) : String :=
  if failing = [] then
    "PASS (" ++ toString total ++ "/" ++ toString total ++ " vectors)"
  else
    "FAIL (" ++ toString failing.length ++ " of " ++ toString total ++ " vectors failed: "
      ++ ", ".intercalate failing ++ ")"

theorem isSuccess_iff (summary : Summary) :
    summary.isSuccess = true ↔ summary.failingIds = [] := by
  rw [isSuccess, beq_iff_eq, ← length_failingIds, List.length_eq_zero_iff]

/-- The last line of a report goes by the failing ids alone, the counts included. -/
theorem line_eq_verdict (summary : Summary) :
    summary.line = verdict summary.total summary.failingIds := by
  rw [line, verdict, length_failingIds]
  by_cases hsuccess : summary.isSuccess = true
  · have hpassed := summary.failed_add_passed
    have hfailed : summary.failed = 0 := by rwa [isSuccess, beq_iff_eq] at hsuccess
    rw [hfailed, Nat.zero_add] at hpassed
    rw [if_pos hsuccess, if_pos ((isSuccess_iff summary).mp hsuccess), hpassed]
  · rw [if_neg hsuccess, if_neg (mt (isSuccess_iff summary).mpr hsuccess)]

end Summary

namespace Harness

variable {harness : Harness} {encrypt : Ccm.Key → Block → Block}

theorem failing_reports (hcipher : ∀ key, harness.cipherFor key = .total (encrypt key))
    (hstandard : harness.checks = Checks.standard) (vectors : List TestVector) :
    (Trial.summary (harness.runParallel vectors)).reports.filter (fun r => !r.outcome.isPass) =
      (vectors.filter fun vector => ¬ vector.Conforms encrypt).map fun vector =>
        (harness.trial vector).report := by
  rw [runParallel_eq_runAll, Trial.summary, runAll, List.map_map, List.filter_map]
  -- the same vectors are kept, on the one side by their reports
  refine congrArg _ (List.filter_congr fun vector _ => ?_)
  have hpass := outcome_eq_pass_iff hcipher hstandard vector
  rw [← Outcome.isPass_iff] at hpass
  rw [Bool.eq_iff_iff, decide_eq_true_iff, ← hpass]
  simp

theorem failingIds_summary (hcipher : ∀ key, harness.cipherFor key = .total (encrypt key))
    (hstandard : harness.checks = Checks.standard) (vectors : List TestVector) :
    (Trial.summary (harness.runParallel vectors)).failingIds =
      (vectors.filter fun vector => ¬ vector.Conforms encrypt).map TestVector.id := by
  rw [Summary.failingIds, failing_reports hcipher hstandard, List.map_map]
  exact List.map_congr_left fun vector _ => id_trial harness vector

theorem isSuccess_summary_iff (hcipher : ∀ key, harness.cipherFor key = .total (encrypt key))
    (hstandard : harness.checks = Checks.standard) (vectors : List TestVector) :
    (Trial.summary (harness.runParallel vectors)).isSuccess = true ↔
      ∀ vector ∈ vectors, vector.Conforms encrypt := by
  rw [Summary.isSuccess_iff, failingIds_summary hcipher hstandard, List.map_eq_nil_iff,
    List.filter_eq_nil_iff]
  simp

theorem summary_runParallel (harness : Harness) (vectors : List TestVector) :
    Trial.summary (harness.runParallel vectors) =
      ⟨vectors.map fun vector => (harness.trial vector).report⟩ := by
  rw [runParallel_eq_runAll, Trial.summary, runAll, List.map_map]
  rfl

/-- Wherever a vector stands in a run, its report is that of running it alone. -/
theorem getElem?_reports_runParallel (harness : Harness) {vectors : List TestVector} {i : Nat}
    {vector : TestVector} (h : vectors[i]? = some vector) :
    (Trial.summary (harness.runParallel vectors)).reports[i]? =
      some (harness.trial vector).report := by
  rw [summary_runParallel, List.getElem?_map, h, Option.map_some]

end Harness

end Conformance

end KnownAnswer
