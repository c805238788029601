import KnownAnswer.Proofs.Verdict

/-!
# How an output is judged

The standard checks tell three cases apart: the expected bytes are those computed, or they are of
another length, or they are of that length and there is a first offset at which they differ
(`DiffersFirstAt`).  For an admitted vector the length is known before anything is computed, and the
report says which case it is, with its data, whether or not the output is kept
(`Harness.trial_judgement`).
-/

namespace KnownAnswer

namespace Conformance

/-! ## The first difference -/

/-- The least offset at which two strings differ, both being longer than it, and the two bytes. -/
structure DiffersFirstAt (expected actual : Bytes) (offset : Nat) (e a : UInt8) : Prop where
  expected_eq : expected[offset]? = some e
  actual_eq : actual[offset]? = some a
  ne : e ≠ a
  before : ∀ k < offset, expected[k]? = actual[k]?

section

variable {expected actual : Bytes} {offset : Nat} {e a : UInt8}

theorem differsFirstAt_cons {x y : UInt8} :
    DiffersFirstAt (x :: expected) (y :: actual) offset e a ↔
      (x ≠ y ∧ offset = 0 ∧ e = x ∧ a = y) ∨
        (x = y ∧ ∃ k, offset = k + 1 ∧ DiffersFirstAt expected actual k e a) := by
  constructor
  · rintro ⟨hexpected, hactual, hne, hbefore⟩
    cases offset with
    | zero =>
        cases hexpected
        cases hactual
        exact .inl ⟨hne, rfl, rfl, rfl⟩
    | succ k =>
        refine .inr ⟨Option.some.inj (hbefore 0 (Nat.succ_pos k)), k, rfl, hexpected, hactual, hne,
          fun j hj => ?_⟩
        exact hbefore (j + 1) (Nat.succ_lt_succ hj)
  · rintro (⟨hne, rfl, rfl, rfl⟩ | ⟨rfl, k, rfl, hexpected, hactual, hne, hbefore⟩)
    · exact ⟨rfl, rfl, hne, nofun⟩
    · refine ⟨hexpected, hactual, hne, fun j hj => ?_⟩
      cases j with
      | zero => rfl
      | succ j => exact hbefore j (Nat.lt_of_succ_lt_succ hj)

/-- The offset found is counted from where the search starts. -/
theorem firstDifference_eq_some_iff {start found : Nat} :
    firstDifference start expected actual = some (found, e, a) ↔
      ∃ k, found = start + k ∧ DiffersFirstAt expected actual k e a := by
  induction expected generalizing start actual with
  | nil =>
      refine ⟨nofun, ?_⟩
      rintro ⟨k, -, h⟩
      cases h.expected_eq
  | cons x expected ih =>
      cases actual with
      | nil =>
          refine ⟨nofun, ?_⟩
          rintro ⟨k, -, h⟩
          cases h.actual_eq
      | cons y actual =>
          rw [firstDifference]
          by_cases hbyte : x = y
          · -- the search goes on from one further, and so does the count of the offset
            rw [if_pos hbyte, ih]
            constructor
            · rintro ⟨k, rfl, h⟩
              refine ⟨k + 1, by omega, differsFirstAt_cons.mpr (.inr ⟨hbyte, k, rfl, h⟩)⟩
            · rintro ⟨k, rfl, h⟩
              rcases differsFirstAt_cons.mp h with ⟨hne, -⟩ | ⟨-, j, rfl, hrest⟩
              · exact absurd hbyte hne
              · exact ⟨j, by omega, hrest⟩
          · rw [if_neg hbyte]
            constructor
            · intro hfound
              cases hfound
              exact ⟨0, rfl, differsFirstAt_cons.mpr (.inl ⟨hbyte, rfl, rfl, rfl⟩)⟩
            · rintro ⟨k, rfl, h⟩
              rcases differsFirstAt_cons.mp h with ⟨-, rfl, rfl, rfl⟩ | ⟨heq, -⟩
              · rfl
              · exact absurd heq hbyte

end

/-- Two strings of one length differ somewhere, and so somewhere first. -/
theorem exists_differsFirstAt {expected actual : Bytes} (hlen : expected.length = actual.length)
    (hne : expected ≠ actual) : ∃ offset e a, DiffersFirstAt expected actual offset e a := by
  cases hfound : firstDifference 0 expected actual with
  | none =>
      rcases (firstDifference_eq_none_iff 0 expected actual).mp hfound with hbegins | hbegins
      · exact absurd (hbegins.eq_of_length hlen) hne
      · exact absurd (hbegins.eq_of_length hlen.symm).symm hne
  | some found =>
      obtain ⟨offset, e, a⟩ := found
      obtain ⟨k, -, h⟩ := firstDifference_eq_some_iff.mp hfound
      exact ⟨k, e, a, h⟩

theorem DiffersFirstAt.ne_strings {expected actual : Bytes} {offset : Nat} {e a : UInt8}
    (h : DiffersFirstAt expected actual offset e a) : expected ≠ actual := by
  rintro rfl
  exact h.ne (Option.some.inj (h.expected_eq.symm.trans h.actual_eq))

/-! ## What the standard checks say -/

theorem Check.failure?_content_eq_some_iff {expected actual : Bytes} {failure : Failure} :
    Check.content.failure? expected actual = some failure ↔
      ∃ offset e a, failure = .contentMismatch offset e a ∧
        DiffersFirstAt expected actual offset e a := by
  rw [failure?_content, Option.map_eq_some_iff]
  constructor
  · rintro ⟨⟨found, e, a⟩, hfound, rfl⟩
    obtain ⟨k, rfl, h⟩ := firstDifference_eq_some_iff.mp hfound
    exact ⟨k, e, a, by rw [Nat.zero_add], h⟩
  · rintro ⟨offset, e, a, rfl, h⟩
    exact ⟨(offset, e, a), firstDifference_eq_some_iff.mpr ⟨offset, (Nat.zero_add _).symm, h⟩, rfl⟩

/-- Contents are only looked at in strings of one length. -/
theorem Checks.failure?_standard (expected actual : Bytes) :
    Checks.standard.failure? expected actual =
      if expected.length = actual.length then Check.content.failure? expected actual
      else some (.lengthMismatch expected.length actual.length) := by
  rw [Checks.failure?, Checks.standard, List.findSome?_cons,
    Check.failure?_length]
  by_cases hlen : expected.length = actual.length
  · -- the first check has nothing to say, so the second one decides
    rw [if_pos hlen, if_pos hlen, List.findSome?_cons, List.findSome?_nil]
    cases Check.content.failure? expected actual with
    | none => rfl
    | some failure => rfl
  · rw [if_neg hlen, if_neg hlen]

namespace Harness

section

variable {harness : Harness} {expected actual : Bytes}

variable (hstandard : harness.checks = Checks.standard)

include hstandard

theorem judge_eq_lengthMismatch_iff {m n : Nat} :
    harness.judge expected actual = .fail (.lengthMismatch m n) ↔
      expected.length ≠ actual.length ∧ m = expected.length ∧ n = actual.length := by
  rw [judge_eq_fail_iff, hstandard, Checks.failure?_standard]
  by_cases hlen : expected.length = actual.length
  · rw [if_pos hlen, Check.failure?_content_eq_some_iff]
    constructor
    · rintro ⟨_, _, _, hfailure, -⟩
      cases hfailure
    · rintro ⟨hne, -⟩
      exact absurd hlen hne
  · rw [if_neg hlen]
    constructor
    · intro hfailure
      cases hfailure
      exact ⟨hlen, rfl, rfl⟩
    · rintro ⟨-, rfl, rfl⟩
      rfl

theorem judge_eq_contentMismatch_iff {offset : Nat} {e a : UInt8} :
    harness.judge expected actual = .fail (.contentMismatch offset e a) ↔
      expected.length = actual.length ∧ DiffersFirstAt expected actual offset e a := by
  rw [judge_eq_fail_iff, hstandard, Checks.failure?_standard]
  by_cases hlen : expected.length = actual.length
  · rw [if_pos hlen, Check.failure?_content_eq_some_iff]
    constructor
    · rintro ⟨_, _, _, hfailure, h⟩
      cases hfailure
      exact ⟨hlen, h⟩
    · rintro ⟨-, h⟩
      exact ⟨offset, e, a, rfl, h⟩
  · rw [if_neg hlen]
    refine ⟨nofun, ?_⟩
    rintro ⟨heq, -⟩
    exact absurd heq hlen

end

/-! ## Reports on admitted vectors -/

/-- **Every output is judged completely.** Of an admitted vector under the standard checks and a
cipher that never fails, the length of the output is that of the plaintext and the tag together.
The vector passes exactly if its expected bytes are the output; it fails by lengths exactly if these
differ, whatever the bytes are; and it fails by content exactly if the lengths agree and the bytes
do not, at the first offset at which they differ.  The report has the id of the vector, and the
output exactly if outputs are kept. -/
theorem trial_judgement (encrypt : Ccm.Key → Block → Block) (jobs : Nat) (capture : Bool)
    {vector : TestVector} {parameters : Ccm.Parameters} (h : vector.validate = .ok parameters) :
    let harness : Harness := { cipherFor := fun key => .total (encrypt key), jobs, capture }
    let report := (harness.trial vector).report
    let length := vector.plaintext.length + parameters.macLength.size
    vector.macLength = some parameters.macLength.size ∧
    ∃ message : Ccm.Sealed,
      ((Ccm.sealMessage parameters vector.header vector.plaintext).run
        (.total (encrypt parameters.key))).1 = .ok message ∧
      let output := message.ciphertext ++ message.tag
      output.length = length ∧
      (report.outcome = .pass ↔ vector.expected = output) ∧
      (∀ expected actual, report.outcome = .fail (.lengthMismatch expected actual) ↔
        vector.expected.length ≠ length ∧ expected = vector.expected.length ∧ actual = length) ∧
      (∀ offset e a, report.outcome = .fail (.contentMismatch offset e a) ↔
        vector.expected.length = length ∧ DiffersFirstAt vector.expected output offset e a) ∧
      ((∃ offset e a, report.outcome = .fail (.contentMismatch offset e a)) ↔
        vector.expected.length = length ∧ vector.expected ≠ output) ∧
      report.id = vector.id ∧
      report.output = if capture then some output else none := by
  intro harness report length
  have hcipher : ∀ key, harness.cipherFor key = .total (encrypt key) := fun _ => rfl
  have hstandard : harness.checks = Checks.standard := rfl
  obtain ⟨message, hsealed, hlength, hreport⟩ := report_trial_of_total hcipher h
  have houtcome : report.outcome = harness.judge vector.expected message.toBytes :=
    congrArg Report.outcome hreport
  have hcontent : ∀ offset e a, report.outcome = .fail (.contentMismatch offset e a) ↔
      vector.expected.length = length ∧
        DiffersFirstAt vector.expected message.toBytes offset e a := by
    intro offset e a
    rw [houtcome, judge_eq_contentMismatch_iff hstandard, hlength]
  refine ⟨(TestVector.validate_eq_ok_iff.mp h).macLength, message, hsealed, hlength, ?_, ?_,
    hcontent, ?_, ?_, ?_⟩
  · rw [houtcome]
    exact judge_eq_pass_iff hstandard _ _
  · intro expected actual
    rw [houtcome, judge_eq_lengthMismatch_iff hstandard, hlength]
  · constructor
    · rintro ⟨offset, e, a, hfails⟩
      obtain ⟨hlen, hdiffers⟩ := (hcontent offset e a).mp hfails
      exact ⟨hlen, hdiffers.ne_strings⟩
    · rintro ⟨hlen, hne⟩
      obtain ⟨offset, e, a, hdiffers⟩ := exists_differsFirstAt (hlen.trans hlength.symm) hne
      exact ⟨offset, e, a, (hcontent offset e a).mpr ⟨hlen, hdiffers⟩⟩
  · exact congrArg Report.id hreport
  · exact congrArg Report.output hreport

/-- Three bytes where a tag of four is computed: the lengths are told, and the output is kept. -/
theorem trial_judgement_three_bytes :
    let parameters : Ccm.Parameters :=
      ⟨⟨Vector.replicate 16 7⟩, ⟨Vector.replicate 13 1⟩, ⟨4, by decide, by decide, by decide⟩⟩
    let vector : TestVector :=
      { id := "v", key := some parameters.key.toBytes, nonce := some parameters.nonce.toBytes,
        macLength := some 4, expected := [1, 2, 3] }
    let harness : Harness := { cipherFor := fun _ => .total id, capture := true }
    let report := (harness.trial vector).report
    vector.validate = .ok parameters ∧
      report.outcome = .fail (.lengthMismatch 3 4) ∧
      ∃ output : Bytes, output.length = 4 ∧ report.output = some output := by
  intro parameters vector harness report
  have hvalidate : vector.validate = .ok parameters := by decide
  obtain ⟨-, message, -, hlength, -, hlengths, -, -, -, houtput⟩ :=
    trial_judgement (fun _ => id) 1 true hvalidate
  exact ⟨hvalidate, (hlengths 3 4).mpr ⟨by decide, rfl, rfl⟩, _, hlength, houtput⟩

end Harness

end Conformance

end KnownAnswer
