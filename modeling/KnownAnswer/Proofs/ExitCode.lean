import KnownAnswer.Proofs.Loading
import KnownAnswer.Proofs.Verdict

/-!
# The exit code tells the truth

A run with loaded vectors, of which there is at least one and no id twice (`loadVectors_eq_ok`),
writes its whole report to an output that takes everything, and ends with code zero if all
vectors conform and with code one if some do not; a run without them writes nothing and ends with
code two (`execute_truthful`).
-/

namespace KnownAnswer.CommandLine

open Conformance (Harness Summary Trial)

/-! ## Writing -/

theorem lineBytes_eq (line : String) : lineBytes line = Bytes.ofText line ++ [0x0A] := by
  rw [lineBytes, Bytes.ofText_append]
  rfl

/-- Text is written whole and in order where there is room for all of it. -/
theorem writeLines_of_none (written : Bytes) (lines : List String) :
    Writer.writeLines { capacity := none, written } lines =
      ({ capacity := none, written := written ++ lines.flatMap lineBytes }, true) := by
  induction lines generalizing written with
  | nil => rw [Writer.writeLines, List.flatMap_nil, List.append_nil]
  | cons line rest ih =>
      rw [Writer.writeLines, Writer.offer]
      show Writer.writeLines { capacity := none, written := written ++ lineBytes line } rest = _
      rw [ih, List.flatMap_cons, List.append_assoc]

/-! ## Runs -/

section

variable (cipherFor : Ccm.Key → BlockCipher) {read : FileReader} {options : Options}
  {vectors : List TestVector}

theorem runWith_of_ok (h : loadVectors read options = .ok vectors) :
    let summary := Trial.summary ((harness cipherFor options).runParallel vectors)
    runWith cipherFor read options { capacity := none } =
      (.ok summary, { capacity := none, written := (lines summary).flatMap lineBytes }) := by
  intro summary
  simp only [runWith, h, writeLines_of_none, List.nil_append]
  rfl

theorem runWith_of_error {error : RunError} (h : loadVectors read options = .error error) :
    runWith cipherFor read options { capacity := none } = (.error error, { capacity := none }) := by
  rw [runWith, h]

/-- Where all writes succeed, only loading can fail. -/
theorem runWith_eq_error_iff {error : RunError} :
    (runWith cipherFor read options { capacity := none }).1 = .error error ↔
      loadVectors read options = .error error := by
  cases hload : loadVectors read options with
  | error other => rw [runWith_of_error cipherFor hload, Except.error.injEq, Except.error.injEq]
  | ok vectors =>
      rw [runWith_of_ok cipherFor hload]
      exact ⟨nofun, nofun⟩

theorem runWith_eq_ok_iff {summary : Summary} :
    (runWith cipherFor read options { capacity := none }).1 = .ok summary ↔
      ∃ vectors, loadVectors read options = .ok vectors ∧
        summary = Trial.summary ((harness cipherFor options).runParallel vectors) := by
  cases hload : loadVectors read options with
  | error error =>
      rw [runWith_of_error cipherFor hload]
      refine ⟨nofun, ?_⟩
      rintro ⟨_, hother, -⟩
      cases hother
  | ok vectors =>
      rw [runWith_of_ok cipherFor hload]
      constructor
      · intro hresult
        cases hresult
        exact ⟨vectors, rfl, rfl⟩
      · rintro ⟨_, ⟨⟩, rfl⟩
        rfl

theorem execute_of_ok (h : loadVectors read options = .ok vectors) :
    let summary := Trial.summary ((harness cipherFor options).runParallel vectors)
    execute cipherFor read options =
      { output := (lines summary).flatMap lineBytes
        complaint := none
        code := if summary.isSuccess then 0 else 1 } := by
  intro summary
  rw [execute, runWith_of_ok cipherFor h]
  rfl

theorem execute_of_error {error : RunError} (h : loadVectors read options = .error error) :
    execute cipherFor read options =
      { output := [], complaint := some error.message, code := 2 } := by
  rw [execute, runWith_of_error cipherFor h]
  rfl

/-- The report lines come first, and the line of the summary last. -/
theorem output_execute_of_ok (h : loadVectors read options = .ok vectors) :
    let summary := Trial.summary ((harness cipherFor options).runParallel vectors)
    (execute cipherFor read options).output =
      (summary.reports.flatMap reportLines).flatMap lineBytes ++ Bytes.ofText summary.line
        ++ [0x0A] := by
  intro summary
  rw [execute_of_ok cipherFor h]
  show (lines summary).flatMap lineBytes = _
  rw [lines, List.flatMap_append, List.flatMap_singleton, lineBytes_eq, List.append_assoc]

end

/-! ## Exit codes -/

section

variable (encrypt : Ccm.Key → Block → Block) (read : FileReader) (options : Options)

theorem code_execute :
    (execute (fun key => .total (encrypt key)) read options).code =
      match loadVectors read options with
      | .error _ => 2
      | .ok vectors => if ∀ vector ∈ vectors, vector.Conforms encrypt then 0 else 1 := by
  rcases hload : loadVectors read options with error | vectors
  · rw [execute_of_error _ hload]
  · have hcipher : ∀ key, (harness (fun key => .total (encrypt key)) options).cipherFor key =
        .total (encrypt key) := fun _ => rfl
    have hsuccess := Harness.isSuccess_summary_iff hcipher rfl vectors
    rw [execute_of_ok _ hload]
    simp only [hsuccess]

theorem code_execute_eq_zero_iff :
    (execute (fun key => .total (encrypt key)) read options).code = 0 ↔
      ∃ vectors, loadVectors read options = .ok vectors ∧
        ∀ vector ∈ vectors, vector.Conforms encrypt := by
  rw [code_execute]
  cases loadVectors read options with
  | error error => exact ⟨nofun, nofun⟩
  | ok vectors =>
      constructor
      · intro hzero
        refine ⟨vectors, rfl, ?_⟩
        by_contra hsome
        exact absurd ((if_neg hsome).symm.trans hzero) (by decide)
      · rintro ⟨_, ⟨⟩, hall⟩
        exact if_pos hall

theorem code_execute_eq_one_iff :
    (execute (fun key => .total (encrypt key)) read options).code = 1 ↔
      ∃ vectors, loadVectors read options = .ok vectors ∧
        ∃ vector ∈ vectors, ¬ vector.Conforms encrypt := by
  rw [code_execute]
  cases loadVectors read options with
  | error error => exact ⟨nofun, nofun⟩
  | ok vectors =>
      constructor
      · intro hone
        refine ⟨vectors, rfl, ?_⟩
        by_contra hnone
        push Not at hnone
        exact absurd ((if_pos hnone).symm.trans hone) (by decide)
      · rintro ⟨_, ⟨⟩, vector, hvector, hfails⟩
        exact if_neg fun hall => hfails (hall vector hvector)

theorem code_execute_eq_two_iff :
    (execute (fun key => .total (encrypt key)) read options).code = 2 ↔
      ∃ error, loadVectors read options = .error error := by
  rw [code_execute]
  cases loadVectors read options with
  | error error => exact ⟨fun _ => ⟨error, rfl⟩, fun _ => rfl⟩
  | ok vectors =>
      refine ⟨fun htwo => ?_, nofun⟩
      dsimp only at htwo
      split at htwo <;> cases htwo

end

/-- **The exit code tells the truth.** It is zero if vectors are loaded that all conform, one if
vectors are loaded of which some do not, and two, without any output, if none are loaded.  The last
line of the output counts the loaded vectors, at least one, and names those that do not conform, in
their order and each once.  The program is such a run under its own cipher. -/
theorem execute_truthful (encrypt : Ccm.Key → Block → Block) (read : FileReader)
    (options : Options) :
    let cipherFor := fun key => BlockCipher.total (encrypt key)
    let exit := execute cipherFor read options
    (exit.code = 0 ↔ ∃ vectors, loadVectors read options = .ok vectors ∧
      ∀ vector ∈ vectors, vector.Conforms encrypt) ∧
    (exit.code = 1 ↔ ∃ vectors, loadVectors read options = .ok vectors ∧
      ∃ vector ∈ vectors, ¬ vector.Conforms encrypt) ∧
    (exit.code = 2 ↔ ∃ error, loadVectors read options = .error error) ∧
    (exit.code = 2 → exit.output = []) ∧
    (∀ vectors, loadVectors read options = .ok vectors →
      let failing := vectors.filter fun vector => ¬ vector.Conforms encrypt
      let summary : Summary :=
        ⟨vectors.map fun vector => ((harness cipherFor options).trial vector).report⟩
      1 ≤ vectors.length ∧ (failing.map TestVector.id).Nodup ∧
      (runWith cipherFor read options { capacity := none }).1 = .ok summary ∧
      summary.passed ≤ summary.total ∧ summary.failed = failing.length ∧
      exit.output = (summary.reports.flatMap reportLines).flatMap lineBytes ++
        Bytes.ofText (Summary.verdict vectors.length (failing.map TestVector.id)) ++ [0x0A]) ∧
    (∀ arguments, Options.ofArguments arguments = .ok options →
      program read arguments =
        execute (fun key => .total (Aes128.encryptBlock key)) read options) := by
  intro cipherFor exit
  refine ⟨code_execute_eq_zero_iff encrypt read options, code_execute_eq_one_iff encrypt read options,
    code_execute_eq_two_iff encrypt read options, ?_, ?_, ?_⟩
  · intro htwo
    obtain ⟨error, hload⟩ := (code_execute_eq_two_iff encrypt read options).mp htwo
    show (execute cipherFor read options).output = []
    rw [execute_of_error cipherFor hload]
  · intro vectors hload failing summary
    obtain ⟨hne, hnodup⟩ := loadVectors_eq_ok hload
    have hsummary : Trial.summary ((harness cipherFor options).runParallel vectors) = summary :=
      Harness.summary_runParallel _ vectors
    have hfailing : summary.failingIds = failing.map TestVector.id := by
      rw [← hsummary]
      exact Harness.failingIds_summary (fun _ => rfl) rfl vectors
    have htotal : summary.total = vectors.length := List.length_map _
    have hrun := runWith_of_ok cipherFor hload
    have houtput := output_execute_of_ok cipherFor hload
    rw [hsummary] at hrun houtput
    refine ⟨List.length_pos_iff.mpr hne, ?_, congrArg Prod.fst hrun, summary.passed_le_total, ?_, ?_⟩
    · exact hnodup.sublist (List.filter_sublist.map TestVector.id)
    · rw [← Summary.length_failingIds, hfailing, List.length_map]
    · rw [houtput, Summary.line_eq_verdict, htotal, hfailing]
  · intro arguments harguments
    rw [program, harguments]
    rfl

/-- A fixture with a vector that has no key, and a path at which there is no fixture. -/
theorem execute_truthful_no_key :
    let read : FileReader := fun path =>
      if path = "a" then .ok "version=1\n[[vector]]\nid='v'\nexpected=''\n" else .error .notFound
    let cipherFor := fun key => BlockCipher.total (Aes128.encryptBlock key)
    let vector : TestVector := { id := "v" }
    Options.ofArguments ["a"] = .ok { paths := ["a"] } ∧
      loadVectors read { paths := ["a"] } = .ok [vector] ∧
      ¬ vector.Conforms Aes128.encryptBlock ∧
      (program read ["a"]).code = 1 ∧
      (∃ front, (program read ["a"]).output =
        front ++ Bytes.ofText "FAIL (1 of 1 vectors failed: v)" ++ [0x0A]) ∧
      (execute cipherFor read { paths := ["b"] }).code = 2 ∧
      (execute cipherFor read { paths := ["b"] }).output = [] := by
  intro read cipherFor vector
  have harguments : Options.ofArguments ["a"] = .ok { paths := ["a"] } := by decide +kernel
  have hload : loadVectors read { paths := ["a"] } = .ok [vector] := by decide +kernel
  have hfails : ¬ vector.Conforms Aes128.encryptBlock := by
    rintro ⟨parameters, hsupplies, -⟩
    cases hsupplies.key
  have habsent : loadVectors read { paths := ["b"] } =
      .error (.fixture (.unreadable "b" .notFound)) := by decide +kernel
  have hfailing : [vector].filter (fun vector => ¬ vector.Conforms Aes128.encryptBlock) =
      [vector] := List.filter_eq_self.mpr (by simpa using hfails)
  obtain ⟨-, hone, -, -, houtput, hprogram⟩ :=
    execute_truthful Aes128.encryptBlock read { paths := ["a"] }
  obtain ⟨-, -, htwo, hempty, -, -⟩ :=
    execute_truthful Aes128.encryptBlock read { paths := ["b"] }
  obtain ⟨-, -, -, -, -, hlast⟩ := houtput [vector] hload
  have hverdict : Summary.verdict [vector].length ([vector].map TestVector.id) =
      "FAIL (1 of 1 vectors failed: v)" := by decide +kernel
  rw [hfailing, hverdict] at hlast
  have hcode := htwo.mpr ⟨_, habsent⟩
  rw [hprogram ["a"] harguments]
  exact ⟨harguments, hload, hfails, hone.mpr ⟨_, hload, vector, List.mem_cons_self, hfails⟩,
    ⟨_, hlast⟩, hcode, hempty hcode⟩

end KnownAnswer.CommandLine
