import KnownAnswer.Proofs.ExitCode
import Mathlib.Data.List.Perm.Basic

/-!
# Runs that are arranged in another way

The order in which fixtures are named, the number of workers, and whether outputs are kept are
matters of arrangement.  Another order of the fixtures loads the same vectors in another order, or
fails to load as well; a trial depends on its vector alone, in its outcome even if outputs are not
kept; and what a run is judged by counts outcomes without regard to their order.  So the verdict is
the same (`execute_rearranged`).  If only outputs are not kept, the report lacks the lines that show
them and nothing else.
-/

namespace KnownAnswer

namespace Conformance

/-! ## Outcomes of a run -/

namespace Summary

/-- Ids and outcomes, which is what a run is judged by. -/
def outcomes (summary : Summary) : List (String × Outcome) :=
  summary.reports.map fun report => (report.id, report.outcome)

/-- The summary of the same run if no outputs were kept. -/
def withoutOutputs (summary : Summary) : Summary :=
  ⟨summary.reports.map fun report => { report with output := none }⟩

variable {summary summary' : Summary}

theorem passed_eq_countP (summary : Summary) :
    summary.passed = summary.outcomes.countP fun (_, outcome) => outcome.isPass := by
  rw [outcomes, List.countP_map]
  rfl

theorem passed_eq_of_perm (h : summary.outcomes.Perm summary'.outcomes) :
    summary.passed = summary'.passed := by
  rw [passed_eq_countP, passed_eq_countP]
  exact h.countP_eq _

theorem total_eq_of_perm (h : summary.outcomes.Perm summary'.outcomes) :
    summary.total = summary'.total := by
  have hlength := h.length_eq
  rwa [outcomes, outcomes, List.length_map, List.length_map] at hlength

theorem failed_eq_of_perm (h : summary.outcomes.Perm summary'.outcomes) :
    summary.failed = summary'.failed := by
  rw [failed, failed, total_eq_of_perm h, passed_eq_of_perm h]

theorem isSuccess_eq_of_perm (h : summary.outcomes.Perm summary'.outcomes) :
    summary.isSuccess = summary'.isSuccess := by
  rw [isSuccess, isSuccess, failed_eq_of_perm h]

theorem failingIds_eq_filter (summary : Summary) :
    summary.failingIds = (summary.outcomes.filter fun (_, outcome) => !outcome.isPass).map
      Prod.fst := by
  rw [failingIds, outcomes, List.filter_map, List.map_map]
  rfl

theorem outcomes_withoutOutputs (summary : Summary) :
    summary.withoutOutputs.outcomes = summary.outcomes := by
  rw [withoutOutputs, outcomes, List.map_map]
  rfl

/-- Outputs that are kept do not show in the line of a summary. -/
theorem line_withoutOutputs (summary : Summary) : summary.withoutOutputs.line = summary.line := by
  have houtcomes := outcomes_withoutOutputs summary
  rw [line_eq_verdict, line_eq_verdict, failingIds_eq_filter, failingIds_eq_filter, houtcomes,
    total_eq_of_perm (List.Perm.of_eq houtcomes)]

end Summary

/-! ## Trials under other settings -/

namespace Harness

variable {harness harness' : Harness}

theorem outcome_trial_congr (hcipher : harness.cipherFor = harness'.cipherFor)
    (hchecks : harness.checks = harness'.checks) (vector : TestVector) :
    (harness.trial vector).report.outcome = (harness'.trial vector).report.outcome := by
  -- what is left of the settings is only read for the output
  simp only [trial, judge, hcipher, hchecks]
  rcases sealVector harness'.cipherFor vector with ⟨ending, cipher⟩
  cases ending <;> rfl

theorem output_trial_of_not_capture (hcapture : harness.capture = false) (vector : TestVector) :
    (harness.trial vector).report.output = none := by
  rw [output_trial, hcapture]
  rfl

/-- Outputs that are not kept are missing in the reports, and that is all. -/
theorem summary_of_not_capture (harness harness' : Harness)
    (hcipher : harness.cipherFor = harness'.cipherFor)
    (hchecks : harness.checks = harness'.checks) (hcapture : harness'.capture = false)
    (vectors : List TestVector) :
    Trial.summary (harness'.runParallel vectors) =
      (Trial.summary (harness.runParallel vectors)).withoutOutputs := by
  rw [summary_runParallel, summary_runParallel, Summary.withoutOutputs, List.map_map]
  refine congrArg Summary.mk (List.map_congr_left fun vector _ => ?_)
  have hid := (id_trial harness' vector).trans (id_trial harness vector).symm
  have houtcome := outcome_trial_congr hcipher hchecks vector
  have houtput := output_trial_of_not_capture hcapture vector
  rw [Function.comp_apply, ← hid, houtcome, ← houtput]

theorem outcomes_summary (harness : Harness) (vectors : List TestVector) :
    (Trial.summary (harness.runParallel vectors)).outcomes =
      vectors.map fun vector => (vector.id, (harness.trial vector).report.outcome) := by
  rw [summary_runParallel, Summary.outcomes, List.map_map]
  refine List.map_congr_left fun vector _ => ?_
  rw [Function.comp_apply, id_trial]

theorem outcomes_perm (harness harness' : Harness)
    (hcipher : harness.cipherFor = harness'.cipherFor)
    (hchecks : harness.checks = harness'.checks) {vectors vectors' : List TestVector}
    (h : vectors.Perm vectors') :
    (Trial.summary (harness.runParallel vectors)).outcomes.Perm
      (Trial.summary (harness'.runParallel vectors')).outcomes := by
  rw [outcomes_summary, outcomes_summary]
  simp only [outcome_trial_congr hcipher hchecks]
  exact h.map _

end Harness

end Conformance

namespace CommandLine

open Conformance (Harness Summary Trial)

/-! ## Fixtures in another order -/

section

variable {read : FileReader} {options options' : Options}
  (hbuiltin : options.builtin = options'.builtin) (hpaths : options.paths.Perm options'.paths)

include hbuiltin hpaths

theorem sources_perm : options.sources.Perm options'.sources := by
  have hnil : options.paths = [] ↔ options'.paths = [] := by
    rw [← List.isEmpty_iff, ← List.isEmpty_iff, hpaths.isEmpty_eq]
  simp only [Options.sources, hbuiltin, hnil]
  exact (hpaths.map _).append_left _

/-- The same vectors are loaded, in another order. -/
theorem loadVectors_perm {vectors : List TestVector} (h : loadVectors read options = .ok vectors) :
    ∃ vectors', loadVectors read options' = .ok vectors' ∧ vectors.Perm vectors' := by
  obtain ⟨loaded, hloaded, rfl, hne, hnodup⟩ := loadVectors_eq_ok_iff.mp h
  -- a source holds the same wherever it is named, so what the sources hold is reordered with them
  obtain ⟨loaded', hloaded', hperm⟩ :=
    List.perm_comp_forall₂ (sources_perm hbuiltin hpaths).symm hloaded
  have hflatten := hperm.symm.flatten
  refine ⟨loaded'.flatten, loadVectors_eq_ok_iff.mpr ⟨loaded', hloaded', rfl, ?_, ?_⟩, hflatten⟩
  · intro hnil
    rw [hnil] at hflatten
    exact hne hflatten.eq_nil
  · exact (hflatten.map TestVector.id).nodup_iff.mp hnodup

end

theorem loadVectors_congr {options options' : Options}
    (hbuiltin : options.builtin = options'.builtin) (hpaths : options.paths = options'.paths)
    (read : FileReader) : loadVectors read options = loadVectors read options' := by
  rw [loadVectors, loadVectors, builtinVectors, builtinVectors, hbuiltin, hpaths]

/-! ## Lines that show outputs -/

/-- What a line of a report is there for. -/
inductive Role
  | verdict
  | dump
  | summary
  deriving DecidableEq

/-- The lines of a run with their roles: the line that shows an output stands right behind that of
its vector. -/
def linesWithRoles (summary : Summary) : List (Role × String) :=
  (summary.reports.flatMap fun report => (.verdict, report.line) ::
    (report.output.map fun output => (.dump, dumpLine output)).toList) ++ [(.summary, summary.line)]

theorem lines_eq_map (summary : Summary) :
    lines summary = (linesWithRoles summary).map Prod.snd := by
  rw [lines, linesWithRoles, List.map_append, List.map_flatMap]
  refine congrArg (· ++ _) (congrArg (fun f => summary.reports.flatMap f) (funext fun report => ?_))
  rw [reportLines]
  cases report.output <;> rfl

theorem filter_linesWithRoles (summary : Summary) :
    (linesWithRoles summary).filter (fun line => line.1 ≠ .dump) =
      (summary.reports.map fun report => (.verdict, report.line)) ++
        [(.summary, summary.line)] := by
  rw [linesWithRoles, List.filter_append]
  refine congrArg (· ++ _) ?_
  induction summary.reports with
  | nil => rfl
  | cons report rest ih =>
      rw [List.flatMap_cons, List.filter_append, ih, List.map_cons]
      cases report.output <;> rfl

/-- Without outputs the lines that show them are gone, and no other. -/
theorem lines_withoutOutputs (summary : Summary) :
    lines summary.withoutOutputs =
      ((linesWithRoles summary).filter fun line => line.1 ≠ .dump).map Prod.snd := by
  rw [filter_linesWithRoles, lines, Summary.line_withoutOutputs, List.map_append, List.map_map]
  refine congrArg (· ++ _) ?_
  rw [Summary.withoutOutputs, List.flatMap_map]
  exact List.flatMap_pure_eq_map _ _

/-! ## Two runs -/

section

variable (cipherFor : Ccm.Key → BlockCipher) {read : FileReader} {options options' : Options}

/-- Either both arrangements fail to load, or both load the same vectors in some order. -/
theorem loadVectors_cases (hbuiltin : options.builtin = options'.builtin)
    (hpaths : options.paths.Perm options'.paths) :
    (∃ error error', loadVectors read options = .error error ∧
      loadVectors read options' = .error error') ∨
    ∃ vectors vectors', loadVectors read options = .ok vectors ∧
      loadVectors read options' = .ok vectors' ∧ vectors.Perm vectors' := by
  rcases hload : loadVectors read options with error | vectors
  · rcases hload' : loadVectors read options' with error' | vectors'
    · exact .inl ⟨error, error', rfl, rfl⟩
    · -- what loads in one order loads in the other
      obtain ⟨vectors, hvectors, -⟩ := loadVectors_perm hbuiltin.symm hpaths.symm hload'
      rw [hload] at hvectors
      cases hvectors
  · obtain ⟨vectors', hload', hperm⟩ := loadVectors_perm hbuiltin hpaths hload
    exact .inr ⟨vectors, vectors', rfl, hload', hperm⟩

theorem code_execute_of_perm (hbuiltin : options.builtin = options'.builtin)
    (hpaths : options.paths.Perm options'.paths) :
    (execute cipherFor read options).code = (execute cipherFor read options').code := by
  rcases loadVectors_cases hbuiltin hpaths with
    ⟨error, error', hload, hload'⟩ | ⟨vectors, vectors', hload, hload', hperm⟩
  · rw [execute_of_error cipherFor hload, execute_of_error cipherFor hload']
  · have houtcomes := Harness.outcomes_perm (harness cipherFor options)
      (harness cipherFor options') rfl rfl hperm
    rw [execute_of_ok cipherFor hload, execute_of_ok cipherFor hload',
      Summary.isSuccess_eq_of_perm houtcomes]

theorem outcomes_runWith_of_perm (hbuiltin : options.builtin = options'.builtin)
    (hpaths : options.paths.Perm options'.paths)
    (hcode : (execute cipherFor read options).code ≠ 2) :
    ∃ summary summary', (runWith cipherFor read options { capacity := none }).1 = .ok summary ∧
      (runWith cipherFor read options' { capacity := none }).1 = .ok summary' ∧
      summary.outcomes.Perm summary'.outcomes := by
  rcases loadVectors_cases hbuiltin hpaths with
    ⟨error, error', hload, hload'⟩ | ⟨vectors, vectors', hload, hload', hperm⟩
  · rw [execute_of_error cipherFor hload] at hcode
    exact absurd rfl hcode
  · rw [runWith_of_ok cipherFor hload, runWith_of_ok cipherFor hload']
    exact ⟨_, _, rfl, rfl, Harness.outcomes_perm (harness cipherFor options)
      (harness cipherFor options') rfl rfl hperm⟩

variable (hbuiltin : options.builtin = options'.builtin) (hpaths : options.paths = options'.paths)

include hbuiltin hpaths

theorem execute_congr (hdump : options.dump = options'.dump) :
    execute cipherFor read options = execute cipherFor read options' := by
  have hload := loadVectors_congr hbuiltin hpaths read
  rcases hvectors : loadVectors read options' with error | vectors
  · rw [execute_of_error cipherFor hvectors, execute_of_error cipherFor (hload.trans hvectors)]
  · have htrial : (harness cipherFor options).trial = (harness cipherFor options').trial :=
      funext fun vector => Harness.trial_congr rfl hdump fun _ _ => rfl
    rw [execute_of_ok cipherFor hvectors, execute_of_ok cipherFor (hload.trans hvectors),
      Harness.summary_runParallel, Harness.summary_runParallel, htrial]

theorem output_execute_of_not_dump (hdump : options'.dump = false) {summary : Summary}
    (h : (runWith cipherFor read options { capacity := none }).1 = .ok summary) :
    (execute cipherFor read options).output =
        ((linesWithRoles summary).map Prod.snd).flatMap lineBytes ∧
      (execute cipherFor read options').output =
        (((linesWithRoles summary).filter fun line => line.1 ≠ .dump).map Prod.snd).flatMap
          lineBytes := by
  obtain ⟨vectors, hload, rfl⟩ := (runWith_eq_ok_iff cipherFor).mp h
  have hload' := (loadVectors_congr hbuiltin hpaths read).symm.trans hload
  have hsummary := Harness.summary_of_not_capture (harness cipherFor options)
    (harness cipherFor options') rfl rfl hdump vectors
  rw [execute_of_ok cipherFor hload, execute_of_ok cipherFor hload', ← lines_eq_map,
    ← lines_withoutOutputs, hsummary]
  exact ⟨rfl, rfl⟩

theorem output_execute_of_error {error : RunError}
    (h : (runWith cipherFor read options { capacity := none }).1 = .error error) :
    (execute cipherFor read options).output = [] ∧
      (execute cipherFor read options').output = [] := by
  have hload := (runWith_eq_error_iff cipherFor).mp h
  have hload' := (loadVectors_congr hbuiltin hpaths read).symm.trans hload
  rw [execute_of_error cipherFor hload, execute_of_error cipherFor hload']
  exact ⟨rfl, rfl⟩

end

/-- **The verdict does not depend on the arrangement.** Two runs whose fixtures are the same, each
named as often but in any order, that agree on the built-in set and on nothing else, end with the
same code; and if that tells a result, they have the same outcomes up to their order, and as many
passes and failures.  If the fixtures are named in one order and both runs or neither show outputs,
the output is the same; if only the first shows them, the other lacks the lines that do, each of
which stands behind the line of its vector.  The program is such a run under its own cipher. -/
theorem execute_rearranged (cipherFor : Ccm.Key → BlockCipher) (read : FileReader)
    {options options' : Options} (hbuiltin : options.builtin = options'.builtin)
    (hpaths : options.paths.Perm options'.paths) :
    let exit := execute cipherFor read options
    let exit' := execute cipherFor read options'
    let result := (runWith cipherFor read options { capacity := none }).1
    let result' := (runWith cipherFor read options' { capacity := none }).1
    exit.code = exit'.code ∧
    (exit.code = 0 ∨ exit.code = 1 →
      ∃ summary summary', result = .ok summary ∧ result' = .ok summary' ∧
        summary.outcomes.Perm summary'.outcomes ∧ summary.passed = summary'.passed ∧
        summary.failed = summary'.failed) ∧
    (options.paths = options'.paths → options.dump = options'.dump →
      exit.output = exit'.output) ∧
    (options.paths = options'.paths → options.dump = true → options'.dump = false →
      (∀ summary, result = .ok summary →
        exit.output = ((linesWithRoles summary).map Prod.snd).flatMap lineBytes ∧
        exit'.output = (((linesWithRoles summary).filter fun line => line.1 ≠ .dump).map
          Prod.snd).flatMap lineBytes) ∧
      (∀ error, result = .error error → exit.output = [] ∧ exit'.output = [])) ∧
    (∀ arguments chosen, Options.ofArguments arguments = .ok chosen →
      program read arguments = execute Aes128.cipher read chosen) := by
  intro exit exit' result result'
  refine ⟨code_execute_of_perm cipherFor hbuiltin hpaths, fun hcode => ?_, ?_, ?_, ?_⟩
  · have hne : exit.code ≠ 2 := by
      rcases hcode with hcode | hcode <;> rw [hcode] <;> decide
    obtain ⟨summary, summary', hresult, hresult', hperm⟩ :=
      outcomes_runWith_of_perm cipherFor hbuiltin hpaths hne
    exact ⟨summary, summary', hresult, hresult', hperm, Summary.passed_eq_of_perm hperm,
      Summary.failed_eq_of_perm hperm⟩
  · exact fun hpaths hdump => congrArg Exit.output (execute_congr cipherFor hbuiltin hpaths hdump)
  · intro hpaths _ hdump
    exact ⟨fun summary => output_execute_of_not_dump cipherFor hbuiltin hpaths hdump,
      fun error => output_execute_of_error cipherFor hbuiltin hpaths⟩
  · intro arguments chosen harguments
    rw [program, harguments]

/-- Two fixtures with one vector each that has no key, run by four workers in the other order. -/
theorem execute_rearranged_two_fixtures :
    let read : FileReader := fun path =>
      .ok ("version=1\n[[vector]]\nid='" ++ path ++ "'\nexpected=''\n")
    let options : Options := { paths := ["a", "b"], dump := true }
    let options' : Options := { paths := ["b", "a"], jobs := 4 }
    let exit := execute Aes128.cipher read options
    let exit' := execute Aes128.cipher read options'
    options.builtin = options'.builtin ∧ options.paths.Perm options'.paths ∧
      exit.code = 1 ∧ exit'.code = 1 ∧
      ∃ summary summary',
        (runWith Aes128.cipher read options { capacity := none }).1 = .ok summary ∧
        (runWith Aes128.cipher read options' { capacity := none }).1 = .ok summary' ∧
        summary.outcomes.Perm summary'.outcomes ∧ summary.failed = summary'.failed := by
  intro read options options' exit exit'
  have hbuiltin : options.builtin = options'.builtin := rfl
  have hpaths : options.paths.Perm options'.paths := by decide
  have hone : exit.code = 1 := by decide +kernel
  obtain ⟨hcode, houtcomes, -⟩ := execute_rearranged Aes128.cipher read hbuiltin hpaths
  obtain ⟨summary, summary', hresult, hresult', hperm, -, hfailed⟩ := houtcomes (.inr hone)
  exact ⟨hbuiltin, hpaths, hone, hcode ▸ hone, summary, summary', hresult, hresult', hperm, hfailed⟩

end CommandLine

end KnownAnswer
