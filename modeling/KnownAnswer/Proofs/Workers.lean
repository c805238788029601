import KnownAnswer.Conformance.Harness
import KnownAnswer.Proofs.Blocks
import Mathlib.Logic.Relation

/-!
# Vectors spread over workers

The shares of the workers are the vectors cut into runs of neighbours: nothing is lost, repeated or
moved, no worker goes without, and there are no more shares than jobs.  A trial depends on nothing
but its vector, so what the workers bring back, put together share by share, is what a run one after
the other makes, in whatever order they get on with their shares (`Worker.made_of_turns`).  With the
trials agree the summary, the ciphers built and the calls made (`runParallel_indistinguishable`).
-/

namespace KnownAnswer.Conformance.Harness

open Relation (ReflTransGen)

/-! ## Shares -/

theorem shareSize_pos (vectors jobs : Nat) : 0 < shareSize vectors jobs :=
  Nat.lt_of_lt_of_le Nat.zero_lt_one (Nat.le_max_left 1 _)

/-- As many shares as there are jobs take all vectors. -/
theorem le_jobs_mul_shareSize (vectors : Nat) {jobs : Nat} (h : 0 < jobs) :
    vectors ≤ jobs * shareSize vectors jobs := by
  have hceil : vectors ≤ jobs * ((vectors + jobs - 1) / jobs) := by
    have hdiv := Nat.div_add_mod (vectors + jobs - 1) jobs
    have hmod := Nat.mod_lt (vectors + jobs - 1) h
    omega
  exact Nat.le_trans hceil (Nat.mul_le_mul_left jobs (Nat.le_max_right 1 _))

theorem flatten_shares (harness : Harness) (vectors : List TestVector) :
    (harness.shares vectors).flatten = vectors := flatten_chunks _ vectors

theorem length_shares_le (harness : Harness) (vectors : List TestVector)
    (h : 0 < harness.jobs) : (harness.shares vectors).length ≤ harness.jobs := by
  have hpos := shareSize_pos vectors.length harness.jobs
  have hcover := le_jobs_mul_shareSize vectors.length h
  rw [shares, length_chunks hpos]
  apply Nat.le_of_lt_succ
  rw [Nat.div_lt_iff_lt_mul hpos, Nat.succ_mul]
  omega

/-! ## Putting the trials together -/

theorem runAll_append (harness : Harness) (front back : List TestVector) :
    harness.runAll (front ++ back) = harness.runAll front ++ harness.runAll back :=
  List.map_append

theorem flatMap_runAll (harness : Harness) (shares : List (List TestVector)) :
    shares.flatMap harness.runAll = harness.runAll shares.flatten := by
  induction shares with
  | nil => rfl
  | cons share rest ih => rw [List.flatMap_cons, List.flatten_cons, ih, runAll_append]

theorem runParallel_eq_runAll (harness : Harness) (vectors : List TestVector) :
    harness.runParallel vectors = harness.runAll vectors := by
  rw [runParallel]
  split
  · rfl
  · have hget : ((harness.shares vectors).map fun share =>
        Task.spawn fun _ => harness.runAll share).flatMap Task.get =
          (harness.shares vectors).flatMap harness.runAll := List.flatMap_map _ _ _
    exact hget.trans ((flatMap_runAll harness _).trans (by rw [flatten_shares]))

/-! ## Workers in any order -/

/-- A worker on its way: the vectors it has still to run, and its trials so far. -/
structure Worker where
  waiting : List TestVector
  made : List Trial

namespace Worker

/-- What the worker will have made when nothing is waiting. -/
def outlook (harness : Harness) (worker : Worker) : List Trial :=
  worker.made ++ harness.runAll worker.waiting

/-- One of the workers, no matter which, runs its next vector. -/
inductive Turn (harness : Harness) : List Worker → List Worker → Prop
  | run (before after : List Worker) (vector : TestVector) (waiting : List TestVector)
      (made : List Trial) :
      Turn harness (before ++ ⟨vector :: waiting, made⟩ :: after)
        (before ++ ⟨waiting, made ++ [harness.trial vector]⟩ :: after)

/-- The workers of a run before their first turn. -/
def atStart (harness : Harness) (vectors : List TestVector) : List Worker :=
  (harness.shares vectors).map fun share => ⟨share, []⟩

variable {harness : Harness} {workers workers' : List Worker}

theorem outlook_turn (h : Turn harness workers workers') :
    workers'.map (outlook harness) = workers.map (outlook harness) := by
  cases h with
  | run before after vector waiting made =>
      rw [List.map_append, List.map_append, List.map_cons, List.map_cons, outlook, outlook, runAll,
        runAll, List.map_cons, List.append_assoc, List.singleton_append]

theorem outlook_turns (h : ReflTransGen (Turn harness) workers workers') :
    workers'.map (outlook harness) = workers.map (outlook harness) := by
  induction h with
  | refl => rfl
  | tail _ hturn ih => exact (outlook_turn hturn).trans ih

theorem flatten_outlook_atStart (harness : Harness) (vectors : List TestVector) :
    ((atStart harness vectors).map (outlook harness)).flatten = harness.runAll vectors := by
  have hshares : (atStart harness vectors).map (outlook harness) =
      (harness.shares vectors).map harness.runAll := by
    rw [atStart, List.map_map]
    rfl
  rw [hshares, ← List.flatMap_def, flatMap_runAll, flatten_shares]

/-- **The order of turns does not show.** Once no vector is waiting, the workers have made together
what a run one after the other makes. -/
theorem made_of_turns {vectors : List TestVector}
    (h : ReflTransGen (Turn harness) (atStart harness vectors) workers)
    (hdone : ∀ worker ∈ workers, worker.waiting = []) :
    workers.flatMap made = harness.runAll vectors := by
  have hmade : workers.map made = workers.map (outlook harness) := by
    refine List.map_congr_left fun worker hworker => ?_
    rw [outlook, hdone worker hworker]
    exact (List.append_nil _).symm
  rw [List.flatMap_def, hmade, outlook_turns h, flatten_outlook_atStart]

/-- Workers that take turns come to an end. -/
theorem exists_turns (harness : Harness) (workers : List Worker) :
    ∃ workers', ReflTransGen (Turn harness) workers workers' ∧
      ∀ worker ∈ workers', worker.waiting = [] := by
  -- on the number of vectors that are waiting at all workers together
  induction hn : (workers.map fun worker => worker.waiting.length).sum generalizing workers with
  | zero =>
      refine ⟨workers, .refl, fun worker hworker => ?_⟩
      have hzero := List.sum_eq_zero_iff_forall_eq_nat.mp hn _ (List.mem_map_of_mem hworker)
      exact List.length_eq_zero_iff.mp hzero
  | succ n ih =>
      have hpos : 0 < (workers.map fun worker => worker.waiting.length).sum := by omega
      obtain ⟨count, hcount, hlength⟩ := List.sum_pos_iff_exists_pos_nat.mp hpos
      obtain ⟨⟨waiting, made⟩, hworker, rfl⟩ := List.mem_map.mp hcount
      have hne : waiting ≠ [] := List.length_pos_iff.mp hlength
      obtain ⟨vector, rest, rfl⟩ := List.exists_cons_of_ne_nil hne
      obtain ⟨before, after, rfl⟩ := List.append_of_mem hworker
      have hturn : Turn harness _ _ := .run before after vector rest made
      have hless : ((before ++ ⟨rest, made ++ [harness.trial vector]⟩ :: after).map
          fun worker => worker.waiting.length).sum = n := by
        simp only [List.map_append, List.map_cons, List.sum_append, List.sum_cons,
          List.length_cons] at hn ⊢
        omega
      obtain ⟨workers', hturns, hdone⟩ := ih _ hless
      exact ⟨workers', .head hturn hturns, hdone⟩

end Worker

/-- **Workers leave no trace.** Reports, counts of ciphers and counts of calls are those of a run
one after the other, in whatever order the workers take their turns; and each vector is run by
exactly one worker. -/
theorem runParallel_indistinguishable (harness : Harness) (vectors : List TestVector) :
    (Trial.summary (harness.runParallel vectors) = Trial.summary (harness.runAll vectors) ∧
      (Trial.summary (harness.runParallel vectors)).reports =
        vectors.map (fun vector => (harness.trial vector).report) ∧
      (Trial.summary (harness.runParallel vectors)).passed =
        (Trial.summary (harness.runAll vectors)).passed ∧
      Trial.ciphers (harness.runParallel vectors) = Trial.ciphers (harness.runAll vectors) ∧
      Trial.calls (harness.runParallel vectors) = Trial.calls (harness.runAll vectors)) ∧
    ((∃ workers, ReflTransGen (Worker.Turn harness) (Worker.atStart harness vectors) workers ∧
        ∀ worker ∈ workers, worker.waiting = []) ∧
      ∀ workers, ReflTransGen (Worker.Turn harness) (Worker.atStart harness vectors) workers →
        (∀ worker ∈ workers, worker.waiting = []) →
        workers.flatMap Worker.made = harness.runParallel vectors) ∧
    (2 ≤ harness.jobs → 2 ≤ vectors.length →
      (∀ share ∈ harness.shares vectors, share ≠ []) ∧
      (harness.shares vectors).length ≤ harness.jobs ∧
      (harness.shares vectors).flatten = vectors) := by
  rw [runParallel_eq_runAll]
  refine ⟨⟨rfl, ?_, rfl, rfl, rfl⟩, ⟨Worker.exists_turns harness _, ?_⟩,
    fun hjobs _ => ⟨?_, ?_, ?_⟩⟩
  · rw [Trial.summary, runAll, List.map_map]
    rfl
  · exact fun workers hturns hdone => Worker.made_of_turns hturns hdone
  · exact fun share hshare => ne_nil_of_mem_chunks hshare
  · exact length_shares_le harness vectors (by omega)
  · exact flatten_shares harness vectors

/-- Seven vectors for four workers, the last of whom gets only one. -/
theorem runParallel_indistinguishable_seven :
    let harness : Harness := { cipherFor := fun _ => BlockCipher.identity, jobs := 4 }
    let vectors : List TestVector := List.replicate 7 { id := "v" }
    2 ≤ harness.jobs ∧ 2 ≤ vectors.length ∧
      (∀ share ∈ harness.shares vectors, share ≠ []) ∧
      (harness.shares vectors).length ≤ harness.jobs ∧
      (harness.shares vectors).flatten = vectors := by
  intro harness vectors
  have hjobs : 2 ≤ harness.jobs := by decide
  have hvectors : 2 ≤ vectors.length := by decide
  exact ⟨hjobs, hvectors, (runParallel_indistinguishable harness vectors).2.2 hjobs hvectors⟩

end KnownAnswer.Conformance.Harness
