import KnownAnswer.Conformance.Check
import KnownAnswer.TestVector

/-!
# Running vectors

A harness seals the inputs of vectors with ciphers of its own and compares the results with what
the vectors expect.  Each vector gets a fresh cipher, so its report depends on nothing but the
vector; that is why vectors may be spread over workers.
-/

namespace KnownAnswer.Conformance

open Ccm (Key SealError Sealed)

/-! ## Sealing a vector -/

/-- The cipher built for a vector: its key, and the blocks it was handed. -/
structure CipherUse where
  key : Key
  blocks : Array Block
  deriving DecidableEq

/-- Seals the inputs of a vector with a cipher built for its key.  A vector that is not valid gets
no cipher. -/
def sealVector (cipherFor : Key → BlockCipher) (vector : TestVector) :
    Except SealError Sealed × Option CipherUse :=
  match vector.validate with
  | .error reason => (.error (.refused reason), none)
  | .ok parameters =>
    let (ending, blocks) :=
      (Ccm.sealMessage parameters vector.header vector.plaintext).run (cipherFor parameters.key)
    (ending, some { key := parameters.key, blocks })

/-! ## Trials -/

structure Harness where
  cipherFor : Key → BlockCipher
  checks : Checks := Checks.standard
  /-- How many workers share the vectors; fewer than two means none. -/
  jobs : Nat := 1
  /-- Whether reports keep the computed bytes. -/
  capture : Bool := false

/-- The report on a vector, beside the use it made of a cipher.  A rejected vector gets none. -/
structure Trial where
  report : Report
  cipher : Option CipherUse
  deriving DecidableEq

namespace Harness

def judge (harness : Harness) (expected actual : Bytes) : Outcome :=
  match harness.checks.failure? expected actual with
  | none => .pass
  | some failure => .fail failure

/-- Runs one vector. -/
def trial (harness : Harness) (vector : TestVector) : Trial :=
  match sealVector harness.cipherFor vector with
  | (.error reason, cipher) =>
    ⟨{ id := vector.id, outcome := .fail (Failure.ofSealError reason) }, cipher⟩
  | (.ok message, cipher) =>
    let output := message.toBytes
    ⟨{ id := vector.id
       outcome := harness.judge vector.expected output
       output := if harness.capture then some output else none },
      cipher⟩

/-- Runs vectors one after the other. -/
def runAll (harness : Harness) (vectors : List TestVector) : List Trial :=
  vectors.map harness.trial

/-- How many vectors each of `jobs` workers takes so that all are taken. -/
def shareSize (vectors jobs : Nat) : Nat := max 1 ((vectors + jobs - 1) / jobs)

/-- The vectors of each worker: runs of neighbours, all of one length but the last. -/
def shares (harness : Harness) (vectors : List TestVector) : List (List TestVector) :=
  chunks (shareSize vectors.length harness.jobs) vectors

/-- Runs vectors spread over workers, whose reports are put together in the order of the
vectors. -/
def runParallel (harness : Harness) (vectors : List TestVector) : List Trial :=
  if harness.jobs ≤ 1 ∨ vectors.length ≤ 1 then
    harness.runAll vectors
  else
    let workers := (harness.shares vectors).map fun share =>
      Task.spawn fun _ => harness.runAll share
    workers.flatMap Task.get

end Harness

namespace Trial

def summary (trials : List Trial) : Summary := ⟨trials.map Trial.report⟩

/-- How many ciphers were built. -/
def ciphers (trials : List Trial) : Nat := trials.countP fun t => t.cipher.isSome

/-- How many blocks were handed over in all. -/
def calls (trials : List Trial) : Nat :=
  trials.foldr (fun t n => n + match t.cipher with
    | none => 0
    | some use => use.blocks.size) 0

end Trial

end KnownAnswer.Conformance
