import KnownAnswer.Block

/-!
# Dialogues with a block cipher

An algorithm that uses a block cipher is written down as a `Dialogue`: the tree of blocks it hands
over, each continued for every answer it may get, down to a result or a refusal.  What cipher is
asked is no part of it.  `Dialogue.run` plays a dialogue against a cipher and returns the outcome
beside the log of all blocks handed over; a call that fails is the last one in the log.

A `BlockCipher` may depend on the calls made to it before, so that one which gives up after some
calls is a cipher like any other.
-/

namespace KnownAnswer

/-- A failure of the cipher itself. -/
structure Fault where
  reason : String
  deriving DecidableEq

/-- How a cipher answers the next block, given the blocks it was handed earlier. -/
structure BlockCipher where
  answer : (earlier : Array Block) → Block → Except Fault Block

/-! ## Ciphers -/

namespace BlockCipher

/-- The cipher that answers by a function and never fails. -/
def total (encrypt : Block → Block) : BlockCipher where
  answer _ block := .ok (encrypt block)

/-- Answers `calls` times as before and fails from then on. -/
def failAfter (calls : Nat) (reason : String) (cipher : BlockCipher) : BlockCipher where
  answer earlier block :=
    if earlier.size < calls then cipher.answer earlier block else .error ⟨reason⟩

def identity : BlockCipher := total id

end BlockCipher

/-! ## Dialogues -/

/-- A computation that consults a block cipher and ends in an `α`, or in a refusal `ε`. -/
inductive Dialogue (ε α : Type) where
  | result (value : α)
  | refuse (reason : ε)
  | call (block : Block) (next : Block → Dialogue ε α)

/-- Why a dialogue that is played stops without a result: by its own refusal, or because the
cipher fails. -/
inductive Stop (ε : Type) where
  | refused (reason : ε)
  | fault (fault : Fault)
  deriving DecidableEq

namespace Dialogue

variable {ε α β : Type}

protected def bind : Dialogue ε α → (α → Dialogue ε β) → Dialogue ε β
  | .result value, rest => rest value
  | .refuse reason, _ => .refuse reason
  | .call block next, rest => .call block fun answer => (next answer).bind rest

instance : Monad (Dialogue ε) where
  pure := .result
  bind := Dialogue.bind

/-- Hands over one block and returns the answer. -/
def ask (block : Block) : Dialogue ε Block := .call block .result

/-- A value that was checked before any call. -/
def ofExcept : Except ε α → Dialogue ε α
  | .ok value => .result value
  | .error reason => .refuse reason

@[simp] theorem result_bind (value : α) (rest : α → Dialogue ε β) :
    (Dialogue.result value >>= rest) = rest value := rfl

@[simp] theorem pure_bind (value : α) (rest : α → Dialogue ε β) :
    ((pure value : Dialogue ε α) >>= rest) = rest value := rfl

@[simp] theorem refuse_bind (reason : ε) (rest : α → Dialogue ε β) :
    ((Dialogue.refuse reason : Dialogue ε α) >>= rest) = .refuse reason := rfl

@[simp] theorem call_bind (block : Block) (next : Block → Dialogue ε α)
    (rest : α → Dialogue ε β) :
    (Dialogue.call block next >>= rest) = .call block fun answer => next answer >>= rest := rfl

/-- Plays a dialogue to its end against a cipher that was already handed the blocks `earlier`. -/
def runFrom (cipher : BlockCipher) (earlier : Array Block) :
    Dialogue ε α → Except (Stop ε) α × Array Block
  | .result value => (.ok value, earlier)
  | .refuse reason => (.error (.refused reason), earlier)
  | .call block next =>
    match cipher.answer earlier block with
    | .ok answer => runFrom cipher (earlier.push block) (next answer)
    | .error fault => (.error (.fault fault), earlier.push block)

/-- Plays a dialogue against a cipher that was not used before. -/
def run (cipher : BlockCipher) (dialogue : Dialogue ε α) : Except (Stop ε) α × Array Block :=
  dialogue.runFrom cipher Array.empty

end Dialogue

end KnownAnswer
