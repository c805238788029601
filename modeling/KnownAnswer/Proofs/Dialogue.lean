import KnownAnswer.Cipher.Dialogue

/-!
# Laws of dialogues

Dialogues are a lawful monad, so a dialogue that is put together from smaller ones may be regrouped
before any cipher is chosen.  Played against a cipher that never fails, a dialogue has one list of
blocks it hands over and one ending (`Plays`), and these compose along `bind`.  A cipher that gives
up after some calls cuts any dialogue off at that call and changes nothing before it
(`run_failAfter_of_le`, `run_failAfter_of_lt`).  Against every other cipher there is still what does
not depend on the answers: that a dialogue does not refuse (`Willing`), which blocks it hands over if
it always hands over the same (`Asks`), and how many calls it makes if these are always as many
(`Takes`).  Such a number is all that counts where the cipher gives up (`Takes.runFrom_cases`).  How
any run ends is said by `runFrom_cases`, and that it does not matter to calls and answers how a
refusal is put by `runFrom_mapRefusal`.
-/

namespace KnownAnswer

/-- The same stop, with what is refused put in other terms. -/
def Stop.map {ε ε' : Type} (f : ε → ε') : Stop ε → Stop ε'
  | .refused reason => .refused (f reason)
  | .fault cause => .fault cause

namespace Dialogue

variable {ε ε' α β γ : Type}

/-! ## Monad laws -/

theorem bind_result (dialogue : Dialogue ε α) : (dialogue >>= Dialogue.result) = dialogue := by
  induction dialogue with
  | result value => rfl
  | refuse reason => rfl
  | call block next ih => exact congrArg (call block) (funext ih)

theorem bind_assoc (dialogue : Dialogue ε α) (f : α → Dialogue ε β) (g : β → Dialogue ε γ) :
    (dialogue >>= f >>= g) = dialogue >>= fun a => f a >>= g := by
  induction dialogue with
  | result value => rfl
  | refuse reason => rfl
  | call block next ih => exact congrArg (call block) (funext ih)

instance : LawfulMonad (Dialogue ε) :=
  LawfulMonad.mk' _ bind_result (fun _ _ => rfl) bind_assoc

/-! ## Running one dialogue after another -/

theorem runFrom_bind (cipher : BlockCipher) (earlier : Array Block) (dialogue : Dialogue ε α)
    (f : α → Dialogue ε β) :
    (dialogue >>= f).runFrom cipher earlier =
      match dialogue.runFrom cipher earlier with
      | (.ok value, log) => (f value).runFrom cipher log
      | (.error stop, log) => (.error stop, log) := by
  induction dialogue generalizing earlier with
  | result value => rfl
  | refuse reason => rfl
  | call block next ih =>
      rw [call_bind, runFrom, runFrom]
      cases cipher.answer earlier block with
      | ok answer => exact ih answer (earlier.push block)
      | error fault => rfl

/-- The log of a run continues what was handed over before. -/
theorem prefix_runFrom (cipher : BlockCipher) (dialogue : Dialogue ε α) (earlier : Array Block) :
    earlier.toList <+: (dialogue.runFrom cipher earlier).2.toList := by
  have hpush : ∀ (log : Array Block) (block : Block), log.toList <+: (log.push block).toList :=
    fun log block => ⟨[block], by simp⟩
  induction dialogue generalizing earlier with
  | result value => exact List.prefix_rfl
  | refuse reason => exact List.prefix_rfl
  | call block next ih =>
      rw [runFrom]
      cases cipher.answer earlier block with
      | ok answer => exact (hpush earlier block).trans (ih answer (earlier.push block))
      | error fault => exact hpush earlier block

/-- Against every cipher, the block that is handed over first heads the log. -/
theorem head?_run_call (cipher : BlockCipher) (block : Block) (next : Block → Dialogue ε α) :
    ((call block next).run cipher).2.toList.head? = some block := by
  have hprefix : [block] <+: ((call block next).run cipher).2.toList := by
    rw [run, runFrom]
    cases cipher.answer Array.empty block with
    | ok answer => exact prefix_runFrom cipher (next answer) #[block]
    | error fault => exact List.prefix_rfl
  obtain ⟨rest, hrest⟩ := hprefix
  rw [← hrest]
  rfl

/-! ## Refusals in other terms -/

/-- The same dialogue, with what it refuses put in other terms. -/
def mapRefusal (f : ε → ε') : Dialogue ε α → Dialogue ε' α
  | .result value => .result value
  | .refuse reason => .refuse (f reason)
  | .call block next => .call block fun answer => (next answer).mapRefusal f

theorem mapRefusal_bind (f : ε → ε') (dialogue : Dialogue ε α) (rest : α → Dialogue ε β) :
    (dialogue >>= rest).mapRefusal f =
      dialogue.mapRefusal f >>= fun value => (rest value).mapRefusal f := by
  induction dialogue with
  | result value => rfl
  | refuse reason => rfl
  | call block next ih => exact congrArg (call block) (funext ih)

theorem mapRefusal_ofExcept (f : ε → ε') (checked : Except ε α) :
    (ofExcept checked).mapRefusal f = ofExcept (checked.mapError f) := by
  cases checked with
  | ok value => rfl
  | error reason => rfl

/-- Calls and answers are not touched by how a refusal is put. -/
theorem runFrom_mapRefusal (f : ε → ε') (cipher : BlockCipher) (dialogue : Dialogue ε α)
    (earlier : Array Block) :
    (dialogue.mapRefusal f).runFrom cipher earlier =
      ((dialogue.runFrom cipher earlier).1.mapError (Stop.map f),
        (dialogue.runFrom cipher earlier).2) := by
  induction dialogue generalizing earlier with
  | result value => rfl
  | refuse reason => rfl
  | call block next ih =>
      rw [mapRefusal, runFrom, runFrom]
      cases cipher.answer earlier block with
      | ok answer => exact ih answer (earlier.push block)
      | error fault => rfl

/-! ## Ciphers that never fail -/

/-- Against a cipher that answers by `encrypt`, the dialogue hands over `asked` and ends in
`ending`, whatever was handed over before. -/
def Plays (encrypt : Block → Block) (dialogue : Dialogue ε α) (asked : List Block)
    (ending : Except ε α) : Prop :=
  ∀ earlier, dialogue.runFrom (.total encrypt) earlier =
    (ending.mapError .refused, earlier ++ asked.toArray)

variable {encrypt : Block → Block}

theorem Plays.result (value : α) : Plays encrypt (.result value : Dialogue ε α) [] (.ok value) := by
  intro earlier
  rw [runFrom, Array.append_empty]
  rfl

theorem Plays.refuse (reason : ε) :
    Plays encrypt (.refuse reason : Dialogue ε α) [] (.error reason) := by
  intro earlier
  rw [runFrom, Array.append_empty]
  rfl

theorem Plays.call {block : Block} {next : Block → Dialogue ε α} {asked : List Block}
    {ending : Except ε α} (h : Plays encrypt (next (encrypt block)) asked ending) :
    Plays encrypt (.call block next) (block :: asked) ending := by
  intro earlier
  have hlog : earlier.push block ++ asked.toArray = earlier ++ (block :: asked).toArray := by
    simp
  rw [← hlog]
  exact h (earlier.push block)

theorem Plays.bind {dialogue : Dialogue ε α} {f : α → Dialogue ε β} {first second : List Block}
    {value : α} {ending : Except ε β} (h : Plays encrypt dialogue first (.ok value))
    (hf : Plays encrypt (f value) second ending) :
    Plays encrypt (dialogue >>= f) (first ++ second) ending := by
  intro earlier
  rw [runFrom_bind, h earlier]
  show (f value).runFrom (.total encrypt) (earlier ++ first.toArray) = _
  have hlog : earlier ++ first.toArray ++ second.toArray =
      earlier ++ (first ++ second).toArray := by
    simp
  rw [← hlog]
  exact hf (earlier ++ first.toArray)

theorem Plays.run_total {dialogue : Dialogue ε α} {asked : List Block} {ending : Except ε α}
    (h : Plays encrypt dialogue asked ending) :
    dialogue.run (.total encrypt) = (ending.mapError .refused, asked.toArray) := by
  have hrun := h #[]
  rwa [Array.empty_append] at hrun

/-! ## Whatever the answers -/

/-- The cipher answers every call of a log, each after those before it. -/
inductive Answered (cipher : BlockCipher) : Array Block → Prop
  | start : Answered cipher Array.empty
  | push {log : Array Block} {block answer : Block} (h : Answered cipher log)
      (hanswer : cipher.answer log block = .ok answer) : Answered cipher (log.push block)

/-- **How a run ends.** Either every call is answered and the dialogue ends by itself, or the last
call is the first that is not answered and its fault ends the dialogue. -/
theorem runFrom_cases (cipher : BlockCipher) (dialogue : Dialogue ε α) {earlier : Array Block}
    (h : Answered cipher earlier) :
    (Answered cipher (dialogue.runFrom cipher earlier).2 ∧
      ∀ fault, (dialogue.runFrom cipher earlier).1 ≠ .error (.fault fault)) ∨
    ∃ log block fault, Answered cipher log ∧ cipher.answer log block = .error fault ∧
      dialogue.runFrom cipher earlier = (.error (.fault fault), log.push block) := by
  induction dialogue generalizing earlier with
  | result value => exact .inl ⟨h, nofun⟩
  | refuse reason => exact .inl ⟨h, nofun⟩
  | call block next ih =>
      rw [runFrom]
      cases hanswer : cipher.answer earlier block with
      | ok answer => exact ih answer (h.push hanswer)
      | error fault => exact .inr ⟨earlier, block, fault, h, hanswer, rfl⟩

/-- The dialogue never ends in a refusal of its own. -/
inductive Willing : Dialogue ε α → Prop
  | result (value : α) : Willing (.result value)
  | call {block : Block} {next : Block → Dialogue ε α} (h : ∀ answer, Willing (next answer)) :
      Willing (.call block next)

/-- Only the cipher can keep a willing dialogue from its result. -/
theorem Willing.runFrom_ne_refused {dialogue : Dialogue ε α} (h : Willing dialogue)
    (cipher : BlockCipher) (earlier : Array Block) (reason : ε) :
    (dialogue.runFrom cipher earlier).1 ≠ .error (.refused reason) := by
  induction h generalizing earlier with
  | result value =>
      intro hrun
      cases hrun
  | @call block next _ ih =>
      rw [runFrom]
      cases cipher.answer earlier block with
      | ok answer => exact ih answer (earlier.push block)
      | error fault =>
          intro hrun
          cases hrun

/-- A willing dialogue comes to its result, or to the fault of the first call that fails. -/
theorem Willing.run_cases {dialogue : Dialogue ε α} (h : Willing dialogue) (cipher : BlockCipher) :
    (∃ value, (dialogue.run cipher).1 = .ok value ∧ Answered cipher (dialogue.run cipher).2) ∨
    ∃ log block fault, Answered cipher log ∧ cipher.answer log block = .error fault ∧
      dialogue.run cipher = (.error (.fault fault), log.push block) := by
  rcases runFrom_cases cipher dialogue Answered.start with ⟨hanswered, hnofault⟩ | hfault
  · refine .inl ?_
    cases hending : (dialogue.run cipher).1 with
    | ok value => exact ⟨value, rfl, hanswered⟩
    | error stop =>
        cases stop with
        | refused reason => exact absurd hending (h.runFrom_ne_refused cipher Array.empty reason)
        | fault fault => exact absurd hending (hnofault fault)
  · exact .inr hfault

/-- The dialogue comes to a result, and hands over the blocks `asked` on its way. -/
inductive Asks : Dialogue ε α → List Block → Prop
  | result (value : α) : Asks (.result value) []
  | call {block : Block} {next : Block → Dialogue ε α} {asked : List Block}
      (h : ∀ answer, Asks (next answer) asked) : Asks (.call block next) (block :: asked)

theorem Asks.bind {dialogue : Dialogue ε α} {f : α → Dialogue ε β} {first second : List Block}
    (h : Asks dialogue first) (hf : ∀ value, Asks (f value) second) :
    Asks (dialogue >>= f) (first ++ second) := by
  induction h with
  | result value => exact hf value
  | call _ ih => exact .call ih

/-- Against any cipher the blocks asked are handed over in order, all of them if no call fails. -/
theorem Asks.runFrom {dialogue : Dialogue ε α} {asked : List Block} (h : Asks dialogue asked)
    (cipher : BlockCipher) (earlier : Array Block) :
    ∃ log, (dialogue.runFrom cipher earlier).2.toList = earlier.toList ++ log ∧ log <+: asked ∧
      ∀ value, (dialogue.runFrom cipher earlier).1 = .ok value → log = asked := by
  induction h generalizing earlier with
  | result value => exact ⟨[], (List.append_nil _).symm, List.prefix_rfl, fun _ _ => rfl⟩
  | @call block next asked _ ih =>
      rw [Dialogue.runFrom]
      cases cipher.answer earlier block with
      | ok answer =>
          obtain ⟨log, hlog, hprefix, hall⟩ := ih answer (earlier.push block)
          refine ⟨block :: log, ?_, List.cons_prefix_cons.mpr ⟨rfl, hprefix⟩, ?_⟩
          · rw [hlog, Array.toList_push, List.append_assoc, List.singleton_append]
          · intro value hvalue
            rw [hall value hvalue]
      | error fault =>
          refine ⟨[block], Array.toList_push, ?_, ?_⟩
          · exact List.cons_prefix_cons.mpr ⟨rfl, List.nil_prefix⟩
          · intro value hvalue
            cases hvalue

/-- The dialogue comes to a result after `needed` calls, whatever it is answered. -/
inductive Takes : Dialogue ε α → Nat → Prop
  | result (value : α) : Takes (.result value) 0
  | call {block : Block} {next : Block → Dialogue ε α} {needed : Nat}
      (h : ∀ answer, Takes (next answer) needed) : Takes (.call block next) (needed + 1)

theorem Takes.willing {dialogue : Dialogue ε α} {needed : Nat} (h : Takes dialogue needed) :
    Willing dialogue := by
  induction h with
  | result value => exact .result value
  | call _ ih => exact .call ih

theorem Asks.takes {dialogue : Dialogue ε α} {asked : List Block} (h : Asks dialogue asked) :
    Takes dialogue asked.length := by
  induction h with
  | result value => exact .result value
  | call _ ih => exact .call ih

theorem Takes.bind {dialogue : Dialogue ε α} {f : α → Dialogue ε β} {first second : Nat}
    (h : Takes dialogue first) (hf : ∀ value, Takes (f value) second) :
    Takes (dialogue >>= f) (first + second) := by
  induction h with
  | result value =>
      rw [Nat.zero_add]
      exact hf value
  | call _ ih =>
      rw [Nat.add_right_comm]
      exact .call ih

/-! ## Ciphers that give up -/

/-- A run that stays within the number of calls a cipher is good for does not notice the end. -/
theorem runFrom_failAfter_of_le (cipher : BlockCipher) (calls : Nat) (reason : String)
    (dialogue : Dialogue ε α) (earlier : Array Block)
    (h : (dialogue.runFrom cipher earlier).2.size ≤ calls) :
    dialogue.runFrom (cipher.failAfter calls reason) earlier = dialogue.runFrom cipher earlier := by
  induction dialogue generalizing earlier with
  | result value => rfl
  | refuse reason => rfl
  | call block next ih =>
      have hle : (earlier.push block).size ≤ calls := by
        refine Nat.le_trans ?_ h
        rw [runFrom]
        cases cipher.answer earlier block with
        | ok answer => exact (prefix_runFrom cipher (next answer) (earlier.push block)).length_le
        | error fault => exact Nat.le_refl _
      have hlt : earlier.size < calls := by
        rw [Array.size_push] at hle
        omega
      have hanswer : (cipher.failAfter calls reason).answer earlier block =
          cipher.answer earlier block := if_pos hlt
      rw [runFrom] at h
      rw [runFrom, runFrom, hanswer]
      cases ha : cipher.answer earlier block with
      | ok answer =>
          rw [ha] at h
          exact ih answer (earlier.push block) h
      | error fault => rfl

/-- A run that needs more calls is cut off right behind the call that is refused. -/
theorem runFrom_failAfter_of_lt (cipher : BlockCipher) (calls : Nat) (reason : String)
    (dialogue : Dialogue ε α) (earlier : Array Block) (hearlier : earlier.size ≤ calls)
    (h : calls < (dialogue.runFrom cipher earlier).2.size) :
    (dialogue.runFrom (cipher.failAfter calls reason) earlier).1 = .error (.fault ⟨reason⟩) ∧
      (dialogue.runFrom (cipher.failAfter calls reason) earlier).2.toList =
        (dialogue.runFrom cipher earlier).2.toList.take (calls + 1) := by
  induction dialogue generalizing earlier with
  | result value => exact absurd h (Nat.not_lt_of_le hearlier)
  | refuse reason => exact absurd h (Nat.not_lt_of_le hearlier)
  | call block next ih =>
      rcases Nat.lt_or_eq_of_le hearlier with hlt | heq
      · have hanswer : (cipher.failAfter calls reason).answer earlier block =
            cipher.answer earlier block := if_pos hlt
        have hpush : (earlier.push block).size ≤ calls := by
          rw [Array.size_push]
          omega
        rw [runFrom] at h
        rw [runFrom, runFrom, hanswer]
        cases ha : cipher.answer earlier block with
        | ok answer =>
            rw [ha] at h
            exact ih answer (earlier.push block) hpush h
        | error fault =>
            rw [ha] at h
            exact absurd h (Nat.not_lt_of_le hpush)
      · have hanswer : (cipher.failAfter calls reason).answer earlier block =
            .error ⟨reason⟩ := if_neg (by omega)
        have hlog : (earlier.push block).toList <+:
            ((call block next).runFrom cipher earlier).2.toList := by
          rw [runFrom]
          cases cipher.answer earlier block with
          | ok answer => exact prefix_runFrom cipher (next answer) (earlier.push block)
          | error fault => exact List.prefix_rfl
        have hsize : (earlier.push block).toList.length = calls + 1 := by
          rw [Array.length_toList, Array.size_push, heq]
        have htake := List.prefix_iff_eq_take.mp hlog
        rw [hsize] at htake
        rw [runFrom, hanswer]
        exact ⟨rfl, htake⟩

theorem run_failAfter_of_le (cipher : BlockCipher) (calls : Nat) (reason : String)
    (dialogue : Dialogue ε α) (h : (dialogue.run cipher).2.size ≤ calls) :
    dialogue.run (cipher.failAfter calls reason) = dialogue.run cipher :=
  runFrom_failAfter_of_le cipher calls reason dialogue #[] h

theorem run_failAfter_of_lt (cipher : BlockCipher) (calls : Nat) (reason : String)
    (dialogue : Dialogue ε α) (h : calls < (dialogue.run cipher).2.size) :
    (dialogue.run (cipher.failAfter calls reason)).1 = .error (.fault ⟨reason⟩) ∧
      (dialogue.run (cipher.failAfter calls reason)).2.toList =
        (dialogue.run cipher).2.toList.take (calls + 1) :=
  runFrom_failAfter_of_lt cipher calls reason dialogue #[] (Nat.zero_le calls) h

end Dialogue

/-! ## Ciphers that last for some calls -/

/-- Whatever it answers, the cipher answers its first `calls` calls, and it fails from then on. -/
structure BlockCipher.Lasts (cipher : BlockCipher) (calls : Nat) : Prop where
  answers : ∀ earlier block, earlier.size < calls →
    ∃ answer, cipher.answer earlier block = .ok answer
  fails : ∀ earlier block, calls ≤ earlier.size → ∃ fault, cipher.answer earlier block = .error fault

theorem BlockCipher.lasts_failAfter_total (encrypt : Block → Block) (calls : Nat) (reason : String) :
    ((BlockCipher.total encrypt).failAfter calls reason).Lasts calls where
  answers _ block h := ⟨encrypt block, if_pos h⟩
  fails _ _ h := ⟨⟨reason⟩, if_neg (Nat.not_lt_of_le h)⟩

/-- A dialogue either gets through with the calls it needs, or it ends with the first call that is
not answered. -/
theorem Dialogue.Takes.runFrom_cases {ε α : Type} {dialogue : Dialogue ε α} {needed : Nat}
    (h : Takes dialogue needed) {cipher : BlockCipher} {calls : Nat} (hcipher : cipher.Lasts calls)
    {earlier : Array Block} (hearlier : earlier.size ≤ calls) :
    (earlier.size + needed ≤ calls ∧
      (dialogue.runFrom cipher earlier).2.size = earlier.size + needed ∧
      ∃ value, (dialogue.runFrom cipher earlier).1 = .ok value) ∨
    (calls < earlier.size + needed ∧ (dialogue.runFrom cipher earlier).2.size = calls + 1 ∧
      ∃ fault, (dialogue.runFrom cipher earlier).1 = .error (.fault fault)) := by
  induction h generalizing earlier with
  | result value => exact .inl ⟨hearlier, rfl, value, rfl⟩
  | @call block next needed _ ih =>
      have hpush : (earlier.push block).size = earlier.size + 1 := Array.size_push ..
      rw [runFrom]
      rcases Nat.lt_or_eq_of_le hearlier with hlt | heq
      · obtain ⟨answer, hanswer⟩ := hcipher.answers earlier block hlt
        have hroom : (earlier.push block).size ≤ calls := by omega
        have hrest := ih answer hroom
        rw [hpush, Nat.add_assoc, Nat.add_comm 1] at hrest
        rw [hanswer]
        exact hrest
      · obtain ⟨fault, hfault⟩ := hcipher.fails earlier block (Nat.le_of_eq heq.symm)
        rw [hfault]
        refine .inr ⟨by omega, ?_, fault, rfl⟩
        exact hpush.trans (by rw [heq])

end KnownAnswer
