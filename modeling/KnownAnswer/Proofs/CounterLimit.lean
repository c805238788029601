import KnownAnswer.Proofs.Opening
import KnownAnswer.Proofs.Separation

/-!
# The last counter

A counter has two bytes, so there are 65535 of them behind counter zero, and a payload of more
blocks cannot be encrypted.  The encryption pass does not look at the length of its payload first: it
goes through the counters and refuses the block that is left when they are used up, so none of them
is ever used again (`encryptPayload_counters`).  Payloads within the capacity of a message do not
come near that, they have 4096 blocks at most.
-/

namespace KnownAnswer.Ccm

open Definition (blockCount ciphertext counterInput keystreamByte)

/-! ## Running out of counters -/

/-- With more pieces than counters, each counter that is left is used once before the refusal. -/
theorem plays_encryptPieces_exhausted (encrypt : Block → Block) (nonce : Nonce) (whole : Nat)
    {counter : Nat} (done pieces : List Bytes) (hcounter : counter ≤ 65536)
    (h : 65536 < counter + pieces.length) :
    Dialogue.Plays encrypt (encryptPieces nonce whole counter done pieces)
      (counterBlocks nonce counter (65536 - counter))
      (.error (.tooLong .payload whole 65535)) := by
  induction pieces generalizing counter done with
  | nil =>
      rw [List.length_nil] at h
      omega
  | cons piece pieces ih =>
      rw [List.length_cons] at h
      rcases Nat.lt_or_eq_of_le hcounter with hlt | hlast
      · have hleft : 65536 - counter = 65536 - (counter + 1) + 1 := by omega
        rw [hleft, counterBlocks_succ]
        exact plays_encryptPieces_cons (by omega) (ih _ (by omega) (by omega))
      · rw [encryptPieces_cons_of_lt nonce whole (by omega), hlast]
        exact Dialogue.Plays.refuse _

/-! ## The encryption pass over any payload -/

variable (encrypt : Block → Block) (nonce : Nonce) {payload : Bytes}

theorem run_encryptPayload_of_le (h : blockCount payload.length ≤ 65535) :
    (encryptPayload nonce payload).run (.total encrypt) =
      (.ok (ciphertext encrypt nonce payload),
        (counterBlocks nonce 1 (blockCount payload.length)).toArray) := by
  rw [← masked_one]
  exact (plays_encryptPieces encrypt nonce payload.length 1 [] payload (by omega)).run_total

theorem run_encryptPayload_of_lt (h : 65535 < blockCount payload.length) :
    (encryptPayload nonce payload).run (.total encrypt) =
      (.error (.refused (.tooLong .payload payload.length 65535)),
        (counterBlocks nonce 1 65535).toArray) := by
  have hpieces : 65536 < 1 + (chunks 16 payload).length := by
    rw [length_chunks_eq_blockCount]
    omega
  exact (plays_encryptPieces_exhausted encrypt nonce payload.length [] _ (by decide)
    hpieces).run_total

/-- In either case the blocks handed over are those of the first counters, as many as there are
blocks of the payload or counters for them. -/
theorem toList_encryptPayload_log :
    ((encryptPayload nonce payload).run (.total encrypt)).2.toList =
      counterBlocks nonce 1 (min (blockCount payload.length) 65535) := by
  rcases Nat.lt_or_ge 65535 (blockCount payload.length) with hlt | hle
  · rw [run_encryptPayload_of_lt encrypt nonce hlt, Nat.min_eq_right (Nat.le_of_lt hlt)]
  · rw [run_encryptPayload_of_le encrypt nonce hle, Nat.min_eq_left hle]

theorem counterBlocks_one_eq (count : Nat) :
    counterBlocks nonce 1 count = (List.range count).map fun i => counterInput nonce (i + 1) := by
  unfold counterBlocks
  apply List.map_congr_left
  intro i _
  rw [counterBlock_eq_counterInput, Nat.add_comm]

/-- **Counters never wrap.** A payload of any length is encrypted under the counters from one on, one
for each of its blocks, byte by byte as defined.  Only if it has more blocks than there are counters
is it refused with its length, after all 65535 of them and without output.  So the blocks handed over
are those of the counters one, two, and so on in this order, no two of them alike and none of them
that of counter zero, which is the tag's. -/
theorem encryptPayload_counters (encrypt : Block → Block) (nonce : Nonce) (payload : Bytes) :
    let count := blockCount payload.length
    let run := (encryptPayload nonce payload).run (.total encrypt)
    (count ≤ 65535 →
      (∃ output : Bytes, run.1 = .ok output ∧ output.length = payload.length ∧
        ∀ k, output[k]? = payload[k]?.map (· ^^^ keystreamByte encrypt nonce k)) ∧
      run.2.size = count) ∧
    (65535 < count →
      run.1 = .error (.refused (.tooLong .payload payload.length 65535)) ∧ run.2.size = 65535) ∧
    run.2.toList = (List.range (min count 65535)).map (fun i => counterInput nonce (i + 1)) ∧
    run.2.toList.Nodup ∧
    counterInput nonce 0 ∉ run.2.toList := by
  intro count run
  have hlog : run.2.toList = counterBlocks nonce 1 (min count 65535) :=
    toList_encryptPayload_log encrypt nonce
  have hsize : run.2.size = min count 65535 := by
    rw [← Array.length_toList, hlog, length_counterBlocks]
  refine ⟨?_, ?_, ?_, ?_, ?_⟩
  · intro hle
    have hrun : run.1 = .ok (ciphertext encrypt nonce payload) :=
      congrArg Prod.fst (run_encryptPayload_of_le encrypt nonce hle)
    refine ⟨⟨_, hrun, Definition.length_ciphertext encrypt nonce payload, ?_⟩, ?_⟩
    · intro k
      exact getElem?_ciphertext encrypt nonce payload k
    · rw [hsize, Nat.min_eq_left hle]
  · intro hlt
    refine ⟨congrArg Prod.fst (run_encryptPayload_of_lt encrypt nonce hlt), ?_⟩
    rw [hsize, Nat.min_eq_right (Nat.le_of_lt hlt)]
  · rw [hlog, counterBlocks_one_eq]
  · rw [hlog]
    apply nodup_counterBlocks
    omega
  · rw [hlog, ← counterBlock_eq_counterInput]
    apply counterBlock_zero_notMem
    omega

/-- The last payload that is encrypted, with 65535 full blocks, and the first that is not, with one
byte more. -/
theorem encryptPayload_counters_last :
    let nonce : Nonce := ⟨Vector.replicate 13 7⟩
    let last : Bytes := List.replicate 1048560 0
    let first : Bytes := List.replicate 1048561 0
    let runLast := (encryptPayload nonce last).run (.total id)
    let runFirst := (encryptPayload nonce first).run (.total id)
    blockCount last.length ≤ 65535 ∧ (∃ output, runLast.1 = .ok output) ∧ runLast.2.size = 65535 ∧
      65535 < blockCount first.length ∧
      runFirst.1 = .error (.refused (.tooLong .payload 1048561 65535)) ∧
      runFirst.2.size = 65535 := by
  intro nonce last first runLast runFirst
  have hlast : last.length = 1048560 := List.length_replicate
  have hfirst : first.length = 1048561 := List.length_replicate
  -- only their lengths count, and the texts are too long to be looked at
  clear_value last first
  have hcount : blockCount last.length = 65535 := by rw [hlast]; rfl
  have hle : blockCount last.length ≤ 65535 := Nat.le_of_eq hcount
  have hlt : 65535 < blockCount first.length := by rw [hfirst]; decide
  obtain ⟨⟨output, houtput, -, -⟩, hsize⟩ := (encryptPayload_counters id nonce last).1 hle
  obtain ⟨hrefused, hall⟩ := (encryptPayload_counters id nonce first).2.1 hlt
  rw [hfirst] at hrefused
  exact ⟨hle, ⟨output, houtput⟩, hsize.trans hcount, hlt, hrefused, hall⟩

end KnownAnswer.Ccm
