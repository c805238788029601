import KnownAnswer.Proofs.AnyCipher

/-!
# Any sequence of operations on a CBC-MAC

Bytes are fed in strings of any length, and the waiting block is filled up with zeros at any time.
Behind such a sequence of operations there is one stream of bytes, and nothing but this stream counts:
sequences with the same stream are the same dialogue (`performAll_congr`).  The state has chained the
whole blocks of the stream and holds what is left of it (`Represents`); that one operation keeps this
is `perform_holding`, and what it means for a whole sequence is `performAll_refines`.
-/

namespace KnownAnswer.CbcMac

open Bytes (blocks whole rest)
open Ccm.Definition (chained chainInputs padded)
open Dialogue (Answered Takes)

variable {ε : Type}

/-! ## Operations and their stream -/

/-- What may be done with a running state before it is finished. -/
inductive Operation
  | feed (bytes : Bytes)
  | pad

def Operation.perform (mac : CbcMac) : Operation → Dialogue ε CbcMac
  | .feed bytes => mac.update bytes
  | .pad => mac.pad

/-- Performs operations one after the other, up to a call that fails. -/
def performAll (mac : CbcMac) (operations : List Operation) : Dialogue ε CbcMac :=
  operations.foldlM (fun mac operation => operation.perform mac) mac

/-- The stream that an operation leaves: with the bytes behind it, or with zeros up to the next
block boundary. -/
def Operation.extend (stream : Bytes) : Operation → Bytes
  | .feed bytes => stream ++ bytes
  | .pad => padded stream

def streamOf (operations : List Operation) : Bytes :=
  operations.foldl Operation.extend []

theorem streamOf_append (front back : List Operation) :
    streamOf (front ++ back) = back.foldl Operation.extend (streamOf front) := by
  unfold streamOf
  rw [List.foldl_append]

/-- What an operation adds does not depend on the blocks that are full already. -/
theorem Operation.extend_append_of_dvd {front : Bytes} (h : 16 ∣ front.length) (back : Bytes)
    (operation : Operation) :
    operation.extend (front ++ back) = front ++ operation.extend back := by
  cases operation with
  | feed bytes => exact List.append_assoc front back bytes
  | pad => exact Bytes.padded_append_of_dvd h back

theorem foldl_extend_append_of_dvd {front : Bytes} (h : 16 ∣ front.length) (back : Bytes)
    (operations : List Operation) :
    operations.foldl Operation.extend (front ++ back) =
      front ++ operations.foldl Operation.extend back := by
  induction operations generalizing back with
  | nil => rfl
  | cons operation operations ih =>
      rw [List.foldl_cons, List.foldl_cons, Operation.extend_append_of_dvd h, ih]

theorem foldl_extend_feed (stream : Bytes) (pieces : List Bytes) :
    (pieces.map Operation.feed).foldl Operation.extend stream = stream ++ pieces.flatten := by
  induction pieces generalizing stream with
  | nil => exact (List.append_nil stream).symm
  | cons piece pieces ih =>
      rw [List.map_cons, List.foldl_cons, ih, List.flatten_cons]
      exact List.append_assoc stream piece pieces.flatten

/-! ## One operation, and all of them -/

/-- One operation chains the blocks that it fills, and what it does not fill waits. -/
theorem perform_holding (chain : Block) {waiting : Bytes} (h : waiting.length < 16)
    (operation : Operation) :
    (operation.perform (holding chain waiting) : Dialogue ε CbcMac) = do
      let chain ← chainBlocks chain (blocks (whole (operation.extend waiting)))
      return holding chain (rest (operation.extend waiting)) := by
  cases operation with
  | feed bytes => exact update_holding chain h bytes
  | pad =>
      have hdvd := Bytes.length_padded_dvd waiting
      show pad (holding chain waiting) = _
      rw [pad_holding chain h, Operation.extend, Bytes.whole_of_dvd hdvd, Bytes.rest_of_dvd hdvd,
        Bytes.blocks_padded]

theorem performAll_holding (chain : Block) {waiting : Bytes} (h : waiting.length < 16)
    (operations : List Operation) :
    ((holding chain waiting).performAll operations : Dialogue ε CbcMac) = do
      let chain ← chainBlocks chain (blocks (whole (operations.foldl Operation.extend waiting)))
      return holding chain (rest (operations.foldl Operation.extend waiting)) := by
  induction operations generalizing chain waiting with
  | nil =>
      rw [List.foldl_nil, Bytes.whole_of_length_lt h, Bytes.rest_of_length_lt h, Bytes.blocks_nil]
      rfl
  | cons operation operations ih =>
      -- the blocks that the first operation fills are chained before the others are seen
      have hdvd := Bytes.dvd_length_whole (operation.extend waiting)
      have hstream := foldl_extend_append_of_dvd hdvd (rest (operation.extend waiting)) operations
      rw [Bytes.whole_append_rest] at hstream
      show (operation.perform (holding chain waiting) >>= fun mac => mac.performAll operations) = _
      rw [List.foldl_cons, hstream, Bytes.whole_append_of_dvd hdvd, Bytes.rest_append_of_dvd hdvd,
        Bytes.blocks_append_of_dvd hdvd, chainBlocks_append, perform_holding chain h,
        Dialogue.bind_assoc, Dialogue.bind_assoc]
      refine congrArg _ (funext fun chain => ?_)
      exact ih chain (Bytes.length_rest_lt _)

theorem performAll_start (operations : List Operation) :
    (start.performAll operations : Dialogue ε CbcMac) = do
      let chain ← chainBlocks Block.zero (blocks (whole (streamOf operations)))
      return holding chain (rest (streamOf operations)) := by
  rw [start_eq_holding]
  exact performAll_holding Block.zero (by decide) operations

/-- **Only the stream counts**, and not the operations that it comes from. -/
theorem performAll_congr {operations operations' : List Operation}
    (h : streamOf operations = streamOf operations') :
    (start.performAll operations : Dialogue ε CbcMac) = start.performAll operations' := by
  rw [performAll_start, performAll_start, h]

theorem performAll_finish (operations : List Operation) :
    ((start.performAll operations >>= finish) : Dialogue ε Block) =
      chainBlocks Block.zero (blocks (padded (streamOf operations))) := by
  rw [performAll_start, Bytes.blocks_padded,
    ← Bytes.blocks_whole_append_blocks_rest (streamOf operations), chainBlocks_append, Dialogue.bind_assoc]
  refine congrArg _ (funext fun chain => ?_)
  exact finish_holding chain (Bytes.length_rest_lt _)

theorem takes_performAll (operations : List Operation) :
    Takes (start.performAll operations : Dialogue ε CbcMac)
      ((streamOf operations).length / 16) := by
  rw [performAll_start, ← Bytes.length_blocks_whole, ← Nat.add_zero (List.length _)]
  exact (takes_chainBlocks Block.zero _).bind fun chain => .result _

/-! ## Cuts and repeated padding -/

theorem streamOf_cut (front back : List Operation) (pieces : List Bytes) :
    streamOf (front ++ pieces.map .feed ++ back) =
      streamOf (front ++ .feed pieces.flatten :: back) := by
  rw [streamOf_append, streamOf_append, streamOf_append, foldl_extend_feed]
  rfl

theorem streamOf_pad_of_dvd {front : List Operation} (h : 16 ∣ (streamOf front).length)
    (back : List Operation) : streamOf (front ++ .pad :: back) = streamOf (front ++ back) := by
  rw [streamOf_append, streamOf_append, List.foldl_cons, Operation.extend, Bytes.padded_of_dvd h]

/-- Behind a padding the stream ends on a boundary, where another one adds nothing. -/
theorem streamOf_pad_pad (front back : List Operation) :
    streamOf (front ++ .pad :: .pad :: back) = streamOf (front ++ .pad :: back) := by
  have hdvd : 16 ∣ (streamOf (front ++ [.pad])).length := by
    rw [streamOf_append]
    exact Bytes.length_padded_dvd (streamOf front)
  have hpad := streamOf_pad_of_dvd hdvd back
  rwa [List.append_assoc, List.append_assoc] at hpad

/-! ## One turn of the loop -/

/-- One turn of feeding: a piece is copied behind the bytes that wait, and the block goes to the
cipher if that fills it. -/
def turn (mac : CbcMac) (piece : Bytes) : Dialogue ε CbcMac :=
  let pending := mac.pending.overwrite mac.filled piece
  if h : mac.filled.val + piece.length < 16 then
    return { mac with pending, filled := ⟨mac.filled.val + piece.length, h⟩ }
  else
    absorb { mac with pending }

theorem update_eq_turn (mac : CbcMac) {bytes : Bytes} (h : bytes ≠ []) :
    (mac.update bytes : Dialogue ε CbcMac) =
      mac.turn (bytes.take (min (16 - mac.filled.val) bytes.length)) >>= fun mac' =>
        mac'.update (bytes.drop (min (16 - mac.filled.val) bytes.length)) := by
  have hsize : (bytes.take (min (16 - mac.filled.val) bytes.length)).length =
      min (16 - mac.filled.val) bytes.length := by
    rw [List.length_take]
    omega
  rw [update, if_neg h, turn]
  simp only [hsize]
  split
  · rfl
  · rfl

/-- A turn takes up a byte at least, so fewer are left. -/
theorem length_left_lt (mac : CbcMac) {bytes : Bytes} (h : bytes ≠ []) :
    (bytes.drop (min (16 - mac.filled.val) bytes.length)).length < bytes.length := by
  have hpos : 0 < bytes.length := List.length_pos_iff.mpr h
  have hlt : mac.filled.val < 16 := mac.filled.isLt
  rw [List.length_drop]
  omega

/-! ## What a state stands for -/

/-- The state stands for a stream: it has chained the whole blocks of the stream, what is left of it
waits at the head of the next block, and behind that there are zeros. -/
structure Represents (encrypt : Block → Block) (mac : CbcMac) (stream : Bytes) : Prop where
  chain_eq : mac.chain = chained encrypt Block.zero (blocks (whole stream))
  filled_eq : mac.filled.val = stream.length % 16
  waiting_eq : mac.pending.toBytes.take mac.filled = rest stream
  zeros : ∀ i (hi : i < 16), mac.filled.val ≤ i → mac.pending[i] = 0

theorem represents_holding (encrypt : Block → Block) (stream : Bytes) :
    (holding (chained encrypt Block.zero (blocks (whole stream))) (rest stream)).Represents encrypt
      stream where
  chain_eq := rfl
  filled_eq := by
    rw [filled_holding _ (Bytes.length_rest_lt stream), Bytes.length_rest]
  waiting_eq := by
    have hlt := Bytes.length_rest_lt stream
    have hhead := Block.take_toBytes_ofBytes (rest stream) [] (Nat.le_of_lt hlt)
    rw [List.append_nil] at hhead
    rw [filled_holding _ hlt]
    exact hhead
  zeros := by
    intro i hi hle
    rw [filled_holding _ (Bytes.length_rest_lt stream)] at hle
    show (Block.ofBytes (rest stream))[i] = 0
    rw [Block.getElem_ofBytes, List.getD_eq_default _ _ hle]

theorem run_performAll (encrypt : Block → Block) (operations : List Operation) :
    (start.performAll operations : Dialogue ε CbcMac).run (.total encrypt) =
      (.ok (holding (chained encrypt Block.zero (blocks (whole (streamOf operations))))
          (rest (streamOf operations))),
        (chainInputs encrypt Block.zero (blocks (whole (streamOf operations)))).toArray) := by
  have hchain := plays_chainBlocks (ε := ε) encrypt Block.zero
    (blocks (whole (streamOf operations)))
  have hstate := hchain.bind (Dialogue.Plays.result (holding
    (chained encrypt Block.zero (blocks (whole (streamOf operations)))) (rest (streamOf operations))))
    (f := fun chain => .result (holding chain (rest (streamOf operations))))
  rw [List.append_nil] at hstate
  rw [performAll_start]
  exact hstate.run_total

/-- The calls that are made for a stream, against a cipher that fails from some call on. -/
theorem run_performAll_failAfter (encrypt : Block → Block) (operations : List Operation)
    (calls : Nat) (reason : String) :
    let performed : Dialogue ε CbcMac := start.performAll operations
    let full := performed.run (.total encrypt)
    let cut := performed.run ((BlockCipher.total encrypt).failAfter calls reason)
    (full.2.size ≤ calls → cut = full) ∧
    (calls < full.2.size →
      cut.1 = .error (.fault ⟨reason⟩) ∧ cut.2.toList = full.2.toList.take (calls + 1)) := by
  intro performed full cut
  constructor
  · intro hle
    exact Dialogue.run_failAfter_of_le _ calls reason performed hle
  · intro hlt
    exact Dialogue.run_failAfter_of_lt _ calls reason performed hlt

/-! ## Refinement -/

/-- **A CBC-MAC refines the chain of its stream.** After any sequence of operations the state stands
for their stream and as many blocks were handed over as are full in it, each added to the answer to
the one before; finishing gives the value of the stream filled up with zeros.  A string may be cut
into any pieces and padding on a block boundary may be left out, and no cipher sees the difference.
Each turn of feeding takes a piece that is not empty and that the block has room for, so less is left
of the string.  A cipher that fails ends it all with its first fault, and a cipher that is good for
some calls only has been handed the blocks of the full run up to the call that failed. -/
theorem performAll_refines {ε : Type} (encrypt : Block → Block) (operations : List Operation) :
    let stream := streamOf operations
    let performed : Dialogue ε CbcMac := start.performAll operations
    let full := performed.run (.total encrypt)
    (∃ mac, full.1 = .ok mac ∧ mac.Represents encrypt stream) ∧
    full.2.toList = chainInputs encrypt Block.zero (blocks (whole stream)) ∧
    full.2.size = stream.length / 16 ∧
    (performed >>= finish).run (.total encrypt) =
      (.ok (chained encrypt Block.zero (blocks (padded stream))),
        (chainInputs encrypt Block.zero (blocks (padded stream))).toArray) ∧
    (∀ (pieces : List Bytes) (back : List Operation),
      (start.performAll (operations ++ pieces.map .feed ++ back) : Dialogue ε CbcMac) =
        start.performAll (operations ++ .feed pieces.flatten :: back)) ∧
    (∀ back, 16 ∣ stream.length →
      (start.performAll (operations ++ .pad :: back) : Dialogue ε CbcMac) =
        start.performAll (operations ++ back)) ∧
    (∀ back, (start.performAll (operations ++ .pad :: .pad :: back) : Dialogue ε CbcMac) =
      start.performAll (operations ++ .pad :: back)) ∧
    (∀ (mac : CbcMac) (bytes : Bytes), bytes ≠ [] →
      let size := min (16 - mac.filled.val) bytes.length
      0 < size ∧ mac.filled.val + size ≤ 16 ∧ (bytes.drop size).length < bytes.length ∧
        (mac.update bytes : Dialogue ε CbcMac) =
          mac.turn (bytes.take size) >>= fun mac' => mac'.update (bytes.drop size)) ∧
    (∀ cipher,
      (∃ mac, (performed.run cipher).1 = .ok mac ∧ Answered cipher (performed.run cipher).2) ∨
      ∃ log block fault, Answered cipher log ∧ cipher.answer log block = .error fault ∧
        performed.run cipher = (.error (.fault fault), log.push block)) ∧
    (∀ calls reason,
      let cut := performed.run ((BlockCipher.total encrypt).failAfter calls reason)
      (stream.length / 16 ≤ calls → cut = full) ∧
      (calls < stream.length / 16 →
        cut.1 = .error (.fault ⟨reason⟩) ∧ cut.2.toList = full.2.toList.take (calls + 1))) := by
  intro stream performed full
  have hfull := run_performAll (ε := ε) encrypt operations
  have hlog : full.2.toList = chainInputs encrypt Block.zero (blocks (whole stream)) :=
    congrArg (fun run => run.2.toList) hfull
  have hsize : full.2.size = stream.length / 16 := by
    rw [← Array.length_toList, hlog, Ccm.Definition.length_chainInputs, Bytes.length_blocks_whole]
  refine ⟨⟨_, congrArg Prod.fst hfull, represents_holding encrypt stream⟩, hlog, hsize, ?_, ?_, ?_,
    ?_, ?_, ?_, ?_⟩
  · show (start.performAll operations >>= finish : Dialogue ε Block).run _ = _
    rw [performAll_finish]
    exact (plays_chainBlocks encrypt Block.zero _).run_total
  · intro pieces back
    exact performAll_congr (streamOf_cut operations back pieces)
  · intro back hdvd
    exact performAll_congr (streamOf_pad_of_dvd hdvd back)
  · intro back
    exact performAll_congr (streamOf_pad_pad operations back)
  · intro mac bytes hne size
    have hpos : 0 < bytes.length := List.length_pos_iff.mpr hne
    have hlt := mac.filled.isLt
    exact ⟨by omega, by omega, length_left_lt mac hne, update_eq_turn mac hne⟩
  · intro cipher
    exact (takes_performAll operations).willing.run_cases cipher
  · intro calls reason cut
    rw [← hsize]
    exact run_performAll_failAfter encrypt operations calls reason

/-- Three bytes, padded twice, and seventeen more: the second padding adds nothing, two blocks were
full, and one byte waits. -/
theorem performAll_refines_padded_twice :
    let front : List Operation := [.feed [1, 2, 3]]
    let back : List Operation := [.feed (List.replicate 17 9)]
    let performed : Dialogue Empty CbcMac := start.performAll (front ++ .pad :: .pad :: back)
    let run := performed.run (.total id)
    performed = start.performAll (front ++ .pad :: back) ∧ run.2.size = 2 ∧
      ∃ mac, run.1 = .ok mac ∧ mac.filled.val = 1 ∧ mac.pending.toBytes.take 1 = [9] := by
  intro front back performed run
  obtain ⟨-, -, -, -, -, -, hpadded, -⟩ := performAll_refines (ε := Empty) id front
  obtain ⟨⟨mac, hmac, hstream⟩, -, hsize, -⟩ :=
    performAll_refines (ε := Empty) id (front ++ .pad :: .pad :: back)
  have hlength : (streamOf (front ++ .pad :: .pad :: back)).length = 33 := by decide
  have hrest : rest (streamOf (front ++ .pad :: .pad :: back)) = [9] := by decide
  have hfilled : mac.filled.val = 1 := by rw [hstream.filled_eq, hlength]
  have hwaiting := hstream.waiting_eq
  rw [hfilled, hrest] at hwaiting
  rw [hlength] at hsize
  exact ⟨hpadded back, hsize, mac, hmac, hfilled, hwaiting⟩

end KnownAnswer.CbcMac
