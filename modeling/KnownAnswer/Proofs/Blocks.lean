import KnownAnswer.Ccm.Definition
import Mathlib.Data.List.GetD

/-!
# Cutting byte strings into blocks

Proofs about strings that are cut follow the cut: a string is either shorter than one piece, or a
whole piece with a string behind it (`chunk_induction`).  From this come the laws of `chunks` and of
`Bytes.blocks` at block boundaries, the split of a string into its whole blocks and a rest, and that
the blocks of a string together with its length say what the string was (`Bytes.blocks_injective`).
-/

namespace KnownAnswer

/-! ## Pieces of one size -/

section Chunks

variable {α : Type} {size : Nat}

@[simp] theorem chunks_nil : chunks size ([] : List α) = [] := by rw [chunks]

theorem chunks_append_of_length {head : List α} (hsize : 0 < size) (hhead : head.length = size)
    (rest : List α) : chunks size (head ++ rest) = head :: chunks size rest := by
  cases head with
  | nil =>
      simp only [List.length_nil] at hhead
      omega
  | cons x xs =>
      have hlen : xs.length = size - 1 := by
        simp only [List.length_cons] at hhead
        omega
      rw [List.cons_append, chunks, List.take_left' hlen, List.drop_left' hlen]

theorem chunks_of_length_le {xs : List α} (hne : xs ≠ []) (hlen : xs.length ≤ size) :
    chunks size xs = [xs] := by
  cases xs with
  | nil => exact absurd rfl hne
  | cons x xs =>
      have hle : xs.length ≤ size - 1 := by
        simp only [List.length_cons] at hlen
        omega
      rw [chunks, List.take_of_length_le hle, List.drop_eq_nil_of_le hle, chunks_nil]

/-- Induction along the cut: a string shorter than a piece, or a piece and the string behind it. -/
@[elab_as_elim]
theorem chunk_induction {motive : List α → Prop} (hsize : 0 < size)
    (short : ∀ xs, xs.length < size → motive xs)
    (step : ∀ head rest, head.length = size → motive rest → motive (head ++ rest))
    (xs : List α) : motive xs := by
  induction hn : xs.length using Nat.strongRecOn generalizing xs with
  | _ n ih =>
      by_cases hlt : xs.length < size
      · exact short xs hlt
      · have hlen : (xs.take size).length = size := by
          rw [List.length_take]
          omega
        rw [← List.take_append_drop size xs]
        refine step _ _ hlen (ih (xs.drop size).length ?_ _ rfl)
        rw [List.length_drop]
        omega

/-- Induction along the cut of a string that leaves no rest. -/
@[elab_as_elim]
theorem chunk_induction_of_dvd {motive : (xs : List α) → size ∣ xs.length → Prop}
    (hsize : 0 < size) (nil : motive [] (Nat.dvd_zero size))
    (step : ∀ head rest hrest hall, head.length = size → motive rest hrest →
      motive (head ++ rest) hall)
    (xs : List α) (h : size ∣ xs.length) : motive xs h := by
  induction xs using chunk_induction hsize with
  | short xs hlt =>
      obtain rfl : xs = [] := List.length_eq_zero_iff.mp (Nat.eq_zero_of_dvd_of_lt h hlt)
      exact nil
  | step head rest hhead ih =>
      have hrest : size ∣ rest.length := by
        rw [List.length_append, hhead] at h
        exact (Nat.dvd_add_right (Nat.dvd_refl size)).mp h
      exact step head rest hrest h hhead (ih hrest)

theorem length_chunks (hsize : 0 < size) (xs : List α) :
    (chunks size xs).length = (xs.length + size - 1) / size := by
  induction xs using chunk_induction hsize with
  | short xs hlt =>
      by_cases hne : xs = []
      · subst hne
        simp only [chunks_nil, List.length_nil, Nat.zero_add]
        exact (Nat.div_eq_of_lt (by omega)).symm
      · have hpos : 0 < xs.length := List.length_pos_iff.mpr hne
        rw [chunks_of_length_le hne (Nat.le_of_lt hlt), List.length_singleton,
          show xs.length + size - 1 = xs.length - 1 + size by omega,
          Nat.add_div_right _ hsize, Nat.div_eq_of_lt (by omega)]
  | step head rest hhead ih =>
      rw [chunks_append_of_length hsize hhead, List.length_cons, ih, List.length_append, hhead,
        show size + rest.length + size - 1 = rest.length + size - 1 + size by omega,
        Nat.add_div_right _ hsize]

theorem ne_nil_of_mem_chunks {xs piece : List α} (h : piece ∈ chunks size xs) : piece ≠ [] := by
  fun_induction chunks size xs with
  | case1 => simp at h
  | case2 x xs ih =>
      rcases List.mem_cons.mp h with rfl | hrest
      · exact List.cons_ne_nil _ _
      · exact ih hrest

end Chunks

/-! ## Bytes of a block -/

namespace Block

theorem getElem_ofBytes (bytes : Bytes) (i : Nat) (hi : i < 16) :
    (ofBytes bytes)[i] = bytes.getD i 0 := by
  simp [ofBytes]

theorem ofBytes_toBytes (block : Block) : ofBytes block.toBytes = block := by
  ext i hi
  rw [getElem_ofBytes]
  simp [toBytes, hi]

theorem ofBytes_append_zeros (bytes : Bytes) (n : Nat) :
    ofBytes (bytes ++ List.replicate n 0) = ofBytes bytes := by
  ext i hi
  rw [getElem_ofBytes, getElem_ofBytes]
  by_cases h : i < bytes.length
  · rw [List.getD_append _ _ _ _ h]
  · rw [List.getD_append_right _ _ _ _ (by omega), List.getD_eq_default bytes 0 (by omega)]
    by_cases hn : i - bytes.length < n
    · rw [List.getD_replicate _ hn]
    · rw [List.getD_eq_default _ _ (by simpa using hn)]

theorem toBytes_ofBytes {bytes : Bytes} (h : bytes.length = 16) :
    (ofBytes bytes).toBytes = bytes := by
  apply List.ext_getElem
  · rw [length_toBytes, h]
  · intro i hi hi'
    rw [length_toBytes] at hi
    simp only [toBytes, Vector.getElem_toList]
    rw [getElem_ofBytes bytes i hi, List.getD_eq_getElem _ _ hi']

/-- A block shows the first bytes of the string that it was made of. -/
theorem take_toBytes_ofBytes (front back : Bytes) (h : front.length ≤ 16) :
    (ofBytes (front ++ back)).toBytes.take front.length = front := by
  apply List.ext_getElem
  · rw [List.length_take, length_toBytes]
    omega
  · intro i hi hi'
    simp only [List.getElem_take, toBytes, Vector.getElem_toList]
    rw [getElem_ofBytes _ i (by omega), List.getD_append _ _ _ _ hi', List.getD_eq_getElem _ _ hi']

theorem ofBytes_nil : ofBytes [] = zero := by
  ext i hi
  rw [getElem_ofBytes]
  simp [zero]

theorem zero_xor (block : Block) : zero.xor block = block := by
  ext i hi
  simp [xor, zero]

/-- Bytes copied behind those that a block begins with extend them. -/
theorem overwrite_ofBytes (front piece : Bytes) :
    (ofBytes front).overwrite front.length piece = ofBytes (front ++ piece) := by
  ext i hi
  simp only [overwrite, Vector.getElem_ofFn, Fin.getElem_fin, getElem_ofBytes]
  by_cases hlt : i < front.length
  · rw [if_pos hlt, List.getD_append _ _ _ _ hlt]
  · have hge : front.length ≤ i := by omega
    rw [if_neg hlt, List.getD_append_right _ _ _ _ hge, List.getD_eq_default front 0 hge]

/-- Copying into a block is replacing a part of its bytes by as many others. -/
theorem ofBytes_splice (block : Block) (piece : Bytes) {start : Nat}
    (h : start + piece.length ≤ 16) :
    ofBytes (block.toBytes.take start ++ piece ++ block.toBytes.drop (start + piece.length)) =
      block.overwrite start piece := by
  have hfront : (block.toBytes.take start).length = start := by
    rw [List.length_take, length_toBytes]
    omega
  ext i hi
  have hcell : block.toBytes[i]? = some block[i] := by
    simp [toBytes, hi]
  simp only [overwrite, Vector.getElem_ofFn, Fin.getElem_fin]
  rw [getElem_ofBytes, List.getD_eq_getElem?_getD, List.append_assoc]
  by_cases hlt : i < start
  · rw [if_pos hlt, List.getElem?_append_left (by omega), List.getElem?_take_of_lt hlt, hcell]
    rfl
  · rw [if_neg hlt, List.getElem?_append_right (by omega), hfront]
    by_cases hpiece : i - start < piece.length
    · rw [List.getElem?_append_left hpiece, List.getD_eq_getElem _ _ hpiece,
        List.getElem?_eq_getElem hpiece]
      rfl
    · have hoffset : start + piece.length + (i - start - piece.length) = i := by omega
      rw [List.getElem?_append_right (by omega), List.getElem?_drop, hoffset, hcell,
        List.getD_eq_default _ _ (by omega)]
      rfl

end Block

/-! ## Blocks of a string -/

namespace Bytes

@[simp] theorem blocks_nil : blocks [] = [] := by simp [blocks]

theorem blocks_append_of_length {head : Bytes} (hhead : head.length = 16) (rest : Bytes) :
    blocks (head ++ rest) = Block.ofBytes head :: blocks rest := by
  rw [blocks, chunks_append_of_length (by decide) hhead, List.map_cons, blocks]

theorem blocks_of_length_le {bytes : Bytes} (hne : bytes ≠ []) (hlen : bytes.length ≤ 16) :
    blocks bytes = [Block.ofBytes bytes] := by
  rw [blocks, chunks_of_length_le hne hlen, List.map_singleton]

theorem blocks_eq_cons {bytes : Bytes} (hne : bytes ≠ []) :
    ∃ rest, blocks bytes = Block.ofBytes bytes :: rest := by
  by_cases hle : bytes.length ≤ 16
  · exact ⟨[], blocks_of_length_le hne hle⟩
  · have hhead : (bytes.take 16).length = 16 := by
      rw [List.length_take]
      omega
    have hblock : Block.ofBytes (bytes.take 16) = Block.ofBytes bytes := by
      ext i hi
      rw [Block.getElem_ofBytes, Block.getElem_ofBytes, List.getD_eq_getElem?_getD,
        List.getD_eq_getElem?_getD, List.getElem?_take_of_lt hi]
    refine ⟨blocks (bytes.drop 16), ?_⟩
    rw [← hblock, ← blocks_append_of_length hhead, List.take_append_drop]

theorem blocks_append_of_dvd {front : Bytes} (h : 16 ∣ front.length) (back : Bytes) :
    blocks (front ++ back) = blocks front ++ blocks back := by
  induction front, h using chunk_induction_of_dvd (show 0 < 16 by decide) with
  | nil => rw [List.nil_append, blocks_nil, List.nil_append]
  | step head rest _ _ hhead ih =>
      rw [List.append_assoc, blocks_append_of_length hhead, blocks_append_of_length hhead, ih,
        List.cons_append]

theorem flatMap_toBytes_blocks_of_dvd {bytes : Bytes} (h : 16 ∣ bytes.length) :
    (blocks bytes).flatMap Block.toBytes = bytes := by
  induction bytes, h using chunk_induction_of_dvd (show 0 < 16 by decide) with
  | nil => rw [blocks_nil, List.flatMap_nil]
  | step head rest _ _ hhead ih =>
      rw [blocks_append_of_length hhead, List.flatMap_cons, Block.toBytes_ofBytes hhead, ih]

theorem blocks_toBytes (block : Block) : blocks block.toBytes = [block] := by
  have hlen : block.toBytes.length = 16 := Block.length_toBytes block
  have hne : block.toBytes ≠ [] := List.ne_nil_of_length_pos (by omega)
  rw [blocks_of_length_le hne (Nat.le_of_eq hlen), Block.ofBytes_toBytes]

theorem length_blocks (bytes : Bytes) : (blocks bytes).length = (bytes.length + 15) / 16 := by
  rw [blocks, List.length_map, length_chunks (by decide)]
  rfl

/-! ## Padding -/

open Ccm.Definition (padded)

theorem length_padded_dvd (bytes : Bytes) : 16 ∣ (padded bytes).length := by
  simp only [padded, List.length_append, List.length_replicate]
  omega

theorem padded_append_of_dvd {front : Bytes} (h : 16 ∣ front.length) (back : Bytes) :
    padded (front ++ back) = front ++ padded back := by
  have hmod : (front ++ back).length % 16 = back.length % 16 := by
    rw [List.length_append]
    omega
  rw [padded, hmod, List.append_assoc, padded]

theorem padded_of_dvd {bytes : Bytes} (h : 16 ∣ bytes.length) : padded bytes = bytes := by
  have hpad := padded_append_of_dvd h []
  rwa [List.append_nil, show padded [] = [] from rfl, List.append_nil] at hpad

/-- Zeros behind a string are what its last block holds in any case. -/
theorem blocks_padded (bytes : Bytes) : blocks (padded bytes) = blocks bytes := by
  induction bytes using chunk_induction (show 0 < 16 by decide) with
  | short xs hlt =>
      by_cases hne : xs = []
      · subst hne
        rfl
      · have hlen : (padded xs).length ≤ 16 := by
          simp only [padded, List.length_append, List.length_replicate]
          omega
        rw [blocks_of_length_le (by simp [padded, hne]) hlen,
          blocks_of_length_le hne (Nat.le_of_lt hlt), padded, Block.ofBytes_append_zeros]
  | step head rest hhead ih =>
      rw [padded_append_of_dvd ⟨1, hhead⟩, blocks_append_of_length hhead,
        blocks_append_of_length hhead, ih]

theorem flatMap_toBytes_blocks (bytes : Bytes) :
    (blocks bytes).flatMap Block.toBytes = padded bytes := by
  rw [← blocks_padded, flatMap_toBytes_blocks_of_dvd (length_padded_dvd bytes)]

/-- A string is determined by its blocks once its length is known. -/
theorem blocks_injective {xs ys : Bytes} (hlen : xs.length = ys.length)
    (hblocks : blocks xs = blocks ys) : xs = ys := by
  have hpad : padded xs = padded ys := by
    rw [← flatMap_toBytes_blocks, hblocks, flatMap_toBytes_blocks]
  exact List.append_inj_left hpad hlen

/-! ## Whole blocks and what is left -/

/-- The part of a string that fills blocks. -/
def whole (bytes : Bytes) : Bytes := bytes.take (bytes.length / 16 * 16)

/-- What is left of a string behind its last whole block. -/
def rest (bytes : Bytes) : Bytes := bytes.drop (bytes.length / 16 * 16)

theorem whole_append_rest (bytes : Bytes) : whole bytes ++ rest bytes = bytes :=
  List.take_append_drop _ bytes

theorem length_whole (bytes : Bytes) : (whole bytes).length = bytes.length / 16 * 16 := by
  rw [whole, List.length_take]
  omega

theorem dvd_length_whole (bytes : Bytes) : 16 ∣ (whole bytes).length :=
  ⟨bytes.length / 16, by rw [length_whole, Nat.mul_comm]⟩

theorem length_rest (bytes : Bytes) : (rest bytes).length = bytes.length % 16 := by
  rw [rest, List.length_drop]
  omega

theorem length_rest_lt (bytes : Bytes) : (rest bytes).length < 16 := by
  rw [length_rest]
  exact Nat.mod_lt _ (by decide)

theorem whole_of_length_lt {bytes : Bytes} (h : bytes.length < 16) : whole bytes = [] := by
  rw [whole, Nat.div_eq_of_lt h, Nat.zero_mul, List.take_zero]

theorem rest_of_length_lt {bytes : Bytes} (h : bytes.length < 16) : rest bytes = bytes := by
  rw [rest, Nat.div_eq_of_lt h, Nat.zero_mul, List.drop_zero]

theorem length_append_of_dvd {front : Bytes} (h : 16 ∣ front.length) (back : Bytes) :
    (front ++ back).length / 16 * 16 = front.length + back.length / 16 * 16 := by
  rw [List.length_append]
  omega

theorem whole_append_of_dvd {front : Bytes} (h : 16 ∣ front.length) (back : Bytes) :
    whole (front ++ back) = front ++ whole back := by
  rw [whole, length_append_of_dvd h, List.take_length_add_append, whole]

theorem rest_append_of_dvd {front : Bytes} (h : 16 ∣ front.length) (back : Bytes) :
    rest (front ++ back) = rest back := by
  rw [rest, length_append_of_dvd h, List.drop_length_add_append, rest]

theorem whole_of_dvd {bytes : Bytes} (h : 16 ∣ bytes.length) : whole bytes = bytes := by
  rw [whole, Nat.div_mul_cancel h, List.take_length]

theorem rest_of_dvd {bytes : Bytes} (h : 16 ∣ bytes.length) : rest bytes = [] := by
  rw [rest, Nat.div_mul_cancel h, List.drop_length]

theorem length_blocks_whole (bytes : Bytes) :
    (blocks (whole bytes)).length = bytes.length / 16 := by
  rw [length_blocks, length_whole]
  omega

theorem blocks_whole_append_blocks_rest (bytes : Bytes) :
    blocks (whole bytes) ++ blocks (rest bytes) = blocks bytes := by
  rw [← blocks_append_of_dvd (dvd_length_whole bytes), whole_append_rest]

end Bytes

end KnownAnswer
