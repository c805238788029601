/-!
# Byte strings

Byte strings are lists of bytes, so that proofs about them are proofs about lists.  This module
adds the operations that the standard library does not have: the bytes of a text, big-endian
numerals, cutting a string into pieces of one size, and repeating a pattern to a given length.
-/

namespace KnownAnswer

abbrev Bytes := List UInt8

namespace Bytes

/-- The bytes of a text in UTF-8. -/
def ofText (text : String) : Bytes := text.toUTF8.data.toList

theorem ofText_append (front back : String) :
    ofText (front ++ back) = ofText front ++ ofText back := by
  simp [ofText]

/-- The `width` lowest bytes of a number, the highest first. -/
def bigEndian : (width : Nat) → Nat → Bytes
  | 0, _ => []
  | width + 1, n => UInt8.ofNat (n >>> (8 * width)) :: bigEndian width n

@[simp] theorem length_bigEndian (width n : Nat) : (bigEndian width n).length = width := by
  induction width with
  | zero => rfl
  | succ width ih => simp [bigEndian, ih]

/-- A pattern, repeated and cut off so that `length` bytes result.  The empty pattern stays empty
whatever the length asked for. -/
def cycle (pattern : Bytes) (length : Nat) : Bytes :=
  let cells := pattern.toArray
  if h : 0 < cells.size then
    (List.range length).map fun i =>
      have := Nat.mod_lt i h
      cells[i % cells.size]
  else
    []

theorem length_cycle {pattern : Bytes} (h : pattern ≠ []) (length : Nat) :
    (pattern.cycle length).length = length := by
  have : 0 < pattern.length := List.length_pos_iff.mpr h
  simp [cycle, this]

end Bytes

/-- Cuts a list into pieces of `size` elements, in order; the last piece may be shorter and none
is empty.  A size of zero counts as one, so that no element is ever lost. -/
def chunks {α : Type} (size : Nat) : List α → List (List α)
  | [] => []
  | x :: xs => (x :: xs.take (size - 1)) :: chunks size (xs.drop (size - 1))
termination_by xs => xs.length

@[simp] theorem flatten_chunks {α : Type} (size : Nat) (xs : List α) :
    (chunks size xs).flatten = xs := by
  fun_induction chunks size xs with
  | case1 => rfl
  | case2 x xs ih => simp [ih]

end KnownAnswer
