import KnownAnswer.Ccm.Parameters
import KnownAnswer.Cipher.Dialogue

/-!
# AES-128

The block cipher that the built-in vectors are for.  A state is a block read column by column:
cell `4 * c + r` stands in column `c` and row `r`.  Bytes stand for polynomials over the field of
two elements modulo `x⁸ + x⁴ + x³ + x + 1`.
-/

namespace KnownAnswer.Aes128

open Ccm (Key)

/-! ## Arithmetic of bytes -/

/-- Multiplication by `x`. -/
def double (a : UInt8) : UInt8 := (a <<< 1) ^^^ (if a < 0x80 then 0 else 0x1b)

/-- Multiplication, by the bits of the second factor from the highest on. -/
def mul (a b : UInt8) : UInt8 :=
  [7, 6, 5, 4, 3, 2, 1, 0].foldl
    (fun product bit => double product ^^^ (if (b >>> bit) &&& 1 = 0 then 0 else a)) 0

/-- The multiplicative inverse, and zero for zero: the product of the powers 2, 4, …, 128. -/
def inverse (a : UInt8) : UInt8 :=
  ((List.range 7).foldl
    (fun (power, product) _ => (mul power power, mul product (mul power power))) (a, 1)).2

def rotate (a : UInt8) (bits : UInt8) : UInt8 := (a <<< bits) ||| (a >>> (8 - bits))

/-- The substitution of one byte: its inverse under an affine map over the bits. -/
def substitute (a : UInt8) : UInt8 :=
  let b := inverse a
  b ^^^ rotate b 1 ^^^ rotate b 2 ^^^ rotate b 3 ^^^ rotate b 4 ^^^ 0x63

/-- The substitution as a table. -/
def substitution : Vector UInt8 256 := Vector.ofFn fun i => substitute (UInt8.ofNat i)

def lookUp (a : UInt8) : UInt8 :=
  have := a.toNat_lt
  substitution[a.toNat]

/-! ## Key schedule -/

/-- The round key after `key`: the last column, rotated and substituted, runs down the columns. -/
def nextRoundKey (constant : UInt8) (key : Block) : Block :=
  Vector.ofFn fun i =>
    let row := i.val % 4
    let lead := lookUp (key[12 + (row + 1) % 4]) ^^^ (if row = 0 then constant else 0)
    (List.range (i.val / 4 + 1)).foldl (fun cell c => cell ^^^ key.getD (4 * c + row) 0) lead

/-- The round keys after the first: ten, one for each power of `x` from 0 to 9. -/
def roundKeys (key : Block) : List Block :=
  let constants : List UInt8 := [0x01, 0x02, 0x04, 0x08, 0x10, 0x20, 0x40, 0x80, 0x1b, 0x36]
  (constants.foldl
    (fun (last, keys) constant =>
      let next := nextRoundKey constant last
      (next, next :: keys))
    (key, [])).2.reverse

/-! ## Rounds -/

/-- Substitutes every cell and moves row `r` by `r` columns to the left. -/
def substituteShifted (state : Block) : Block :=
  Vector.ofFn fun i => lookUp (state[(i.val + 4 * (i.val % 4)) % 16])

/-- Multiplies every column by the fixed matrix with the rows 2 3 1 1, 1 2 3 1, and so on. -/
def mixColumns (state : Block) : Block :=
  Vector.ofFn fun i =>
    let column := 4 * (i.val / 4)
    let row := i.val % 4
    let a := state[column + row]
    let b := state[column + (row + 1) % 4]
    let c := state[column + (row + 2) % 4]
    let d := state[column + (row + 3) % 4]
    double a ^^^ double b ^^^ b ^^^ c ^^^ d

/-- The rounds under the given keys; only the last one does not mix columns. -/
def rounds (state : Block) : List Block → Block
  | [] => state
  | [key] => Block.xor (substituteShifted state) key
  | key :: keys => rounds (Block.xor (mixColumns (substituteShifted state)) key) keys

/-- Encrypts one block under a first round key and those after it. -/
def encrypt (first : Block) (keys : List Block) (block : Block) : Block :=
  rounds (Block.xor block first) keys

def cipher (key : Key) : BlockCipher :=
  let keys := roundKeys key.bytes
  .total (encrypt key.bytes keys)

/-- Encrypts a single block. -/
def encryptBlock (key : Key) (block : Block) : Block :=
  encrypt key.bytes (roundKeys key.bytes) block

/-- What may be shown of a keyed cipher: nothing. -/
def display : String := "Aes128Oracle \x7b .. \x7d"

end KnownAnswer.Aes128
