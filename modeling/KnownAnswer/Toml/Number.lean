import KnownAnswer.Toml.Text
import KnownAnswer.Toml.Value

/-!
# Numbers

Integers in four bases and floating-point numbers.  Digits may be set apart by single underscores.
-/

namespace KnownAnswer.Toml

open Reader

/-! ## Digits -/

/-- Digits that follow a first one, with the underscores between them left out. -/
def digitsAfter (isDigit : Char → Bool) (done : List Char) : List Char → List Char × List Char
  | '_' :: c :: rest =>
    if isDigit c then digitsAfter isDigit (c :: done) rest else (done.reverse, '_' :: c :: rest)
  | c :: rest =>
    if isDigit c then digitsAfter isDigit (c :: done) rest else (done.reverse, c :: rest)
  | [] => (done.reverse, [])

/-- At least one digit. -/
def digits (isDigit : Char → Bool) : Reader (List Char) := do
  let first ← satisfy isDigit
  fun text => some (digitsAfter isDigit [first] text)

/-- Decimal digits without a leading zero, except zero itself. -/
def wholePart : Reader (List Char) := do
  if ← optional '0' then return ['0'] else digits Char.isDigit

def valueOf (base : Nat) (digits : List Char) : Nat :=
  digits.foldl (fun n c => base * n + (hexValue? c).getD 0) 0

/-! ## Integers -/

/-- An integer of 64 bits with a sign. -/
def integer? (n : Int) : Option Value :=
  if Int64.minValue.toInt ≤ n ∧ n ≤ Int64.maxValue.toInt then some (.integer n) else none

/-- An integer in another base, its mark already taken. -/
def basedInteger (base : Nat) (isDigit : Char → Bool) : Reader Value := do
  let digits ← digits isDigit
  (integer? (valueOf base digits) : Option Value)

def isOctal (c : Char) : Bool := '0' ≤ c && c ≤ '7'

def isBinary (c : Char) : Bool := c == '0' || c == '1'

def isHex (c : Char) : Bool := (hexValue? c).isSome

/-! ## Floating-point numbers -/

/-- Half a unit above the largest finite number of 64 bits. -/
def infinityFrom : Nat := (1 <<< 54 - 1) <<< 970

/-- Whether a decimal number `m · 10 ^ (exponent - scale)` rounds to infinity in 64 bits. -/
def overflows (m : Nat) (scale : Nat) (exponent : Int) : Bool :=
  let power := exponent - scale
  let size := (Nat.toDigits 10 m).length + power
  if m = 0 ∨ size < 300 then false
  else if 320 < size then true
  else if 0 ≤ power then decide (infinityFrom ≤ m * Nat.pow 10 power.toNat)
  else decide (infinityFrom * Nat.pow 10 (-power).toNat ≤ m)

/-- The exponent of a number, its mark already taken. -/
def exponent : Reader Int := do
  let negative ← optional '-'
  if !negative then
    let _ ← optional '+'
  let digits ← digits Char.isDigit
  let size : Int := valueOf 10 digits
  return if negative then -size else size

/-- What follows the whole part of a decimal number.  Only a positive number can be too large. -/
def afterWhole (negative : Bool) (whole : List Char) : Reader Value := do
  let float (fraction : List Char) (exponent : Int) : Reader Value := do
    let m := valueOf 10 (whole ++ fraction)
    if !negative && overflows m fraction.length exponent then failure
    else return .float (String.ofList (whole ++ '.' :: fraction) ++ "e" ++ toString exponent)
  let isMark (c : Char) : Bool := c == 'e' || c == 'E'
  match ← peek with
  | some '.' =>
    char '.'
    let fraction ← digits Char.isDigit
    match ← peek with
    | some c =>
      if isMark c then
        char c
        float fraction (← exponent)
      else
        float fraction 0
    | none => float fraction 0
  | some c =>
    if isMark c then
      char c
      float [] (← exponent)
    else
      let n : Int := valueOf 10 whole
      (integer? (if negative then -n else n) : Option Value)
  | none =>
    let n : Int := valueOf 10 whole
    (integer? (if negative then -n else n) : Option Value)

/-- A number with or without a sign. -/
def number : Reader Value := do
  if ← beginsWith ['0', 'x'] then
    literal ['0', 'x']
    basedInteger 16 isHex
  else if ← beginsWith ['0', 'o'] then
    literal ['0', 'o']
    basedInteger 8 isOctal
  else if ← beginsWith ['0', 'b'] then
    literal ['0', 'b']
    basedInteger 2 isBinary
  else
    let negative ← optional '-'
    if !negative then
      let _ ← optional '+'
    match ← peek with
    | some 'i' =>
      literal ['i', 'n', 'f']
      return .float (if negative then "-inf" else "inf")
    | some 'n' =>
      literal ['n', 'a', 'n']
      return .float "nan"
    | _ => afterWhole negative (← wholePart)

end KnownAnswer.Toml
