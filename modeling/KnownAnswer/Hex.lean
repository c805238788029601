import KnownAnswer.Bytes
import KnownAnswer.Text.Blank

/-!
# Hexadecimal text

Two digits per byte.  Written digits are lower-case; either case is read, and blanks are dropped
before anything else is looked at.  Positions count the bytes of the text in UTF-8 without its
blanks, so a character outside ASCII counts as all its bytes and the first of them is reported.
-/

namespace KnownAnswer.Hex

/-- The digit for a number below 16. -/
def digit (n : Nat) : Char :=
  if n < 10 then Char.ofNat (0x30 + n) else Char.ofNat (0x61 + n - 10)

def encodeByte (byte : UInt8) : List Char := [digit (byte.toNat / 16), digit (byte.toNat % 16)]

def encode (bytes : Bytes) : String := String.ofList (bytes.flatMap encodeByte)

/-- Why text is not hexadecimal. -/
inductive Fault
  | oddLength
  | invalidDigit (byte : UInt8) (position : Nat)
  deriving DecidableEq

/-- The value of a digit given by its ASCII code. -/
def value? (byte : UInt8) : Option Nat :=
  if 0x30 ≤ byte ∧ byte ≤ 0x39 then some (byte.toNat - 0x30)
  else if 0x41 ≤ byte ∧ byte ≤ 0x46 then some (byte.toNat - 0x41 + 10)
  else if 0x61 ≤ byte ∧ byte ≤ 0x66 then some (byte.toNat - 0x61 + 10)
  else none

/-- The first byte that is no digit, with its position when the text begins at `position`. -/
def firstInvalid (position : Nat) : List UInt8 → Option (UInt8 × Nat)
  | [] => none
  | byte :: rest =>
    if (value? byte).isSome then firstInvalid (position + 1) rest else some (byte, position)

/-- Puts digits together by pairs, behind the bytes `done`, which stand in reverse. -/
def joinPairs (done : Bytes) : List UInt8 → Bytes
  | high :: low :: rest =>
    let byte := UInt8.ofNat (16 * (value? high).getD 0 + (value? low).getD 0)
    joinPairs (byte :: done) rest
  | _ => done.reverse

/-- Reads digits given by their ASCII codes.  An odd number of them is reported before any that is
wrong. -/
def decodeDigits (digits : List UInt8) : Except Fault Bytes :=
  if digits.length % 2 = 1 then
    .error .oddLength
  else
    match firstInvalid 0 digits with
    | some (byte, position) => .error (.invalidDigit byte position)
    | none => .ok (joinPairs [] digits)

/-- The UTF-8 bytes of a text without its blanks. -/
def compact (text : String) : List UInt8 :=
  (text.toList.filter fun c => !Text.isBlank c).flatMap String.utf8EncodeChar

def decode (text : String) : Except Fault Bytes := decodeDigits (compact text)

end KnownAnswer.Hex
