import KnownAnswer.Conformance.Outcome

/-!
# Checks of an output

The comparisons made between the expected and the computed bytes.  A check may be any comparison;
those of the lengths and of the contents are there from the start.  Checks are made in order and the
first that fails decides; the standard ones look at the length before the content.
-/

namespace KnownAnswer.Conformance

/-- A comparison of an output with the bytes expected of it, and the name it goes by. -/
structure Check where
  name : String
  /-- What the check has to say against an output. -/
  failure? : (expected actual : Bytes) → Option Failure

/-- The first offset at which two byte strings differ, counted from `offset`, with the two bytes.
Only the part that both have is looked at. -/
def firstDifference (offset : Nat) : Bytes → Bytes → Option (Nat × UInt8 × UInt8)
  | e :: expected, a :: actual =>
    if e = a then firstDifference (offset + 1) expected actual else some (offset, e, a)
  | _, _ => none

namespace Check

/-- Outputs are as long as expected. -/
def length : Check where
  name := "length-matches"
  failure? expected actual :=
    if expected.length = actual.length then none
    else some (.lengthMismatch expected.length actual.length)

/-- Outputs have the expected bytes, as far as both strings go. -/
def content : Check where
  name := "content-matches"
  failure? expected actual :=
    (firstDifference 0 expected actual).map fun (offset, e, a) => .contentMismatch offset e a

theorem failure?_length (expected actual : Bytes) :
    length.failure? expected actual =
      if expected.length = actual.length then none
      else some (.lengthMismatch expected.length actual.length) := rfl

theorem failure?_content (expected actual : Bytes) :
    content.failure? expected actual =
      (firstDifference 0 expected actual).map fun (offset, e, a) => .contentMismatch offset e a :=
  rfl

theorem length_ne_content : length ≠ content := by
  intro h
  exact absurd (congrArg name h) (by decide)

end Check

/-- Checks in the order in which they were registered. -/
abbrev Checks := List Check

namespace Checks

def standard : Checks := [.length, .content]

def add (checks : Checks) (check : Check) : Checks := checks ++ [check]

/-- The failure of the earliest check that fails. -/
def failure? (checks : Checks) (expected actual : Bytes) : Option Failure :=
  checks.findSome? fun check => check.failure? expected actual

end Checks

end KnownAnswer.Conformance
