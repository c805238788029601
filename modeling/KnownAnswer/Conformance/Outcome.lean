import KnownAnswer.Ccm.Seal
import KnownAnswer.Hex

/-!
# Outcomes

What running a vector ends in, how it is told apart and how it is printed.  A validation failure
says of a vector that it was turned down before a cipher was built.
-/

namespace KnownAnswer

/-! ## Errors of sealing -/

namespace Ccm

/-- Why sealing a message fails: its inputs are turned down, or the cipher fails. -/
abbrev SealError := Stop Rejection

def SealError.message : SealError → String
  | .refused reason => reason.message
  | .fault fault => "block cipher oracle failure: " ++ fault.reason

def SealError.isValidation : SealError → Bool
  | .refused _ => true
  | .fault _ => false

end Ccm

namespace Conformance

open Ccm (Input Part Rejection SealError)

/-! ## Failures -/

/-- Why a vector does not pass. -/
inductive Failure
  | rejected (reason : Rejection)
  | cipherFault (fault : Fault)
  | lengthMismatch (expected actual : Nat)
  | contentMismatch (offset : Nat) (expected actual : UInt8)
  deriving DecidableEq

namespace Failure

def ofSealError : SealError → Failure
  | .refused reason => .rejected reason
  | .fault fault => .cipherFault fault

/-- The error of sealing that a failure comes from, if it does. -/
def sealError? : Failure → Option SealError
  | .rejected reason => some (.refused reason)
  | .cipherFault fault => some (.fault fault)
  | _ => none

/-- The word a failure is told apart by. -/
def tag : Failure → String
  | .rejected (.missing _) => "missing-input"
  | .rejected (.keyLength _ _) => "invalid-key-length"
  | .rejected (.nonceLength _ _) => "invalid-nonce-length"
  | .rejected (.macLength _) => "invalid-mac-length"
  | .rejected (.tooLong _ _ _) => "payload-too-large"
  | .cipherFault _ => "cipher-oracle-failure"
  | .lengthMismatch _ _ => "length-mismatch"
  | .contentMismatch _ _ _ => "content-mismatch"

/-- A byte as it is shown in a failure: always two digits. -/
def showByte (byte : UInt8) : String := "0x" ++ Hex.encode [byte]

def text : Failure → String
  | .rejected (.missing input) => input.name ++ " is missing"
  | .rejected (.keyLength expected actual) =>
      "key is " ++ toString actual ++ " bytes, expected " ++ toString expected
  | .rejected (.nonceLength expected actual) =>
      "nonce is " ++ toString actual ++ " bytes, expected " ++ toString expected
  | .rejected (.macLength actual) =>
      "mlen " ++ toString actual ++ " is not one of 4, 6, 8, 10, 12, 14, 16"
  | .rejected (.tooLong part length capacity) =>
      part.name ++ " is " ++ toString length ++ " bytes, capacity is " ++ toString capacity
  | .cipherFault fault => fault.reason
  | .lengthMismatch expected actual =>
      "expected " ++ toString expected ++ " bytes, computed " ++ toString actual
  | .contentMismatch offset expected actual =>
      "first difference at byte " ++ toString offset ++ ": expected " ++ showByte expected
        ++ ", computed " ++ showByte actual

def isValidation : Failure → Bool
  | .rejected _ => true
  | _ => false

end Failure

/-! ## Outcomes and reports -/

inductive Outcome
  | pass
  | fail (failure : Failure)
  deriving DecidableEq

namespace Outcome

def isPass : Outcome → Bool
  | .pass => true
  | .fail _ => false

def failure? : Outcome → Option Failure
  | .pass => none
  | .fail failure => some failure

def text : Outcome → String
  | .pass => "PASS"
  | .fail failure => "FAIL (" ++ failure.tag ++ ": " ++ failure.text ++ ")"

end Outcome

/-- What is told of one vector.  The output is there when it was to be kept and sealing
succeeded, whether or not the vector passed. -/
structure Report where
  id : String
  outcome : Outcome
  output : Option Bytes := none
  deriving DecidableEq

def Report.line (report : Report) : String := report.id ++ ": " ++ report.outcome.text

/-! ## Summaries -/

/-- The reports of a run, in the order of its vectors. -/
structure Summary where
  reports : List Report
  deriving DecidableEq

namespace Summary

def total (summary : Summary) : Nat := summary.reports.length

def passed (summary : Summary) : Nat := summary.reports.countP fun r => r.outcome.isPass

def failed (summary : Summary) : Nat := summary.total - summary.passed

def failingIds (summary : Summary) : List String :=
  (summary.reports.filter fun r => !r.outcome.isPass).map Report.id

def isSuccess (summary : Summary) : Bool := summary.failed == 0

def line (summary : Summary) : String :=
  if summary.isSuccess then
    "PASS (" ++ toString summary.passed ++ "/" ++ toString summary.total ++ " vectors)"
  else
    "FAIL (" ++ toString summary.failed ++ " of " ++ toString summary.total
      ++ " vectors failed: " ++ ", ".intercalate summary.failingIds ++ ")"

theorem passed_le_total (summary : Summary) : summary.passed ≤ summary.total :=
  List.countP_le_length

end Summary

end Conformance

end KnownAnswer
