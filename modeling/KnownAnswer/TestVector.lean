import KnownAnswer.Ccm.Parameters

/-!
# Test vectors

The inputs of one sealing and the bytes it should yield.  Key, nonce and tag length may be absent,
so that a vector can also ask for a rejection.
-/

namespace KnownAnswer

structure TestVector where
  id : String
  key : Option Bytes := none
  nonce : Option Bytes := none
  header : Bytes := []
  plaintext : Bytes := []
  macLength : Option Nat := none
  expected : Bytes := []
  deriving DecidableEq

/-- The fields that hold bytes, in the order in which they are read. -/
inductive ByteField
  | key
  | nonce
  | header
  | plaintext
  | expected
  deriving DecidableEq

def ByteField.name : ByteField → String
  | .key => "key"
  | .nonce => "nonce"
  | .header => "header"
  | .plaintext => "plaintext"
  | .expected => "expected"

namespace TestVector

/-- The bytes of a field; an absent key or nonce counts as empty. -/
def bytesOf (vector : TestVector) : ByteField → Bytes
  | .key => vector.key.getD []
  | .nonce => vector.nonce.getD []
  | .header => vector.header
  | .plaintext => vector.plaintext
  | .expected => vector.expected

/-- The parameters of a vector all of whose conditions hold: those on key, nonce and tag length
come first, those on the lengths of header and plaintext last. -/
def validate (vector : TestVector) : Except Ccm.Rejection Ccm.Parameters := do
  let parameters ← Ccm.Parameters.check vector.key vector.nonce vector.macLength
  let _ ← Ccm.Lengths.check vector.header.length vector.plaintext.length
  return parameters

end TestVector

/-- The id of the first vector whose id already occurs before it. -/
def firstRepeatedId (seen : List String) : List TestVector → Option String
  | [] => none
  | vector :: rest =>
    if vector.id ∈ seen then some vector.id else firstRepeatedId (vector.id :: seen) rest

end KnownAnswer
