import KnownAnswer.Files
import KnownAnswer.Fixture.Schema
import KnownAnswer.Text.Quoted
import KnownAnswer.Toml.Document

/-!
# Loading fixtures

From the text of a fixture to its test vectors.  The text is looked at as a whole first, then the
version, then the bytes of every vector in the order of the file, and last the ids.
-/

namespace KnownAnswer.Fixture

/-! ## Errors -/

inductive LoadError
  | unreadable (path : String) (failure : ReadFailure)
  | malformed
  | unsupportedVersion (found : Nat)
  | invalidHex (vector : String) (field : ByteField) (fault : Hex.Fault)
  | emptyPattern (vector : String) (field : ByteField)
  | duplicateId (id : String)
  deriving DecidableEq

def supportedVersion : Nat := 1

def faultMessage : Hex.Fault → String
  | .oddLength => "Odd number of digits"
  | .invalidDigit byte position =>
      "Invalid character " ++ Text.quoted byte ++ " at position " ++ toString position

def LoadError.message : LoadError → String
  | .unreadable path failure => "failed to read " ++ path ++ ": " ++ failure.message
  | .malformed => "malformed fixture"
  | .unsupportedVersion found =>
      "unsupported fixture version " ++ toString found ++ ", expected "
        ++ toString supportedVersion
  | .invalidHex vector field fault =>
      "vector " ++ vector ++ ": field " ++ field.name ++ " is not valid hex: "
        ++ faultMessage fault
  | .emptyPattern vector field =>
      "vector " ++ vector ++ ": field " ++ field.name ++ " repeats an empty pattern"
  | .duplicateId id => "duplicate vector id: " ++ id

/-! ## Decoding -/

/-- The bytes of a source.  A pattern has to be hexadecimal even if nothing of it is used. -/
def ByteSource.decode (vector : String) (field : ByteField) :
    ByteSource → Except LoadError Bytes
  | .digits text => (Hex.decode text).mapError (.invalidHex vector field)
  | .cycled pattern length => do
    let bytes ← (Hex.decode pattern).mapError (.invalidHex vector field)
    if bytes.isEmpty ∧ 0 < length then
      .error (.emptyPattern vector field)
    else
      return bytes.cycle length

def decodeOptional (vector : String) (field : ByteField) :
    Option ByteSource → Except LoadError (Option Bytes)
  | none => return none
  | some source => do
    let bytes ← source.decode vector field
    return some bytes

/-- Decodes the fields of a vector, one after the other. -/
def Draft.decode (draft : Draft) : Except LoadError TestVector := do
  let key ← decodeOptional draft.id .key draft.key
  let nonce ← decodeOptional draft.id .nonce draft.nonce
  let header ← decodeOptional draft.id .header draft.header
  let plaintext ← decodeOptional draft.id .plaintext draft.plaintext
  let expected ← draft.expected.decode draft.id .expected
  return {
    id := draft.id
    key, nonce, expected
    header := header.getD []
    plaintext := plaintext.getD []
    macLength := draft.macLength }

/-! ## Files -/

/-- Refuses vectors of which two have one id, by the first id that repeats an earlier one. -/
def requireDistinctIds (vectors : List TestVector) : Except LoadError Unit :=
  match firstRepeatedId [] vectors with
  | none => .ok ()
  | some id => .error (.duplicateId id)

/-- The vectors of a fixture that has the right shape. -/
def Draft.File.decode (file : Draft.File) : Except LoadError (List TestVector) :=
  if file.version = supportedVersion then do
    let vectors ← file.drafts.mapM Draft.decode
    requireDistinctIds vectors
    return vectors
  else
    .error (.unsupportedVersion file.version)

/-- The vectors of a document. -/
def ofDocument (document : List (String × Toml.Value)) : Except LoadError (List TestVector) :=
  match Draft.File.ofDocument? document with
  | some file => file.decode
  | none => .error .malformed

/-- The vectors of a fixture given by its text. -/
def parse (text : String) : Except LoadError (List TestVector) :=
  match Toml.document? text with
  | some document => ofDocument document
  | none => .error .malformed

/-- The vectors of the fixture at a path. -/
def load (read : FileReader) (path : String) : Except LoadError (List TestVector) := do
  let text ← (read path).mapError (.unreadable path)
  parse text

end KnownAnswer.Fixture
