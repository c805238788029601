import KnownAnswer.TestVector
import KnownAnswer.Toml.Value

/-!
# The shape of fixtures

What a fixture says before any byte string is decoded.  A document that has another shape is
malformed as a whole: a key that is not known, one that is missing, or a value of another kind.
-/

namespace KnownAnswer.Fixture

open Toml (Value)

/-- How a fixture gives bytes: by digits, or by the digits of a pattern and a length that the
pattern is repeated to. -/
inductive ByteSource
  | digits (text : String)
  | cycled (pattern : String) (length : Nat)
  deriving DecidableEq

/-- A test vector whose bytes are not decoded yet. -/
structure Draft where
  id : String
  key : Option ByteSource
  nonce : Option ByteSource
  header : Option ByteSource
  plaintext : Option ByteSource
  macLength : Option Nat
  expected : ByteSource
  deriving DecidableEq

structure Draft.File where
  version : Nat
  drafts : List Draft
  deriving DecidableEq

/-! ## Kinds of values -/

def string? : Value → Option String
  | .string text => some text
  | _ => none

def natural? : Value → Option Nat
  | .integer n => if 0 ≤ n then some n.toNat else none
  | _ => none

/-- Other keys beside the pattern and the length are passed over. -/
def byteSource? : Value → Option ByteSource
  | .string text => some (.digits text)
  | .table fields => do
    let pattern ← string? (← Toml.field? "repeat" fields)
    let length ← natural? (← Toml.field? "len" fields)
    return .cycled pattern length
  | _ => none

/-- A field that may be absent, but not of another kind. -/
def optional? {α : Type} (kind : Value → Option α) : Option Value → Option (Option α)
  | none => some none
  | some value => (kind value).map some

/-! ## Vectors -/

def vectorKeys : List String := ["id", "key", "nonce", "header", "plaintext", "mlen", "expected"]

/-- A vector by its fields. -/
def Draft.ofFields? (fields : List (String × Value)) : Option Draft :=
  if fields.all fun (key, _) => key ∈ vectorKeys then do
    let id ← string? (← Toml.field? "id" fields)
    let key ← optional? byteSource? (Toml.field? "key" fields)
    let nonce ← optional? byteSource? (Toml.field? "nonce" fields)
    let header ← optional? byteSource? (Toml.field? "header" fields)
    let plaintext ← optional? byteSource? (Toml.field? "plaintext" fields)
    let macLength ← optional? natural? (Toml.field? "mlen" fields)
    let expected ← byteSource? (← Toml.field? "expected" fields)
    return { id, key, nonce, header, plaintext, macLength, expected }
  else
    none

/-- A vector by its fields in order.  None may be left out, and what follows them is passed
over. -/
def Draft.ofItems? : List Value → Option Draft
  | id :: key :: nonce :: header :: plaintext :: macLength :: expected :: _ => do
    let id ← string? id
    let key ← byteSource? key
    let nonce ← byteSource? nonce
    let header ← byteSource? header
    let plaintext ← byteSource? plaintext
    let macLength ← natural? macLength
    let expected ← byteSource? expected
    return {
      id, expected
      key := some key
      nonce := some nonce
      header := some header
      plaintext := some plaintext
      macLength := some macLength }
  | _ => none

def Draft.ofValue? : Value → Option Draft
  | .table fields => ofFields? fields
  | .array items => ofItems? items
  | _ => none

/-! ## Files -/

/-- The version is a number of 32 bits. -/
def version? (value : Value) : Option Nat := do
  let version ← natural? value
  if version < UInt32.size then some version else none

def drafts? : Value → Option (List Draft)
  | .array items => items.mapM Draft.ofValue?
  | _ => none

/-- What a document says, if it has the shape of a fixture.  Vectors may be left out. -/
def Draft.File.ofDocument? (document : List (String × Value)) : Option Draft.File :=
  if document.all fun (key, _) => key ∈ ["version", "vector"] then do
    let version ← version? (← Toml.field? "version" document)
    let drafts ← optional? drafts? (Toml.field? "vector" document)
    return { version, drafts := drafts.getD [] }
  else
    none

end KnownAnswer.Fixture
