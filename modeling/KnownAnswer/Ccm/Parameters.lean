import KnownAnswer.Block

/-!
# Parameters of CCM

Key, nonce and tag length as types that only hold admissible values, the reasons for which
candidate values are turned down, and the two gates a message passes before a cipher is touched:
`Parameters.check` for key, nonce and tag length, `Lengths.check` for header and payload.
-/

namespace KnownAnswer.Ccm

/-! ## Sizes -/

def keySize : Nat := 16

def nonceSize : Nat := 13

/-- Bytes of the first block and of the counter blocks that hold a number: what one flags byte and
the nonce leave of a block. -/
def lengthFieldSize : Nat := 15 - nonceSize

/-- The longest payload whose length fits the length field. -/
def maxPayload : Nat := 1 <<< (8 * lengthFieldSize) - 1

def maxHeader : Nat := 0xFFFF

def minTag : Nat := 4

def maxTag : Nat := 16

/-! ## Reasons for a rejection -/

/-- An input that has to be there. -/
inductive Input
  | key
  | nonce
  | macLength
  deriving DecidableEq

def Input.name : Input → String
  | .key => "key"
  | .nonce => "nonce"
  | .macLength => "mlen"

/-- A part of a message, each with a capacity of its own. -/
inductive Part
  | header
  | payload
  deriving DecidableEq

def Part.name : Part → String
  | .header => "header"
  | .payload => "payload"

/-- Why inputs are turned down before any block is encrypted. -/
inductive Rejection
  | missing (input : Input)
  | keyLength (expected actual : Nat)
  | nonceLength (expected actual : Nat)
  | macLength (actual : Nat)
  | tooLong (part : Part) (length capacity : Nat)
  deriving DecidableEq

def Rejection.message : Rejection → String
  | .missing input => "missing input: " ++ input.name
  | .keyLength expected actual =>
      "invalid key length: expected " ++ toString expected ++ ", got " ++ toString actual
  | .nonceLength expected actual =>
      "invalid nonce length: expected " ++ toString expected ++ ", got " ++ toString actual
  | .macLength actual =>
      "invalid MAC length " ++ toString actual ++ ": allowed sizes are 4, 6, 8, 10, 12, 14, 16"
  | .tooLong part length capacity =>
      part.name ++ " too large: " ++ toString length ++ " bytes exceeds capacity of "
        ++ toString capacity

/-! ## Key, nonce, tag length -/

structure Key where
  bytes : Vector UInt8 16
  deriving DecidableEq

def Key.ofBytes (bytes : Bytes) : Except Rejection Key :=
  if h : bytes.length = 16 then
    .ok ⟨⟨bytes.toArray, by simpa using h⟩⟩
  else
    .error (.keyLength keySize bytes.length)

def Key.toBytes (key : Key) : Bytes := key.bytes.toList

/-- What may be shown of a key: nothing. -/
def Key.display (_ : Key) : String := "Key([REDACTED])"

structure Nonce where
  bytes : Vector UInt8 13
  deriving DecidableEq

def Nonce.ofBytes (bytes : Bytes) : Except Rejection Nonce :=
  if h : bytes.length = 13 then
    .ok ⟨⟨bytes.toArray, by simpa using h⟩⟩
  else
    .error (.nonceLength nonceSize bytes.length)

def Nonce.toBytes (nonce : Nonce) : Bytes := nonce.bytes.toList

def Nonce.display (nonce : Nonce) : String :=
  "Nonce([" ++ ", ".intercalate (nonce.toBytes.map fun b => toString b.toNat) ++ "])"

/-- The number of bytes of a tag: even, from 4 to 16. -/
structure MacLength where
  size : Nat
  min_le : minTag ≤ size
  le_max : size ≤ maxTag
  even : size % 2 = 0
  deriving DecidableEq

def MacLength.ofNat (size : Nat) : Except Rejection MacLength :=
  if h : (minTag ≤ size ∧ size ≤ maxTag) ∧ size % 2 = 0 then
    .ok ⟨size, h.1.1, h.1.2, h.2⟩
  else
    .error (.macLength size)

/-- The three-bit form of the tag length in the flags of the first block. -/
def MacLength.flagsField (length : MacLength) : Nat := (length.size - 2) / 2

def MacLength.display (length : MacLength) : String :=
  "MacLength(" ++ toString length.size ++ ")"

structure Parameters where
  key : Key
  nonce : Nonce
  macLength : MacLength
  deriving DecidableEq

/-- A required input, or the complaint that it is missing. -/
def require {α : Type} (input : Input) : Option α → Except Rejection α
  | some value => .ok value
  | none => .error (.missing input)

/-- Takes candidate inputs to parameters.  The first violated condition is the one reported: the
key is looked at first as a whole, then the presence of nonce and tag length, then their sizes. -/
def Parameters.check (key nonce : Option Bytes) (macLength : Option Nat) :
    Except Rejection Parameters := do
  let key ← require .key key
  let key ← Key.ofBytes key
  let nonce ← require .nonce nonce
  let size ← require .macLength macLength
  let nonce ← Nonce.ofBytes nonce
  let macLength ← MacLength.ofNat size
  return { key, nonce, macLength }

def Parameters.display (p : Parameters) : String :=
  "CcmParams \x7b key: " ++ p.key.display ++ ", nonce: " ++ p.nonce.display
    ++ ", mac_len: " ++ p.macLength.display ++ " \x7d"

/-! ## Lengths of header and payload -/

/-- Lengths of a header and a payload that are within capacity. -/
structure Lengths where
  header : Nat
  payload : Nat
  header_le : header ≤ maxHeader
  payload_le : payload ≤ maxPayload
  deriving DecidableEq

/-- Admits lengths within capacity; of two that are not, the header's is reported. -/
def Lengths.check (header payload : Nat) : Except Rejection Lengths :=
  if hh : header ≤ maxHeader then
    if hp : payload ≤ maxPayload then
      .ok ⟨header, payload, hh, hp⟩
    else
      .error (.tooLong .payload payload maxPayload)
  else
    .error (.tooLong .header header maxHeader)

end KnownAnswer.Ccm
