import KnownAnswer.Ccm.Parameters

/-!
# Block formats of CCM

The first authenticated block, the counter blocks, and the encoding of the header's length.
-/

namespace KnownAnswer.Ccm

/-- A number below 65536 as two bytes, the higher first. -/
def bytes16 (n : Nat) : Vector UInt8 2 := #v[UInt8.ofNat (n / 256), UInt8.ofNat n]

/-- The flags byte of the first block: whether a header follows, how long the tag is, and that
the length field has two bytes. -/
def flags (hasHeader : Bool) (macLength : MacLength) : UInt8 :=
  (if hasHeader then 0x40 else 0) ||| (UInt8.ofNat macLength.flagsField <<< (3 : UInt8))
    ||| UInt8.ofNat (lengthFieldSize - 1)

def firstBlock (nonce : Nonce) (macLength : MacLength) (hasHeader : Bool) (payload : Nat) :
    Block :=
  #v[flags hasHeader macLength] ++ nonce.bytes ++ bytes16 payload

/-- Its flags byte holds nothing but the size of the length field, so that no counter block is a
first block. -/
def counterBlock (nonce : Nonce) (counter : Nat) : Block :=
  #v[UInt8.ofNat (lengthFieldSize - 1)] ++ nonce.bytes ++ bytes16 counter

/-- What is put before a header of the given length: two bytes for a short one, and six bytes that
begin with a mark no short length has. -/
def headerLength (length : Nat) : Bytes :=
  if length < 0xFF00 then
    Bytes.bigEndian 2 length
  else
    [0xFF, 0xFE] ++ Bytes.bigEndian 4 length

end KnownAnswer.Ccm
