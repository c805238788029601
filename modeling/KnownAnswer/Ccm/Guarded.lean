import KnownAnswer.Ccm.Seal

/-!
# Sealing with every guard in sight

On a machine numbers are kept in words of limited width, differences may not fall below zero, and
bytes are cut out of and copied into buffers of a fixed size.  Here each such step says what it
demands and halts where that is not met, so that what has to hold for a sealing to go through is part
of the program.  Otherwise it goes step by step as `Ccm.sealMessage` does.

Indices are kept in words of 32 bits: what fits these fits wider ones as well.
-/

namespace KnownAnswer.Ccm.Guarded

/-- Why a guarded computation stops by itself: a demand is not met, or an input is turned down. -/
inductive Halt
  | outOfRange
  | rejected (reason : Rejection)
  deriving DecidableEq

/-! ## Guards -/

/-- Goes on only where a condition holds. -/
def demand (condition : Prop) [Decidable condition] : Dialogue Halt Unit :=
  if condition then return () else .refuse .outOfRange

/-- A number in a word that has `size` values. -/
def fit (size n : Nat) : Dialogue Halt Nat := do
  demand (n < size)
  return n

def subtract (n m : Nat) : Dialogue Halt Nat := do
  demand (m ≤ n)
  return n - m

/-- The bytes from `start` up to `stop`. -/
def slice (bytes : Bytes) (start stop : Nat) : Dialogue Halt Bytes := do
  demand (start ≤ stop ∧ stop ≤ bytes.length)
  return (bytes.take stop).drop start

/-- Copies bytes over the cells from `start` up to `stop`, which have to be as many. -/
def copy (cells : Bytes) (start stop : Nat) (bytes : Bytes) : Dialogue Halt Bytes := do
  demand (start ≤ stop ∧ stop ≤ cells.length ∧ bytes.length = stop - start)
  return cells.take start ++ bytes ++ cells.drop stop

/-! ## Block formats -/

/-- One less than the size of the length field, as a byte. -/
def lengthFlags : Dialogue Halt UInt8 := do
  let n ← subtract lengthFieldSize 1
  let n ← fit UInt8.size n
  return UInt8.ofNat n

/-- The flags of the first block.  The field of the tag's length loses no bit where it is shifted. -/
def flags (hasHeader : Bool) (macLength : MacLength) : Dialogue Halt UInt8 := do
  let size ← fit UInt8.size macLength.size
  let double ← subtract size 2
  let field ← fit (UInt8.size / 8) (double / 2)
  let low ← lengthFlags
  return (if hasHeader then 0x40 else 0) ||| (UInt8.ofNat field <<< (3 : UInt8)) ||| low

/-- A block of flags, nonce and a number of two bytes. -/
def formatted (flags : UInt8) (nonce : Nonce) (number : Nat) : Dialogue Halt Block := do
  let number ← fit UInt16.size number
  let cells ← copy (List.replicate 16 0) 0 1 [flags]
  let cells ← copy cells 1 (nonceSize + 1) nonce.toBytes
  let cells ← copy cells (nonceSize + 1) 16 (Bytes.bigEndian 2 number)
  return Block.ofBytes cells

def firstBlock (nonce : Nonce) (macLength : MacLength) (hasHeader : Bool) (payload : Nat) :
    Dialogue Halt Block := do
  let flags ← flags hasHeader macLength
  formatted flags nonce payload

def counterBlock (nonce : Nonce) (counter : Nat) : Dialogue Halt Block := do
  let flags ← lengthFlags
  formatted flags nonce counter

/-- The length of a header, written into six cells of which two or six are used. -/
def headerLength (length : Nat) : Dialogue Halt Bytes := do
  let length ← fit UInt16.size length
  let cells := List.replicate 6 0
  if length < 0xFF00 then do
    let cells ← copy cells 0 2 (Bytes.bigEndian 2 length)
    slice cells 0 2
  else do
    let cells ← copy cells 0 2 [0xFF, 0xFE]
    let cells ← copy cells 2 6 (Bytes.bigEndian 4 length)
    slice cells 0 6

/-! ## CBC-MAC -/

/-- One turn of feeding.  What the waiting block has room for is copied behind the bytes that wait;
the bytes that are left are returned. -/
def turn (mac : CbcMac) (bytes : Bytes) : Dialogue Halt (CbcMac × Bytes) := do
  let room ← subtract 16 mac.filled
  let size := min room bytes.length
  let stop ← fit UInt32.size (mac.filled + size)
  let piece ← slice bytes 0 size
  let cells ← copy mac.pending.toBytes mac.filled stop piece
  let left ← slice bytes size bytes.length
  let pending := Block.ofBytes cells
  if h : stop < 16 then
    return ({ mac with pending, filled := ⟨stop, h⟩ }, left)
  else do
    let mac ← CbcMac.absorb { mac with pending }
    return (mac, left)

/-- Feeds bytes in a limited number of turns, in which they have to be used up. -/
def feed : (turns : Nat) → CbcMac → Bytes → Dialogue Halt CbcMac
  | 0, mac, bytes => do
    demand (bytes = [])
    return mac
  | turns + 1, mac, bytes =>
    if bytes = [] then
      return mac
    else do
      let next ← turn mac bytes
      feed turns next.1 next.2

/-- Each turn uses up a byte at least. -/
def update (mac : CbcMac) (bytes : Bytes) : Dialogue Halt CbcMac :=
  feed bytes.length mac bytes

def authenticateHeader (mac : CbcMac) (header : Bytes) : Dialogue Halt CbcMac :=
  if header.isEmpty then
    return mac
  else do
    let length ← headerLength header.length
    let mac ← update mac length
    let mac ← update mac header
    mac.pad

def authenticate (parameters : Parameters) (header payload : Bytes) : Dialogue Halt Block := do
  let first ← firstBlock parameters.nonce parameters.macLength (!header.isEmpty) payload.length
  let mac ← update CbcMac.start first.toBytes
  let mac ← authenticateHeader mac header
  let mac ← update mac payload
  mac.finish

/-! ## Counter mode -/

/-- Encrypts pieces of a payload, counted from `index` on.  The counter is one more than the index
and is turned down if two bytes cannot hold it. -/
def encryptPieces (nonce : Nonce) (whole index : Nat) (done : List Bytes) :
    List Bytes → Dialogue Halt Bytes
  | [] => return done.reverse.flatten
  | piece :: pieces => do
    let counter ← fit UInt32.size (index + 1)
    if counter < UInt16.size then do
      let block ← counterBlock nonce counter
      let keystream ← Dialogue.ask block
      encryptPieces nonce whole counter (mask piece keystream :: done) pieces
    else
      .refuse (.rejected (.tooLong .payload whole maxPayload))

def encryptPayload (nonce : Nonce) (payload : Bytes) : Dialogue Halt Bytes :=
  encryptPieces nonce payload.length 0 [] (chunks 16 payload)

def maskTag (nonce : Nonce) (mac : Block) (macLength : MacLength) : Dialogue Halt Bytes := do
  let block ← counterBlock nonce 0
  let keystream ← Dialogue.ask block
  return (Block.xor mac keystream).toBytes.take macLength.size

/-! ## Sealed messages -/

def sealMessage (parameters : Parameters) (header payload : Bytes) : Dialogue Halt Sealed := do
  let _ ← Dialogue.ofExcept ((Lengths.check header.length payload.length).mapError .rejected)
  let mac ← authenticate parameters header payload
  let ciphertext ← encryptPayload parameters.nonce payload
  let tag ← maskTag parameters.nonce mac parameters.macLength
  return { ciphertext, tag }

end KnownAnswer.Ccm.Guarded
