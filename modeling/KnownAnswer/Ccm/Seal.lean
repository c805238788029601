import KnownAnswer.Ccm.CbcMac
import KnownAnswer.Ccm.Format

/-!
# Sealing

CCM as a dialogue with a block cipher: the message is authenticated in one pass over a CBC-MAC,
then encrypted in counter mode, and last the tag is masked with counter zero.
-/

namespace KnownAnswer.Ccm

/-! ## Counter mode -/

/-- Adds a keystream block to at most sixteen bytes. -/
def mask (piece : Bytes) (keystream : Block) : Bytes :=
  piece.zipWith (· ^^^ ·) keystream.toBytes

/-- Encrypts pieces of a payload of `whole` bytes under the counters from `counter` on.  `done`
are the pieces encrypted so far, the last one first.  A counter that its field cannot hold is
refused before it would wrap. -/
def encryptPieces (nonce : Nonce) (whole counter : Nat) (done : List Bytes) :
    List Bytes → Dialogue Rejection Bytes
  | [] => return done.reverse.flatten
  | piece :: pieces =>
    if counter ≤ maxPayload then do
      let keystream ← Dialogue.ask (counterBlock nonce counter)
      encryptPieces nonce whole (counter + 1) (mask piece keystream :: done) pieces
    else
      .refuse (.tooLong .payload whole maxPayload)

/-- Encrypts a payload, sixteen bytes under each counter from 1 on. -/
def encryptPayload (nonce : Nonce) (payload : Bytes) : Dialogue Rejection Bytes :=
  encryptPieces nonce payload.length 1 [] (chunks 16 payload)

/-- Masks a CBC-MAC value with counter zero and cuts it to the length of the tag. -/
def maskTag (nonce : Nonce) (mac : Block) (macLength : MacLength) : Dialogue Rejection Bytes := do
  let keystream ← Dialogue.ask (counterBlock nonce 0)
  return (Block.xor mac keystream).toBytes.take macLength.size

/-! ## Authentication -/

/-- Feeds a header, with its length put before it and filled up to full blocks.  An absent header
adds nothing. -/
def authenticateHeader (mac : CbcMac) (header : Bytes) : Dialogue Rejection CbcMac :=
  if header.isEmpty then
    return mac
  else do
    let mac ← mac.update (headerLength header.length)
    let mac ← mac.update header
    mac.pad

/-- The CBC-MAC value of a message: of its first block, its header and its payload. -/
def authenticate (parameters : Parameters) (header payload : Bytes) :
    Dialogue Rejection Block := do
  let first := firstBlock parameters.nonce parameters.macLength (!header.isEmpty) payload.length
  let mac ← CbcMac.start.update first.toBytes
  let mac ← authenticateHeader mac header
  let mac ← mac.update payload
  mac.finish

/-! ## Sealed messages -/

structure Sealed where
  ciphertext : Bytes
  tag : Bytes
  deriving DecidableEq

def Sealed.toBytes (message : Sealed) : Bytes := message.ciphertext ++ message.tag

def Sealed.size (message : Sealed) : Nat := message.ciphertext.length + message.tag.length

def Sealed.isEmpty (message : Sealed) : Bool := message.size == 0

/-- Encrypts and authenticates a message.  Lengths beyond capacity are refused before any call. -/
def sealMessage (parameters : Parameters) (header payload : Bytes) : Dialogue Rejection Sealed := do
  let _ ← Dialogue.ofExcept (Lengths.check header.length payload.length)
  let mac ← authenticate parameters header payload
  let ciphertext ← encryptPayload parameters.nonce payload
  let tag ← maskTag parameters.nonce mac parameters.macLength
  return { ciphertext, tag }

end KnownAnswer.Ccm
