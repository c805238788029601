import KnownAnswer.Ccm.Parameters

/-!
# CCM in one piece

What a sealed message is, said of whole byte strings and of a block function that never fails: the
string that is authenticated, the value that chaining its blocks yields, and the keystream byte by
byte.  Nothing is streamed here and nothing stops early, so this is what sealing by pieces is
measured against, in its results as well as in the blocks it hands to a cipher.
-/

namespace KnownAnswer.Ccm.Definition

/-! ## The authenticated string -/

/-- A string with zeros after it, up to the next whole number of blocks. -/
def padded (bytes : Bytes) : Bytes := bytes ++ List.replicate ((16 - bytes.length % 16) % 16) 0

/-- The number in the first byte: a bit for the presence of a header, three bits for the length of
the tag, and one less than the size of the length field. -/
def flagsNumber (tag header : Nat) : Nat :=
  (if header = 0 then 0 else 64) + 8 * ((tag - 2) / 2) + 1

/-- A header behind its length.  An empty header is not written at all, not even its length. -/
def encodedHeader (header : Bytes) : Bytes :=
  if header = [] then []
  else if header.length < 65280 then Bytes.bigEndian 2 header.length ++ header
  else [0xFF, 0xFE] ++ Bytes.bigEndian 4 header.length ++ header

/-- All that is authenticated: a first block, the header and the payload, each of whole blocks. -/
def authenticated (nonce : Nonce) (macLength : MacLength) (header payload : Bytes) : Bytes :=
  [UInt8.ofNat (flagsNumber macLength.size header.length)] ++ nonce.toBytes
    ++ Bytes.bigEndian 2 payload.length ++ padded (encodedHeader header) ++ padded payload

/-! ## Chaining -/

/-- The value of a chain of blocks: each is added to the value so far and encrypted. -/
def chained (encrypt : Block → Block) (start : Block) (blocks : List Block) : Block :=
  blocks.foldl (fun value block => encrypt (value.xor block)) start

/-- The blocks that are encrypted for a chain. -/
def chainInputs (encrypt : Block → Block) (start : Block) : List Block → List Block
  | [] => []
  | block :: rest =>
    start.xor block :: chainInputs encrypt (encrypt (start.xor block)) rest

theorem length_chainInputs (encrypt : Block → Block) (start : Block) (blocks : List Block) :
    (chainInputs encrypt start blocks).length = blocks.length := by
  induction blocks generalizing start with
  | nil => rfl
  | cons block rest ih => simp [chainInputs, ih]

/-! ## Counter mode -/

/-- The block that is encrypted for a counter. -/
def counterInput (nonce : Nonce) (counter : Nat) : Block :=
  Block.ofBytes ([1] ++ nonce.toBytes ++ Bytes.bigEndian 2 counter)

/-- The byte that is added to the byte of a payload at `offset`. -/
def keystreamByte (encrypt : Block → Block) (nonce : Nonce) (offset : Nat) : UInt8 :=
  (encrypt (counterInput nonce (offset / 16 + 1))).toBytes.getD (offset % 16) 0

/-! ## Sealed messages -/

def ciphertext (encrypt : Block → Block) (nonce : Nonce) (payload : Bytes) : Bytes :=
  payload.mapIdx fun offset byte => byte ^^^ keystreamByte encrypt nonce offset

@[simp] theorem length_ciphertext (encrypt : Block → Block) (nonce : Nonce) (payload : Bytes) :
    (ciphertext encrypt nonce payload).length = payload.length := by
  simp [ciphertext]

/-- The value of a message before it is masked and cut. -/
def mac (encrypt : Block → Block) (nonce : Nonce) (macLength : MacLength)
    (header payload : Bytes) : Block :=
  chained encrypt Block.zero (authenticated nonce macLength header payload).blocks

def tag (encrypt : Block → Block) (nonce : Nonce) (macLength : MacLength)
    (header payload : Bytes) : Bytes :=
  ((mac encrypt nonce macLength header payload).xor
    (encrypt (counterInput nonce 0))).toBytes.take macLength.size

@[simp] theorem length_tag (encrypt : Block → Block) (nonce : Nonce) (macLength : MacLength)
    (header payload : Bytes) :
    (tag encrypt nonce macLength header payload).length = macLength.size := by
  rw [tag, List.length_take, Block.length_toBytes]
  exact Nat.min_eq_left macLength.le_max

/-! ## Blocks handed to the cipher -/

/-- How many blocks a string fills, the last one perhaps not to its end. -/
def blockCount (length : Nat) : Nat := (length + 15) / 16

/-- How many blocks a header of the given length takes, its length included. -/
def headerBlocks (header : Nat) : Nat :=
  if header = 0 then 0
  else if header < 65280 then blockCount (2 + header)
  else blockCount (6 + header)

/-- How many blocks are handed over for a message: one that comes first, those of the header, each
of the payload twice, and counter zero. -/
def callCount (header payload : Nat) : Nat :=
  2 + headerBlocks header + 2 * blockCount payload

/-- The counter blocks of a message: from one on for its payload, and zero, last, for its tag. -/
def counterInputs (nonce : Nonce) (payload : Nat) : List Block :=
  (List.range (blockCount payload)).map (fun i => counterInput nonce (i + 1))
    ++ [counterInput nonce 0]

/-- All blocks that are encrypted for a message, in order. -/
def cipherInputs (encrypt : Block → Block) (nonce : Nonce) (macLength : MacLength)
    (header payload : Bytes) : List Block :=
  chainInputs encrypt Block.zero (authenticated nonce macLength header payload).blocks
    ++ counterInputs nonce payload.length

end KnownAnswer.Ccm.Definition
