import KnownAnswer.Ccm.Seal
import KnownAnswer.Proofs.CbcMac
import Mathlib.Tactic.Ring

/-!
# The blocks of a message

What `authenticate` feeds to the CBC-MAC are the blocks of `Definition.authenticated`, whatever the
cipher (`authenticate_eq_chainBlocks`).  Read from the front, these blocks tell nonce, tag length,
presence of a header, and the lengths of payload and header, each before the bytes whose extent it
fixes.  So no two messages have the same blocks and the blocks of one never begin those of another
(`fedBlocks_prefix_iff`), although zero padding on its own is ambiguous.
-/

namespace KnownAnswer

/-! ## Numerals -/

namespace Bytes

/-- The number that bytes stand for, the highest byte first. -/
def number (bytes : Bytes) : Nat := bytes.foldl (fun n byte => 256 * n + byte.toNat) 0

theorem foldl_bigEndian (width n front : Nat) :
    (bigEndian width n).foldl (fun n byte => 256 * n + byte.toNat) front =
      front * 256 ^ width + n % 256 ^ width := by
  induction width generalizing front with
  | zero => simp [bigEndian, Nat.mod_one]
  | succ width ih =>
      have hdigits : n % 256 ^ (width + 1) =
          n % 256 ^ width + 256 ^ width * (n / 256 ^ width % 256) := by
        rw [Nat.pow_succ, Nat.mod_mul]
      have hshift : n >>> (8 * width) = n / 256 ^ width := by
        rw [Nat.shiftRight_eq_div_pow, Nat.pow_mul]
      rw [bigEndian, List.foldl_cons, ih, hshift, UInt8.toNat_ofNat', hdigits]
      ring

theorem number_bigEndian (width n : Nat) : number (bigEndian width n) = n % 256 ^ width := by
  rw [number, foldl_bigEndian, Nat.zero_mul, Nat.zero_add]

theorem bigEndian_injective {width n m : Nat} (hn : n < 256 ^ width) (hm : m < 256 ^ width)
    (h : bigEndian width n = bigEndian width m) : n = m := by
  have hnumber := congrArg number h
  rwa [number_bigEndian, number_bigEndian, Nat.mod_eq_of_lt hn, Nat.mod_eq_of_lt hm] at hnumber

end Bytes

namespace Ccm

/-! ## The first block and the counter blocks -/

theorem MacLength.size_cases (macLength : MacLength) :
    macLength.size = 4 ∨ macLength.size = 6 ∨ macLength.size = 8 ∨ macLength.size = 10 ∨
      macLength.size = 12 ∨ macLength.size = 14 ∨ macLength.size = 16 := by
  have hmin : 4 ≤ macLength.size := macLength.min_le
  have hmax : macLength.size ≤ 16 := macLength.le_max
  have heven := macLength.even
  omega

/-- The bits of the flags do not overlap, so their union is their sum. -/
theorem toNat_flags (hasHeader : Bool) (macLength : MacLength) :
    (flags hasHeader macLength).toNat =
      (if hasHeader then 64 else 0) + 8 * ((macLength.size - 2) / 2) + 1 := by
  rw [flags, MacLength.flagsField]
  rcases macLength.size_cases with h | h | h | h | h | h | h <;> rw [h] <;> cases hasHeader <;> rfl

theorem flags_eq_flagsNumber (macLength : MacLength) (header : Bytes) :
    flags (!header.isEmpty) macLength =
      UInt8.ofNat (Definition.flagsNumber macLength.size header.length) := by
  have hmax : macLength.size ≤ 16 := macLength.le_max
  apply UInt8.toNat_inj.mp
  rw [toNat_flags, UInt8.toNat_ofNat', Definition.flagsNumber]
  cases header with
  | nil =>
      simp only [List.isEmpty_nil, Bool.not_true, Bool.false_eq_true, if_false, List.length_nil,
        if_true]
      omega
  | cons byte rest =>
      simp only [List.isEmpty_cons, Bool.not_false, if_true, List.length_cons, Nat.succ_ne_zero,
        if_false]
      omega

theorem toBytes_firstBlock (nonce : Nonce) (macLength : MacLength) (hasHeader : Bool)
    (payload : Nat) :
    (firstBlock nonce macLength hasHeader payload).toBytes =
      [flags hasHeader macLength] ++ nonce.toBytes ++ Bytes.bigEndian 2 payload := by
  rw [Block.toBytes, firstBlock, Vector.toList_append, Vector.toList_append]
  simp [Nonce.toBytes, bytes16, Bytes.bigEndian, Nat.shiftRight_eq_div_pow]

theorem toBytes_counterBlock (nonce : Nonce) (counter : Nat) :
    (counterBlock nonce counter).toBytes = [1] ++ nonce.toBytes ++ Bytes.bigEndian 2 counter := by
  rw [Block.toBytes, counterBlock, Vector.toList_append, Vector.toList_append]
  simp [Nonce.toBytes, bytes16, Bytes.bigEndian, Nat.shiftRight_eq_div_pow, lengthFieldSize,
    nonceSize]

theorem counterBlock_eq_counterInput (nonce : Nonce) (counter : Nat) :
    counterBlock nonce counter = Definition.counterInput nonce counter := by
  rw [← Block.ofBytes_toBytes (counterBlock nonce counter), toBytes_counterBlock]
  rfl

@[simp] theorem length_toBytes_nonce (nonce : Nonce) : nonce.toBytes.length = 13 := by
  simp [Nonce.toBytes]

theorem Nonce.toBytes_injective : Function.Injective Nonce.toBytes := by
  rintro ⟨bytes⟩ ⟨bytes'⟩ h
  exact congrArg Nonce.mk (Vector.toList_inj.mp h)

/-! ## The authenticated string in blocks -/

theorem headerLength_append {header : Bytes} (hne : header ≠ []) :
    headerLength header.length ++ header = Definition.encodedHeader header := by
  rw [headerLength, Definition.encodedHeader, if_neg hne]
  split <;> simp_all

theorem authenticated_eq (nonce : Nonce) (macLength : MacLength) (header payload : Bytes) :
    Definition.authenticated nonce macLength header payload =
      (firstBlock nonce macLength (!header.isEmpty) payload.length).toBytes ++
        (Definition.padded (Definition.encodedHeader header) ++ Definition.padded payload) := by
  rw [toBytes_firstBlock, flags_eq_flagsNumber, Definition.authenticated, List.append_assoc]

theorem blocks_authenticated (nonce : Nonce) (macLength : MacLength) (header payload : Bytes) :
    (Definition.authenticated nonce macLength header payload).blocks =
      firstBlock nonce macLength (!header.isEmpty) payload.length ::
        ((Definition.encodedHeader header).blocks ++ payload.blocks) := by
  rw [authenticated_eq, Bytes.blocks_append_of_length (Block.length_toBytes _),
    Block.ofBytes_toBytes, Bytes.blocks_append_of_dvd (Bytes.length_padded_dvd _),
    Bytes.blocks_padded, Bytes.blocks_padded]

/-! ## The blocks that are fed -/

open CbcMac (holding chainBlocks)

theorem authenticateHeader_holding (chain : Block) (header : Bytes) :
    authenticateHeader (holding chain []) header = do
      let chain ← chainBlocks chain (Definition.encodedHeader header).blocks
      return holding chain [] := by
  by_cases hne : header = []
  · subst hne
    rw [authenticateHeader, Definition.encodedHeader, if_pos List.isEmpty_nil, if_pos rfl,
      Bytes.blocks_nil]
    rfl
  · have hempty : ¬ header.isEmpty = true := fun h => hne (List.isEmpty_iff.mp h)
    rw [authenticateHeader, if_neg hempty, ← Dialogue.bind_assoc,
      CbcMac.update_update_holding chain (by decide), headerLength_append hne,
      CbcMac.update_pad_holding]

/-- **The authentication pass** chains the blocks of the authenticated string, whatever the
cipher. -/
theorem authenticate_eq_chainBlocks (parameters : Parameters) (header payload : Bytes) :
    authenticate parameters header payload =
      chainBlocks Block.zero
        (Definition.authenticated parameters.nonce parameters.macLength header payload).blocks := by
  have hcons (first : Block) (header payload : List Block) :
      (chainBlocks Block.zero (first :: (header ++ payload)) : Dialogue Rejection Block) =
        chainBlocks Block.zero [first] >>= fun chain =>
          chainBlocks chain header >>= fun chain => chainBlocks chain payload := by
    rw [← List.singleton_append, CbcMac.chainBlocks_append _ [first]]
    exact congrArg _ (funext fun chain => CbcMac.chainBlocks_append chain header payload)
  rw [authenticate, blocks_authenticated, CbcMac.start_eq_holding, hcons]
  simp only [CbcMac.update_holding_toBytes, Dialogue.bind_assoc, Dialogue.pure_bind,
    authenticateHeader_holding, CbcMac.update_finish_holding]

/-- The blocks that the authentication pass feeds to its CBC-MAC.  Against a cipher that answers
zero to all, nothing is chained, so the blocks handed over are the blocks fed. -/
def fedBlocks (parameters : Parameters) (header payload : Bytes) : List Block :=
  ((authenticate parameters header payload).run (.total fun _ => Block.zero)).2.toList

theorem chainInputs_zero (blocks : List Block) :
    Definition.chainInputs (fun _ => Block.zero) Block.zero blocks = blocks := by
  induction blocks with
  | nil => rfl
  | cons block rest ih => rw [Definition.chainInputs, ih, Block.zero_xor]

theorem fedBlocks_eq (parameters : Parameters) (header payload : Bytes) :
    fedBlocks parameters header payload =
      (Definition.authenticated parameters.nonce parameters.macLength header payload).blocks := by
  have hplays := CbcMac.plays_chainBlocks (ε := Rejection) (fun _ => Block.zero) Block.zero
    (Definition.authenticated parameters.nonce parameters.macLength header payload).blocks
  rw [fedBlocks, authenticate_eq_chainBlocks, hplays.run_total, chainInputs_zero]

/-! ## Reading the blocks back -/

theorem firstBlock_injective {nonce nonce' : Nonce} {macLength macLength' : MacLength}
    {hasHeader hasHeader' : Bool} {payload payload' : Nat} (hp : payload ≤ 65535)
    (hp' : payload' ≤ 65535)
    (h : firstBlock nonce macLength hasHeader payload =
      firstBlock nonce' macLength' hasHeader' payload') :
    nonce = nonce' ∧ macLength = macLength' ∧ hasHeader = hasHeader' ∧ payload = payload' := by
  have hbytes := congrArg Block.toBytes h
  rw [toBytes_firstBlock, toBytes_firstBlock] at hbytes
  obtain ⟨hfront, hlength⟩ := List.append_inj hbytes (by simp)
  obtain ⟨hflags, hnonce⟩ := List.append_inj hfront (by simp)
  have hnumber := congrArg UInt8.toNat (List.singleton_inj.mp hflags)
  rw [toNat_flags, toNat_flags] at hnumber
  -- the tag's bits weigh less than the header's, so the sum tells both
  have hsize : macLength.size = macLength'.size ∧ hasHeader = hasHeader' := by
    have hsizes := macLength.size_cases
    have hsizes' := macLength'.size_cases
    cases hasHeader <;> cases hasHeader' <;>
      simp only [if_true, if_false, Bool.false_eq_true, Bool.true_eq_false, and_true]
        at hnumber ⊢ <;>
      omega
  refine ⟨Nonce.toBytes_injective hnonce, ?_, hsize.2, ?_⟩
  · obtain ⟨size, _, _, _⟩ := macLength
    obtain ⟨size', _, _, _⟩ := macLength'
    obtain rfl : size = size' := hsize.1
    rfl
  · exact Bytes.bigEndian_injective (show payload < 256 ^ 2 by omega)
      (show payload' < 256 ^ 2 by omega) hlength

/-- The length of a header as its first block tells it. -/
def writtenHeaderLength (block : Block) : Nat :=
  if block.toBytes.take 2 = [0xFF, 0xFE] then
    Bytes.number ((block.toBytes.take 6).drop 2)
  else
    Bytes.number (block.toBytes.take 2)

theorem writtenHeaderLength_ofBytes {header : Bytes} (hne : header ≠ [])
    (hlen : header.length ≤ 65535) :
    writtenHeaderLength (Block.ofBytes (Definition.encodedHeader header)) = header.length := by
  rw [← headerLength_append hne, headerLength, writtenHeaderLength]
  by_cases hshort : header.length < 0xFF00
  · have htake := Block.take_toBytes_ofBytes (Bytes.bigEndian 2 header.length) header (by simp)
    rw [Bytes.length_bigEndian] at htake
    have hmark : Bytes.bigEndian 2 header.length ≠ [0xFF, 0xFE] := by
      intro h
      have hnumber := congrArg Bytes.number h
      rw [Bytes.number_bigEndian, show Bytes.number [0xFF, 0xFE] = 0xFFFE from rfl] at hnumber
      omega
    rw [if_pos hshort, htake, if_neg hmark, Bytes.number_bigEndian]
    omega
  · have htake := Block.take_toBytes_ofBytes ([0xFF, 0xFE] ++ Bytes.bigEndian 4 header.length)
      header (by simp)
    rw [List.length_append, Bytes.length_bigEndian,
      show [(0xFF : UInt8), 0xFE].length + 4 = 6 from rfl] at htake
    have hmark : (Block.ofBytes
        ([0xFF, 0xFE] ++ Bytes.bigEndian 4 header.length ++ header)).toBytes.take 2 =
          [0xFF, 0xFE] := by
      have htwo := congrArg (List.take 2) htake
      rwa [List.take_take] at htwo
    rw [if_neg hshort, if_pos hmark, htake]
    show Bytes.number (Bytes.bigEndian 4 header.length) = header.length
    rw [Bytes.number_bigEndian]
    omega

/-- The length that precedes a header is known from the first of its blocks. -/
theorem length_eq_of_prefix {header header' : Bytes} {back back' : List Block}
    (hlen : header.length ≤ 65535) (hlen' : header'.length ≤ 65535)
    (hempty : (!header.isEmpty) = !header'.isEmpty)
    (h : (Definition.encodedHeader header).blocks ++ back <+:
      (Definition.encodedHeader header').blocks ++ back') :
    header.length = header'.length := by
  have hne_iff : header = [] ↔ header' = [] := by
    rw [← List.isEmpty_iff, ← List.isEmpty_iff, Bool.not_inj hempty]
  by_cases hne : header = []
  · rw [hne, hne_iff.mp hne]
  · have hne' : header' ≠ [] := fun h => hne (hne_iff.mpr h)
    have hencoded {bytes : Bytes} (hb : bytes ≠ []) : Definition.encodedHeader bytes ≠ [] := by
      rw [← headerLength_append hb]
      exact List.append_ne_nil_of_right_ne_nil _ hb
    obtain ⟨rest, hrest⟩ := Bytes.blocks_eq_cons (hencoded hne)
    obtain ⟨rest', hrest'⟩ := Bytes.blocks_eq_cons (hencoded hne')
    rw [hrest, hrest', List.cons_append, List.cons_append, List.cons_prefix_cons] at h
    rw [← writtenHeaderLength_ofBytes hne hlen, h.1, writtenHeaderLength_ofBytes hne' hlen']

theorem encodedHeader_injective {header header' : Bytes} (hlen : header.length = header'.length)
    (h : Definition.encodedHeader header = Definition.encodedHeader header') :
    header = header' := by
  by_cases hne : header = []
  · rw [hne, List.length_nil] at hlen
    rw [hne, List.eq_nil_of_length_eq_zero hlen.symm]
  · have hne' : header' ≠ [] := by
      intro hnil
      rw [hnil] at hlen
      exact hne (List.eq_nil_of_length_eq_zero hlen)
    rw [← headerLength_append hne, ← headerLength_append hne', hlen] at h
    exact List.append_cancel_left h

theorem length_encodedHeader_congr {header header' : Bytes}
    (hlen : header.length = header'.length) :
    (Definition.encodedHeader header).length = (Definition.encodedHeader header').length := by
  have hnil : header = [] ↔ header' = [] := by
    rw [← List.length_eq_zero_iff, ← List.length_eq_zero_iff, hlen]
  simp only [Definition.encodedHeader, hnil, hlen]
  split
  · rfl
  · split <;> simp only [List.length_append, hlen, Bytes.length_bigEndian]

/-- **Prefix-freeness.** The blocks of one message begin those of another only if the messages are
the same, with the same nonce and the same length of tag. -/
theorem fedBlocks_prefix_iff (parameters parameters' : Parameters)
    (header payload header' payload' : Bytes) (hheader : header.length ≤ 65535)
    (hpayload : payload.length ≤ 65535) (hheader' : header'.length ≤ 65535)
    (hpayload' : payload'.length ≤ 65535) :
    fedBlocks parameters header payload <+: fedBlocks parameters' header' payload' ↔
      parameters.nonce = parameters'.nonce ∧ parameters.macLength = parameters'.macLength ∧
        header = header' ∧ payload = payload' := by
  rw [fedBlocks_eq, fedBlocks_eq]
  constructor
  · intro h
    rw [blocks_authenticated, blocks_authenticated, List.cons_prefix_cons] at h
    obtain ⟨hfirst, hbodies⟩ := h
    obtain ⟨hnonce, hmac, hempty, hpayloads⟩ := firstBlock_injective hpayload hpayload' hfirst
    have hheaders := length_eq_of_prefix hheader hheader' hempty hbodies
    have hcount : (Definition.encodedHeader header).blocks.length =
        (Definition.encodedHeader header').blocks.length := by
      rw [Bytes.length_blocks, Bytes.length_blocks, length_encodedHeader_congr hheaders]
    have hcount' : payload.blocks.length = payload'.blocks.length := by
      rw [Bytes.length_blocks, Bytes.length_blocks, hpayloads]
    -- equally many blocks on both sides, so the prefix is all of it
    have hsame := hbodies.eq_of_length
      (by rw [List.length_append, List.length_append, hcount, hcount'])
    obtain ⟨hfront, hback⟩ := List.append_inj hsame hcount
    exact ⟨hnonce, hmac,
      encodedHeader_injective hheaders
        (Bytes.blocks_injective (length_encodedHeader_congr hheaders) hfront),
      Bytes.blocks_injective hpayloads hback⟩
  · rintro ⟨hnonce, hmac, rfl, rfl⟩
    have hsame : Definition.authenticated parameters.nonce parameters.macLength header payload =
        Definition.authenticated parameters'.nonce parameters'.macLength header payload := by
      rw [hnonce, hmac]
    exact hsame ▸ List.prefix_rfl

/-- A zero at the end of a header is not mistaken for padding. -/
theorem fedBlocks_trailing_zero :
    let parameters : Parameters :=
      ⟨⟨Vector.replicate 16 0⟩, ⟨Vector.replicate 13 0⟩, ⟨4, by decide, by decide, by decide⟩⟩
    let header : Bytes := [1]
    let header' : Bytes := [1, 0]
    header.length ≤ 65535 ∧ header'.length ≤ 65535 ∧ ([] : Bytes).length ≤ 65535 ∧
      ¬ fedBlocks parameters header [] <+: fedBlocks parameters header' [] := by
  intro parameters header header'
  have hheader : header.length ≤ 65535 := by decide
  have hheader' : header'.length ≤ 65535 := by decide
  have hpayload : ([] : Bytes).length ≤ 65535 := by decide
  refine ⟨hheader, hheader', hpayload, fun hprefix => ?_⟩
  have hsame := (fedBlocks_prefix_iff parameters parameters header [] header' [] hheader hpayload
    hheader' hpayload).mp hprefix
  exact absurd hsame.2.2.1 (by decide)

end Ccm

end KnownAnswer
