import KnownAnswer.Proofs.Sealing

/-!
# Changes within one block

A change that shows in one block of what is authenticated changes the value of the whole chain,
whatever stands behind that block: under a cipher that maps no two blocks to one, every link is
injective.  A tag that is not cut passes the difference on (`tag_ne_of_differOnce`).  A change of a
payload shows in one block if it stays within sixteen aligned bytes; for a header the bytes of its
length count as well.
-/

namespace KnownAnswer

/-! ## Lists that differ at one place -/

/-- Alike at every place but one. -/
def DifferOnce {α : Type} (xs ys : List α) : Prop :=
  ∃ i : Nat, ∀ j : Nat, xs[j]? = ys[j]? ↔ j ≠ i

section DifferOnce

variable {α : Type} {xs ys : List α}

theorem DifferOnce.cons_cases {x y : α} (h : DifferOnce (x :: xs) (y :: ys)) :
    (x ≠ y ∧ xs = ys) ∨ (x = y ∧ DifferOnce xs ys) := by
  obtain ⟨i, hi⟩ := h
  cases i with
  | zero =>
      refine .inl ⟨?_, ?_⟩
      · rintro rfl
        exact (hi 0).mp rfl rfl
      · refine List.ext_getElem? fun j => ?_
        exact (hi (j + 1)).mpr (Nat.succ_ne_zero j)
  | succ i =>
      refine .inr ⟨?_, i, fun j => ?_⟩
      · exact Option.some.inj ((hi 0).mpr (Nat.succ_ne_zero i).symm)
      · rw [← Nat.succ_ne_succ_iff]
        exact hi (j + 1)

theorem DifferOnce.append_left (h : DifferOnce xs ys) (front : List α) :
    DifferOnce (front ++ xs) (front ++ ys) := by
  obtain ⟨i, hi⟩ := h
  refine ⟨front.length + i, fun j => ?_⟩
  rcases Nat.lt_or_ge j front.length with hlt | hge
  · rw [List.getElem?_append_left hlt, List.getElem?_append_left hlt]
    exact ⟨fun _ => by omega, fun _ => rfl⟩
  · rw [List.getElem?_append_right hge, List.getElem?_append_right hge, hi]
    omega

theorem DifferOnce.append_right (hlen : xs.length = ys.length) (h : DifferOnce xs ys)
    (back : List α) : DifferOnce (xs ++ back) (ys ++ back) := by
  obtain ⟨i, hi⟩ := h
  have hlt : i < xs.length := by
    by_contra hge
    have hge' : ys.length ≤ i := by omega
    refine (hi i).mp ?_ rfl
    rw [List.getElem?_eq_none (Nat.le_of_not_lt hge), List.getElem?_eq_none hge']
  refine ⟨i, fun j => ?_⟩
  rcases Nat.lt_or_ge j xs.length with hj | hj
  · rw [List.getElem?_append_left hj, List.getElem?_append_left (hlen ▸ hj), hi]
  · rw [List.getElem?_append_right hj, List.getElem?_append_right (hlen ▸ hj), hlen]
    exact ⟨fun _ => by omega, fun _ => rfl⟩

end DifferOnce

/-! ## Chains -/

namespace Block

theorem xor_right_injective (block : Block) : Function.Injective block.xor := by
  intro a b h
  refine Vector.ext fun i hi => ?_
  have hcell := congrArg (fun value : Block => value[i]) h
  simpa [xor] using hcell

theorem xor_left_injective (block : Block) : Function.Injective fun a : Block => a.xor block := by
  intro a b h
  refine Vector.ext fun i hi => ?_
  have hcell := congrArg (fun value : Block => value[i]) h
  simpa [xor] using hcell

end Block

namespace Ccm

open Definition (chained encodedHeader)

variable {encrypt : Block → Block}

/-- What is chained later keeps two values apart. -/
theorem chained_injective (hinjective : Function.Injective encrypt) (blocks : List Block) :
    Function.Injective fun start => chained encrypt start blocks := by
  induction blocks with
  | nil => exact fun a b h => h
  | cons block rest ih =>
      intro a b h
      have hlink : encrypt (a.xor block) = encrypt (b.xor block) := ih h
      exact Block.xor_left_injective block (hinjective hlink)

/-- **One block is enough.** Chains over blocks that differ at one place end in different values. -/
theorem chained_ne_of_differOnce (hinjective : Function.Injective encrypt) {xs ys : List Block}
    (hlen : xs.length = ys.length) (h : DifferOnce xs ys) (start : Block) :
    chained encrypt start xs ≠ chained encrypt start ys := by
  induction xs generalizing ys start with
  | nil =>
      obtain rfl : ys = [] := List.eq_nil_of_length_eq_zero hlen.symm
      obtain ⟨i, hi⟩ := h
      exact absurd rfl ((hi i).mp rfl)
  | cons x xs ih =>
      obtain ⟨y, ys, rfl⟩ := List.exists_cons_of_length_eq_add_one hlen.symm
      rcases h.cons_cases with ⟨hne, rfl⟩ | ⟨rfl, hrest⟩
      · intro hsame
        have hlink := chained_injective hinjective xs hsame
        exact hne (Block.xor_right_injective start (hinjective hlink))
      · exact ih (Nat.succ.inj hlen) hrest (encrypt (start.xor x))

end Ccm

/-! ## Blocks of strings that differ -/

namespace Bytes

theorem tail_blocks (bytes : Bytes) : (blocks bytes).tail = blocks (bytes.drop 16) := by
  by_cases hlt : bytes.length < 16
  · rw [List.drop_eq_nil_of_le (Nat.le_of_lt hlt), blocks_nil]
    by_cases hne : bytes = []
    · rw [hne, blocks_nil, List.tail_nil]
    · rw [blocks_of_length_le hne (Nat.le_of_lt hlt), List.tail_cons]
  · have hhead : (bytes.take 16).length = 16 := by
      rw [List.length_take]
      omega
    have hblocks := blocks_append_of_length hhead (bytes.drop 16)
    rw [List.take_append_drop] at hblocks
    rw [hblocks, List.tail_cons]

theorem getElem?_blocks (bytes : Bytes) (i : Nat) :
    (blocks bytes)[i]? =
      if 16 * i < bytes.length then some (Block.ofBytes (bytes.drop (16 * i))) else none := by
  induction i generalizing bytes with
  | zero =>
      by_cases hne : bytes = []
      · rw [hne, blocks_nil]
        rfl
      · obtain ⟨rest, hrest⟩ := blocks_eq_cons hne
        rw [hrest, if_pos (List.length_pos_iff.mpr hne)]
        rfl
  | succ i ih =>
      have hbound : 16 * i < bytes.length - 16 ↔ 16 * (i + 1) < bytes.length := by omega
      rw [← List.getElem?_tail, tail_blocks, ih, List.length_drop, List.drop_drop, Nat.mul_succ,
        Nat.add_comm 16]
      simp only [hbound, Nat.mul_succ]

/-- One block of two strings of one length is the same if the strings agree in all its bytes. -/
theorem getElem?_blocks_eq_iff {xs ys : Bytes} (hlen : xs.length = ys.length) (i : Nat) :
    (blocks xs)[i]? = (blocks ys)[i]? ↔ ∀ k : Nat, k / 16 = i → xs[k]? = ys[k]? := by
  rw [getElem?_blocks, getElem?_blocks, ← hlen]
  by_cases hi : 16 * i < xs.length
  · rw [if_pos hi, if_pos hi, Option.some.injEq]
    constructor
    · intro h k hk
      have hcell := congrArg (fun block : Block => block[k % 16]) h
      have hk' : 16 * i + k % 16 = k := by omega
      simp only [Block.getElem_ofBytes, List.getD_eq_getElem?_getD, List.getElem?_drop, hk']
        at hcell
      by_cases hlt : k < xs.length
      · rw [List.getElem?_eq_getElem hlt, List.getElem?_eq_getElem (hlen ▸ hlt)] at hcell ⊢
        exact congrArg some hcell
      · rw [List.getElem?_eq_none (by omega), List.getElem?_eq_none (by omega)]
    · intro h
      refine Vector.ext fun r hr => ?_
      rw [Block.getElem_ofBytes, Block.getElem_ofBytes, List.getD_eq_getElem?_getD,
        List.getD_eq_getElem?_getD, List.getElem?_drop, List.getElem?_drop,
        h (16 * i + r) (by omega)]
  · rw [if_neg hi, if_neg hi]
    refine ⟨fun _ k hk => ?_, fun _ => rfl⟩
    have hk' : xs.length ≤ k := by omega
    rw [List.getElem?_eq_none hk', List.getElem?_eq_none (hlen ▸ hk')]

/-- Different, but only in bytes that fall into one block when `shift` bytes stand before them. -/
def DifferWithin (shift : Nat) (xs ys : Bytes) : Prop :=
  xs ≠ ys ∧ ∃ i, ∀ k : Nat, xs[k]? ≠ ys[k]? → (k + shift) / 16 = i

theorem differOnce_blocks {xs ys : Bytes} (hlen : xs.length = ys.length)
    (h : DifferWithin 0 xs ys) : DifferOnce (blocks xs) (blocks ys) := by
  obtain ⟨hne, i, hi⟩ := h
  refine ⟨i, fun j => ?_⟩
  rw [getElem?_blocks_eq_iff hlen]
  constructor
  · -- if the block at `i` were the same as well, so would be the strings
    rintro hblock rfl
    refine hne (List.ext_getElem? fun k => ?_)
    by_contra hk
    exact hk (hblock k (hi k hk))
  · intro hj k hk
    by_contra hne'
    exact hj (hk.symm.trans (hi k hne'))

theorem DifferWithin.append_left {front xs ys : Bytes} (h : DifferWithin front.length xs ys) :
    DifferWithin 0 (front ++ xs) (front ++ ys) := by
  obtain ⟨hne, i, hi⟩ := h
  refine ⟨fun hsame => hne (List.append_cancel_left hsame), i, fun k hk => ?_⟩
  rcases Nat.lt_or_ge k front.length with hlt | hge
  · rw [List.getElem?_append_left hlt, List.getElem?_append_left hlt] at hk
    exact absurd rfl hk
  · rw [List.getElem?_append_right hge, List.getElem?_append_right hge] at hk
    rw [← hi _ hk, Nat.sub_add_cancel hge, Nat.add_zero]

end Bytes

namespace Ccm

open Bytes (DifferWithin)
open Definition (encodedHeader)

/-! ## Messages that differ in one block -/

theorem length_headerLength (length : Nat) :
    (headerLength length).length = if length < 65280 then 2 else 6 := by
  rw [headerLength]
  split <;> simp

theorem fedBlocks_eq_append (parameters : Parameters) (header payload : Bytes) :
    fedBlocks parameters header payload =
      firstBlock parameters.nonce parameters.macLength (!header.isEmpty) payload.length ::
        ((encodedHeader header).blocks ++ payload.blocks) := by
  rw [fedBlocks_eq, blocks_authenticated]

variable (parameters : Parameters) {header payload header' payload' : Bytes}

theorem differOnce_of_payload (hlen : payload.length = payload'.length)
    (h : DifferWithin 0 payload payload') :
    DifferOnce (fedBlocks parameters header payload) (fedBlocks parameters header payload') := by
  rw [fedBlocks_eq_append, fedBlocks_eq_append, hlen, ← List.cons_append, ← List.cons_append]
  exact (Bytes.differOnce_blocks hlen h).append_left _

theorem differOnce_of_header (hlen : header.length = header'.length)
    (h : DifferWithin (headerLength header.length).length header header') :
    DifferOnce (fedBlocks parameters header payload) (fedBlocks parameters header' payload) := by
  have hnil : header ≠ [] := by
    rintro rfl
    exact h.1 (List.eq_nil_of_length_eq_zero hlen.symm).symm
  have hnil' : header' ≠ [] := List.ne_nil_of_length_pos (hlen ▸ List.length_pos_iff.mpr hnil)
  have hempty : header.isEmpty = header'.isEmpty := by
    rw [List.isEmpty_eq_false_iff.mpr hnil, List.isEmpty_eq_false_iff.mpr hnil']
  have hencoded : DifferOnce (encodedHeader header).blocks (encodedHeader header').blocks := by
    rw [← headerLength_append hnil, ← headerLength_append hnil', ← hlen]
    exact Bytes.differOnce_blocks (by simp [hlen]) h.append_left
  have hcount : (encodedHeader header).blocks.length = (encodedHeader header').blocks.length := by
    rw [length_blocks_encodedHeader, length_blocks_encodedHeader, hlen]
  rw [fedBlocks_eq_append, fedBlocks_eq_append, hempty]
  exact (hencoded.append_right hcount payload.blocks).append_left [_]

/-! ## Values and tags -/

theorem authenticate_run_total (encrypt : Block → Block) (parameters : Parameters)
    (header payload : Bytes) :
    ((authenticate parameters header payload).run (.total encrypt)).1 =
      .ok (Definition.mac encrypt parameters.nonce parameters.macLength header payload) := by
  rw [(plays_authenticate encrypt parameters header payload).run_total]
  rfl

theorem mac_ne_of_differOnce {encrypt : Block → Block} (hinjective : Function.Injective encrypt)
    (hheaders : header.length = header'.length) (hpayloads : payload.length = payload'.length)
    (h : DifferOnce (fedBlocks parameters header payload) (fedBlocks parameters header' payload')) :
    Definition.mac encrypt parameters.nonce parameters.macLength header payload ≠
      Definition.mac encrypt parameters.nonce parameters.macLength header' payload' := by
  rw [fedBlocks_eq, fedBlocks_eq] at h
  refine chained_ne_of_differOnce hinjective ?_ h Block.zero
  rw [length_blocks_authenticated, length_blocks_authenticated, hheaders, hpayloads]

/-- A tag of sixteen bytes is not cut, and masking keeps two values apart. -/
theorem tag_ne_of_mac_ne {encrypt : Block → Block} (hsize : parameters.macLength.size = 16)
    (h : Definition.mac encrypt parameters.nonce parameters.macLength header payload ≠
      Definition.mac encrypt parameters.nonce parameters.macLength header' payload') :
    Definition.tag encrypt parameters.nonce parameters.macLength header payload ≠
      Definition.tag encrypt parameters.nonce parameters.macLength header' payload' := by
  rw [Definition.tag, Definition.tag, hsize, List.take_of_length_le (by simp),
    List.take_of_length_le (by simp)]
  intro htags
  exact h (Block.xor_left_injective _ (Vector.toList_inj.mp htags))

/-- **Tampering within one block is caught.** If the blocks of two messages of the same lengths
differ at one place, their values differ before they are masked, and so do their tags if these are
not cut.  Payloads that differ within sixteen aligned bytes are such messages, and so are headers
that do, counted from the length that is put before them. -/
theorem tag_ne_of_differOnce (encrypt : Block → Block) (hinjective : Function.Injective encrypt)
    (header payload header' payload' : Bytes) (hheader : header.length ≤ 65535)
    (hpayload : payload.length ≤ 65535) (hheaders : header.length = header'.length)
    (hpayloads : payload.length = payload'.length) :
    (DifferOnce (fedBlocks parameters header payload) (fedBlocks parameters header' payload') →
      (∃ mac mac',
        ((authenticate parameters header payload).run (.total encrypt)).1 = .ok mac ∧
        ((authenticate parameters header' payload').run (.total encrypt)).1 = .ok mac' ∧
        mac ≠ mac') ∧
      (parameters.macLength.size = 16 →
        ∃ message message',
          ((sealMessage parameters header payload).run (.total encrypt)).1 = .ok message ∧
          ((sealMessage parameters header' payload').run (.total encrypt)).1 = .ok message' ∧
          message.tag ≠ message'.tag)) ∧
    (header = header' → DifferWithin 0 payload payload' →
      DifferOnce (fedBlocks parameters header payload) (fedBlocks parameters header' payload')) ∧
    (payload = payload' →
      DifferWithin (if header.length < 65280 then 2 else 6) header header' →
      DifferOnce (fedBlocks parameters header payload)
        (fedBlocks parameters header' payload')) := by
  refine ⟨fun hdiffer => ?_, ?_, ?_⟩
  · have hmacs := mac_ne_of_differOnce parameters hinjective hheaders hpayloads hdiffer
    refine ⟨⟨_, _, authenticate_run_total encrypt parameters header payload,
      authenticate_run_total encrypt parameters header' payload', hmacs⟩, fun hsize => ?_⟩
    have hseals := run_sealMessage encrypt parameters header payload hheader hpayload
    have hseals' := run_sealMessage encrypt parameters header' payload' (hheaders ▸ hheader)
      (hpayloads ▸ hpayload)
    exact ⟨_, _, congrArg Prod.fst hseals, congrArg Prod.fst hseals',
      tag_ne_of_mac_ne parameters hsize hmacs⟩
  · rintro rfl hwithin
    exact differOnce_of_payload parameters hpayloads hwithin
  · rintro rfl hwithin
    rw [← length_headerLength] at hwithin
    exact differOnce_of_header parameters hheaders hwithin

/-- Headers that differ only in their byte 14, which the two bytes of the length move into the
second block. -/
theorem tag_ne_of_differOnce_second_block :
    let parameters : Parameters :=
      ⟨⟨Vector.replicate 16 0⟩, ⟨Vector.replicate 13 0⟩, ⟨16, by decide, by decide, by decide⟩⟩
    let header : Bytes := List.replicate 14 5 ++ [0]
    let header' : Bytes := List.replicate 14 5 ++ [1]
    let payload : Bytes := [1, 2, 3]
    Function.Injective (id : Block → Block) ∧ header.length ≤ 65535 ∧ payload.length ≤ 65535 ∧
      header.length = header'.length ∧ DifferWithin 2 header header' ∧
      DifferOnce (fedBlocks parameters header payload) (fedBlocks parameters header' payload) ∧
      ∃ message message',
        ((sealMessage parameters header payload).run (.total id)).1 = .ok message ∧
        ((sealMessage parameters header' payload).run (.total id)).1 = .ok message' ∧
        message.tag ≠ message'.tag := by
  intro parameters header header' payload
  have hinjective : Function.Injective (id : Block → Block) := Function.injective_id
  have hheader : header.length ≤ 65535 := by decide
  have hpayload : payload.length ≤ 65535 := by decide
  have hlengths : header.length = header'.length := by decide
  have hwithin : DifferWithin 2 header header' := by
    have hbytes : ∀ k < 15, header[k]? ≠ header'[k]? → (k + 2) / 16 = 1 := by decide
    refine ⟨by decide, 1, fun k hk => ?_⟩
    rcases Nat.lt_or_ge k 15 with hlt | hge
    · exact hbytes k hlt hk
    · rw [List.getElem?_eq_none hge, List.getElem?_eq_none hge] at hk
      exact absurd rfl hk
  have hall := tag_ne_of_differOnce parameters id hinjective header payload header' payload hheader
    hpayload hlengths rfl
  have hdiffer := hall.2.2 rfl hwithin
  exact ⟨hinjective, hheader, hpayload, hlengths, hwithin, hdiffer, (hall.1 hdiffer).2 rfl⟩

end Ccm

end KnownAnswer
