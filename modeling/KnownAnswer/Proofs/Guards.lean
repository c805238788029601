import KnownAnswer.Ccm.Guarded
import KnownAnswer.Proofs.Admission
import KnownAnswer.Proofs.Operations

/-!
# Every guard is met

Function by function, the guarded program is the plain one: what each of its guards demands holds of
whatever it is called with, so none of them shows.  For the formats this follows from the two bytes a
length has room for, for feeding from the room that the waiting block has left, and for counter mode
from the counter itself, which is turned down before it could leave its word.  A whole message is
sealed by the guarded program exactly as by the plain one (`Guarded.sealMessage_eq`), whatever the
lengths of its parts.
-/

namespace KnownAnswer

/-! ## Feeding, whatever may be refused -/

namespace CbcMac

variable {ε ε' : Type} (f : ε → ε')

theorem mapRefusal_turn (mac : CbcMac) (piece : Bytes) :
    (mac.turn piece : Dialogue ε CbcMac).mapRefusal f = mac.turn piece := by
  unfold turn
  split
  · rfl
  · rfl

theorem mapRefusal_update (mac : CbcMac) (bytes : Bytes) :
    (mac.update bytes : Dialogue ε CbcMac).mapRefusal f = mac.update bytes := by
  induction hn : bytes.length using Nat.strongRecOn generalizing mac bytes with
  | _ n ih =>
      by_cases hnil : bytes = []
      · rw [update, update, if_pos hnil, if_pos hnil]
        rfl
      · rw [update_eq_turn mac hnil, update_eq_turn mac hnil, Dialogue.mapRefusal_bind,
          mapRefusal_turn]
        refine congrArg _ (funext fun mac' => ?_)
        exact ih _ (hn ▸ length_left_lt mac hnil) mac' _ rfl

theorem mapRefusal_pad (mac : CbcMac) :
    (mac.pad : Dialogue ε CbcMac).mapRefusal f = mac.pad := by
  unfold pad
  split
  · rfl
  · rfl

theorem mapRefusal_finish (mac : CbcMac) :
    (mac.finish : Dialogue ε Block).mapRefusal f = mac.finish := by
  unfold finish
  rw [Dialogue.mapRefusal_bind, mapRefusal_pad]
  rfl

end CbcMac

namespace Ccm.Guarded

/-! ## Guards that are met -/

theorem demand_of {condition : Prop} [Decidable condition] (h : condition) :
    demand condition = return () := if_pos h

theorem fit_of_lt {size n : Nat} (h : n < size) : fit size n = return n := by
  rw [fit, demand_of h, Dialogue.pure_bind]

theorem subtract_of_le {n m : Nat} (h : m ≤ n) : subtract n m = return n - m := by
  rw [subtract, demand_of h, Dialogue.pure_bind]

theorem slice_of_le {bytes : Bytes} {start stop : Nat} (hstart : start ≤ stop)
    (hstop : stop ≤ bytes.length) : slice bytes start stop = return (bytes.take stop).drop start := by
  rw [slice, demand_of ⟨hstart, hstop⟩, Dialogue.pure_bind]

theorem slice_front {front : Bytes} {stop : Nat} (h : front.length = stop) (back : Bytes) :
    slice (front ++ back) 0 stop = return front := by
  have hstop : stop ≤ (front ++ back).length := by
    rw [List.length_append]
    omega
  rw [slice_of_le (Nat.zero_le stop) hstop, List.take_left' h, List.drop_zero]

theorem copy_of_length {cells bytes : Bytes} {start stop : Nat} (hstart : start ≤ stop)
    (hstop : stop ≤ cells.length) (hbytes : bytes.length = stop - start) :
    copy cells start stop bytes = return cells.take start ++ bytes ++ cells.drop stop := by
  rw [copy, demand_of ⟨hstart, hstop, hbytes⟩, Dialogue.pure_bind]

/-- Behind the cells that are written already, the next ones are written. -/
theorem copy_behind {front bytes : Bytes} {start stop count free : Nat}
    (hfront : front.length = start) (hbytes : bytes.length = count) (hstop : start + count = stop)
    (hroom : count ≤ free) :
    copy (front ++ List.replicate free 0) start stop bytes =
      return front ++ bytes ++ List.replicate (free - count) 0 := by
  have hcells : stop ≤ (front ++ List.replicate free 0).length := by
    rw [List.length_append, List.length_replicate]
    omega
  rw [copy_of_length (by omega) hcells (by omega), List.take_left' hfront, ← hstop, ← hfront,
    List.drop_length_add_append, List.drop_replicate]

theorem copy_front {bytes : Bytes} {stop size : Nat} (h : bytes.length = stop)
    (hroom : stop ≤ size) :
    copy (List.replicate size 0) 0 stop bytes =
      return bytes ++ List.replicate (size - stop) 0 :=
  @copy_behind [] bytes 0 stop stop size rfl h (Nat.zero_add stop) hroom

/-! ## Block formats -/

theorem lengthFlags_eq : lengthFlags = return UInt8.ofNat (lengthFieldSize - 1) := rfl

theorem flags_eq (hasHeader : Bool) (macLength : MacLength) :
    flags hasHeader macLength = return Ccm.flags hasHeader macLength := by
  have hmin : 4 ≤ macLength.size := macLength.min_le
  have hmax : macLength.size ≤ 16 := macLength.le_max
  have hsize : macLength.size < UInt8.size := Nat.lt_of_le_of_lt hmax (by decide)
  have hfield : (macLength.size - 2) / 2 < UInt8.size / 8 := by
    show _ < 32
    omega
  unfold flags
  rw [fit_of_lt hsize, Dialogue.pure_bind, subtract_of_le (by omega), Dialogue.pure_bind,
    fit_of_lt hfield, Dialogue.pure_bind, lengthFlags_eq]
  rfl

theorem formatted_eq (flags : UInt8) (nonce : Nonce) {number : Nat} (h : number ≤ 65535) :
    formatted flags nonce number =
      return Block.ofBytes ([flags] ++ nonce.toBytes ++ Bytes.bigEndian 2 number) := by
  have hnumber : number < UInt16.size := Nat.lt_succ_of_le h
  have hnonce : nonce.toBytes.length = 13 := length_toBytes_nonce nonce
  have hfirst : copy (List.replicate 16 0) 0 1 [flags] =
      return [flags] ++ List.replicate 15 0 := copy_front rfl (by decide)
  have hsecond : copy ([flags] ++ List.replicate 15 0) 1 (nonceSize + 1) nonce.toBytes =
      return [flags] ++ nonce.toBytes ++ List.replicate 2 0 :=
    copy_behind rfl hnonce rfl (by decide)
  have hthird : copy ([flags] ++ nonce.toBytes ++ List.replicate 2 0) (nonceSize + 1) 16
      (Bytes.bigEndian 2 number) =
        return [flags] ++ nonce.toBytes ++ Bytes.bigEndian 2 number ++ List.replicate 0 0 :=
    copy_behind (congrArg (· + 1) hnonce) rfl rfl (Nat.le_refl 2)
  unfold formatted
  rw [fit_of_lt hnumber, Dialogue.pure_bind, hfirst, Dialogue.pure_bind, hsecond,
    Dialogue.pure_bind, hthird, Dialogue.pure_bind, Block.ofBytes_append_zeros]

/-- A number that two bytes cannot hold is halted at. -/
example (flags : UInt8) (nonce : Nonce) : formatted flags nonce 65536 = .refuse .outOfRange := rfl

theorem firstBlock_eq (nonce : Nonce) (macLength : MacLength) (hasHeader : Bool) {payload : Nat}
    (h : payload ≤ 65535) :
    firstBlock nonce macLength hasHeader payload =
      return Ccm.firstBlock nonce macLength hasHeader payload := by
  unfold firstBlock
  rw [flags_eq, Dialogue.pure_bind, formatted_eq _ nonce h, ← toBytes_firstBlock,
    Block.ofBytes_toBytes]

theorem counterBlock_eq (nonce : Nonce) {counter : Nat} (h : counter ≤ 65535) :
    counterBlock nonce counter = return Ccm.counterBlock nonce counter := by
  unfold counterBlock
  rw [lengthFlags_eq, Dialogue.pure_bind, formatted_eq _ nonce h, counterBlock_eq_counterInput]
  rfl

theorem headerLength_eq {length : Nat} (h : length ≤ 65535) :
    headerLength length = return Ccm.headerLength length := by
  have hlength : length < UInt16.size := Nat.lt_succ_of_le h
  have hshort : copy (List.replicate 6 0) 0 2 (Bytes.bigEndian 2 length) =
      return Bytes.bigEndian 2 length ++ List.replicate 4 0 :=
    copy_front rfl (by decide)
  have hmark : copy (List.replicate 6 0) 0 2 [0xFF, 0xFE] =
      return [0xFF, 0xFE] ++ List.replicate 4 0 :=
    copy_front rfl (by decide)
  have hlong : copy ([0xFF, 0xFE] ++ List.replicate 4 0) 2 6 (Bytes.bigEndian 4 length) =
      return [0xFF, 0xFE] ++ Bytes.bigEndian 4 length ++ [] :=
    copy_behind rfl rfl rfl (Nat.le_refl 4)
  unfold headerLength Ccm.headerLength
  simp only [fit_of_lt hlength, Dialogue.pure_bind]
  split
  · rw [hshort, Dialogue.pure_bind]
    exact slice_front rfl _
  · rw [hmark, Dialogue.pure_bind, hlong, Dialogue.pure_bind]
    exact slice_front rfl _

/-! ## CBC-MAC -/

/-- A turn takes up what the waiting block has room for. -/
theorem turn_eq (mac : CbcMac) (bytes : Bytes) :
    turn mac bytes = do
      let mac' ← mac.turn (bytes.take (min (16 - mac.filled.val) bytes.length))
      return (mac', bytes.drop (min (16 - mac.filled.val) bytes.length)) := by
  have hfilled : mac.filled.val < 16 := mac.filled.isLt
  generalize hsize : min (16 - mac.filled.val) bytes.length = size
  have hle : size ≤ bytes.length := by omega
  have hroom : mac.filled.val + size ≤ 16 := by omega
  have hword : mac.filled.val + size < UInt32.size := Nat.lt_of_le_of_lt hroom (by decide)
  have hpiece : (bytes.take size).length = size := by
    rw [List.length_take]
    omega
  have hcells : mac.filled.val + size ≤ mac.pending.toBytes.length := by
    rwa [Block.length_toBytes]
  have hpending := Block.ofBytes_splice mac.pending (bytes.take size)
    (show mac.filled.val + (bytes.take size).length ≤ 16 by rwa [hpiece])
  rw [hpiece] at hpending
  unfold turn CbcMac.turn
  simp only [subtract_of_le (Nat.le_of_lt hfilled), Dialogue.pure_bind, hsize, fit_of_lt hword,
    slice_of_le (Nat.zero_le size) hle, List.drop_zero,
    copy_of_length (Nat.le_add_right mac.filled.val size) hcells
      (hpiece.trans (Nat.add_sub_cancel_left _ _).symm),
    slice_of_le hle (Nat.le_refl bytes.length), List.take_length, hpending, hpiece]
  split
  · rfl
  · rfl

/-- Each turn uses up a byte, so no more turns are needed than there are bytes. -/
theorem feed_eq {turns : Nat} (mac : CbcMac) {bytes : Bytes} (h : bytes.length ≤ turns) :
    feed turns mac bytes = mac.update bytes := by
  induction turns generalizing mac bytes with
  | zero =>
      obtain rfl : bytes = [] := List.eq_nil_of_length_eq_zero (Nat.le_zero.mp h)
      rw [feed, demand_of rfl, CbcMac.update, if_pos rfl, Dialogue.pure_bind]
  | succ turns ih =>
      unfold feed
      by_cases hnil : bytes = []
      · rw [CbcMac.update, if_pos hnil, if_pos hnil]
      · have hless := CbcMac.length_left_lt mac hnil
        rw [if_neg hnil, turn_eq, CbcMac.update_eq_turn mac hnil, Dialogue.bind_assoc]
        refine congrArg _ (funext fun mac' => ?_)
        exact ih mac' (Nat.le_of_lt_succ (Nat.lt_of_lt_of_le hless h))

theorem update_eq (mac : CbcMac) (bytes : Bytes) : update mac bytes = mac.update bytes :=
  feed_eq mac (Nat.le_refl _)

theorem authenticateHeader_eq (mac : CbcMac) {header : Bytes} (h : header.length ≤ 65535) :
    authenticateHeader mac header = (Ccm.authenticateHeader mac header).mapRefusal .rejected := by
  unfold authenticateHeader Ccm.authenticateHeader
  split
  · rfl
  · simp only [headerLength_eq h, Dialogue.pure_bind, update_eq, Dialogue.mapRefusal_bind,
      CbcMac.mapRefusal_update, CbcMac.mapRefusal_pad]

theorem authenticate_eq (parameters : Parameters) {header payload : Bytes}
    (hheader : header.length ≤ 65535) (hpayload : payload.length ≤ 65535) :
    authenticate parameters header payload =
      (Ccm.authenticate parameters header payload).mapRefusal .rejected := by
  unfold authenticate Ccm.authenticate
  simp only [firstBlock_eq _ _ _ hpayload, Dialogue.pure_bind, update_eq,
    authenticateHeader_eq _ hheader, Dialogue.mapRefusal_bind, CbcMac.mapRefusal_update,
    CbcMac.mapRefusal_finish]

/-! ## Counter mode -/

/-- The counter behind the last one that two bytes can hold still fits its word, and is turned down
there, so it does not matter how many pieces are left. -/
theorem encryptPieces_eq (nonce : Nonce) (whole : Nat) {index : Nat} (h : index ≤ 65535)
    (done pieces : List Bytes) :
    encryptPieces nonce whole index done pieces =
      (Ccm.encryptPieces nonce whole (index + 1) done pieces).mapRefusal .rejected := by
  induction pieces generalizing index done with
  | nil => rfl
  | cons piece pieces ih =>
      have hword : index + 1 < UInt32.size := Nat.lt_of_le_of_lt (Nat.succ_le_succ h) (by decide)
      unfold encryptPieces
      rw [fit_of_lt hword, Dialogue.pure_bind]
      by_cases hcounter : index + 1 ≤ 65535
      · rw [if_pos (show index + 1 < UInt16.size from Nat.lt_succ_of_le hcounter),
          counterBlock_eq nonce hcounter, Dialogue.pure_bind,
          encryptPieces_cons_of_le nonce whole hcounter]
        refine congrArg (Dialogue.call _) (funext fun keystream => ?_)
        exact ih hcounter _
      · have hfull : ¬ index + 1 < UInt16.size := fun hlt => hcounter (Nat.le_of_lt_succ hlt)
        rw [if_neg hfull, encryptPieces_cons_of_lt nonce whole (Nat.lt_of_not_le hcounter)]
        rfl

theorem encryptPayload_eq (nonce : Nonce) (payload : Bytes) :
    encryptPayload nonce payload = (Ccm.encryptPayload nonce payload).mapRefusal .rejected :=
  encryptPieces_eq nonce payload.length (Nat.zero_le _) [] _

theorem maskTag_eq (nonce : Nonce) (mac : Block) (macLength : MacLength) :
    maskTag nonce mac macLength = (Ccm.maskTag nonce mac macLength).mapRefusal .rejected := by
  unfold maskTag
  rw [counterBlock_eq nonce (Nat.zero_le _)]
  rfl

/-! ## Whole messages -/

/-- **Guards never show.** With every guard in place a message is sealed as it is without them, step
by step and whatever the lengths of its header and its payload. -/
theorem sealMessage_eq (parameters : Parameters) (header payload : Bytes) :
    sealMessage parameters header payload =
      (Ccm.sealMessage parameters header payload).mapRefusal .rejected := by
  unfold sealMessage Ccm.sealMessage
  rw [Dialogue.mapRefusal_bind, Dialogue.mapRefusal_ofExcept]
  cases hcheck : Lengths.check header.length payload.length with
  | error reason => rfl
  | ok lengths =>
      obtain ⟨hheader, hpayload⟩ := Lengths.check_eq_ok_iff.mp hcheck
      have hheader' : header.length ≤ 65535 := hheader ▸ lengths.header_le
      have hpayload' : payload.length ≤ 65535 := hpayload ▸ lengths.payload_le
      simp only [Dialogue.mapRefusal_bind, authenticate_eq parameters hheader' hpayload',
        encryptPayload_eq, maskTag_eq]
      rfl

end Ccm.Guarded

end KnownAnswer
