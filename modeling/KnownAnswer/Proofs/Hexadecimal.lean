import KnownAnswer.Hex

/-!
# Hexadecimal text read back

Digits that spell bytes, two for each, are read as these bytes (`Spells.decodeDigits_eq`), and what
is written for bytes spells them.  Blanks that are put between characters, or taken out, do not
change what a text is read as (`decode_of_spaced`), so written bytes are read back however they are
spaced (`decode_encode`).
-/

namespace KnownAnswer.Hex

/-! ## Digits -/

section

variable {n : Nat} (h : n < 16)

include h

theorem utf8EncodeChar_digit :
    String.utf8EncodeChar (digit n) = [UInt8.ofNat (digit n).toNat] := by
  revert n
  decide

theorem value?_digit : value? (UInt8.ofNat (digit n).toNat) = some n := by
  revert n
  decide

theorem isBlank_digit : Text.isBlank (digit n) = false := by
  revert n
  decide

end

/-! ## Digits that spell bytes -/

/-- The digits, given by their codes, stand for the bytes: two for each, the higher one first. -/
inductive Spells : List UInt8 → Bytes → Prop
  | nil : Spells [] []
  | cons {high low : UInt8} {h l : Nat} {digits : List UInt8} {bytes : Bytes}
      (hhigh : value? high = some h) (hlow : value? low = some l) (hrest : Spells digits bytes) :
      Spells (high :: low :: digits) (UInt8.ofNat (16 * h + l) :: bytes)

namespace Spells

variable {digits : List UInt8} {bytes : Bytes}

theorem length_eq (h : Spells digits bytes) : digits.length = 2 * bytes.length := by
  induction h with
  | nil => rfl
  | cons _ _ _ ih =>
      simp only [List.length_cons]
      omega

theorem firstInvalid_eq (h : Spells digits bytes) (position : Nat) :
    firstInvalid position digits = none := by
  induction h generalizing position with
  | nil => rfl
  | cons hhigh hlow _ ih =>
      rw [firstInvalid, hhigh, firstInvalid, hlow]
      exact ih _

theorem joinPairs_eq (h : Spells digits bytes) (done : Bytes) :
    joinPairs done digits = done.reverse ++ bytes := by
  induction h generalizing done with
  | nil =>
      rw [joinPairs, List.append_nil]
      simp
  | cons hhigh hlow _ ih =>
      rw [joinPairs, hhigh, hlow, ih]
      simp

theorem decodeDigits_eq (h : Spells digits bytes) : decodeDigits digits = .ok bytes := by
  have heven : digits.length % 2 ≠ 1 := by
    rw [h.length_eq]
    omega
  rw [decodeDigits, if_neg heven, h.firstInvalid_eq]
  exact congrArg Except.ok (h.joinPairs_eq [])

end Spells

/-! ## Written bytes -/

theorem halves_lt (byte : UInt8) : byte.toNat / 16 < 16 ∧ byte.toNat % 16 < 16 := by
  have hbyte : byte.toNat < 256 := byte.toNat_lt_size
  constructor <;> omega

theorem toList_encode (bytes : Bytes) : (encode bytes).toList = bytes.flatMap encodeByte :=
  String.toList_ofList

/-- What is written for bytes spells them. -/
theorem spells_encode (bytes : Bytes) :
    Spells ((encode bytes).toList.flatMap String.utf8EncodeChar) bytes := by
  rw [toList_encode]
  induction bytes with
  | nil => exact .nil
  | cons byte rest ih =>
      obtain ⟨hhigh, hlow⟩ := halves_lt byte
      have hsum : UInt8.ofNat (16 * (byte.toNat / 16) + byte.toNat % 16) = byte := by
        rw [Nat.div_add_mod, UInt8.ofNat_toNat]
      have hspells := Spells.cons (value?_digit hhigh) (value?_digit hlow) ih
      rw [hsum] at hspells
      simpa [encodeByte, utf8EncodeChar_digit hhigh, utf8EncodeChar_digit hlow] using hspells

/-- Nothing but digits is written. -/
theorem exists_digit_of_mem_encode {bytes : Bytes} {c : Char} (h : c ∈ (encode bytes).toList) :
    ∃ n < 16, c = digit n := by
  rw [toList_encode] at h
  obtain ⟨byte, -, hc⟩ := List.mem_flatMap.mp h
  obtain ⟨hhigh, hlow⟩ := halves_lt byte
  simp only [encodeByte, List.mem_cons, List.not_mem_nil, or_false] at hc
  rcases hc with rfl | rfl
  · exact ⟨_, hhigh, rfl⟩
  · exact ⟨_, hlow, rfl⟩

theorem isBlank_of_mem_encode {bytes : Bytes} {c : Char} (h : c ∈ (encode bytes).toList) :
    Text.isBlank c = false := by
  obtain ⟨n, hn, rfl⟩ := exists_digit_of_mem_encode h
  exact isBlank_digit hn

/-! ## Blanks -/

/-- The second text is the first with blanks put in, anywhere. -/
inductive Spaced : List Char → List Char → Prop
  | nil : Spaced [] []
  | keep (c : Char) {text spaced : List Char} (h : Spaced text spaced) :
      Spaced (c :: text) (c :: spaced)
  | blank {c : Char} (hblank : Text.isBlank c = true) {text spaced : List Char}
      (h : Spaced text spaced) : Spaced text (c :: spaced)

theorem Spaced.filter_eq {text spaced : List Char} (h : Spaced text spaced) :
    spaced.filter (fun c => !Text.isBlank c) = text.filter fun c => !Text.isBlank c := by
  induction h with
  | nil => rfl
  | keep c _ ih => rw [List.filter_cons, List.filter_cons, ih]
  | blank hblank _ ih =>
      rw [List.filter_cons, hblank, ih]
      rfl

theorem decode_of_spaced {text spaced : String} (h : Spaced text.toList spaced.toList) :
    decode spaced = decode text := by
  rw [decode, decode, compact, compact, h.filter_eq]

/-- **Written bytes are read back.** -/
theorem decode_encode (bytes : Bytes) : decode (encode bytes) = .ok bytes := by
  have hnone : (encode bytes).toList.filter (fun c => !Text.isBlank c) = (encode bytes).toList := by
    rw [List.filter_eq_self]
    intro c hc
    rw [isBlank_of_mem_encode hc]
    rfl
  rw [decode, compact, hnone]
  exact (spells_encode bytes).decodeDigits_eq

end KnownAnswer.Hex
