import KnownAnswer.Fixture.Load
import KnownAnswer.Proofs.LineFeeds
import KnownAnswer.Proofs.Loading

/-!
# Which texts give which bytes

Text is read as bytes exactly if, without its blanks and in lower case, it is what is written for
these bytes (`decode_eq_ok_iff`); otherwise an odd number of bytes is reported, and else the first
that is no digit (`decode_eq_error_iff`).  So neither blanks nor the case of digits matter
(`decode_of_respelled`).  A pattern is read in the same way and then repeated: with these laws every
byte field of a fixture is accounted for (`ByteSource.decode_exact`).
-/

namespace KnownAnswer.Hex

/-- A text without its blanks. -/
def bare (text : String) : String :=
  String.ofList (text.toList.filter fun c => !Text.isBlank c)

theorem compact_eq (text : String) : compact text = Bytes.ofText (bare text) := by
  rw [Bytes.ofText_eq_flatMap, bare, String.toList_ofList]
  rfl

/-! ## Digits in either case -/

/-- A digit, in either case. -/
def IsDigit (c : Char) : Prop := ∃ n < 16, c.toLower = digit n

theorem value?_ofNat : ∀ code < 256,
    (∀ n ∈ value? (UInt8.ofNat code), code < 128 ∧ n < 16) ∧
      ∀ n < 16, value? (UInt8.ofNat code) = some n ↔ (Char.ofNat code).toLower = digit n := by
  decide +kernel

section

variable {byte : UInt8} {c : Char} {n : Nat}

theorem lt_of_value?_eq_some (h : value? byte = some n) : byte.toNat < 128 ∧ n < 16 := by
  have hlaw := (value?_ofNat byte.toNat byte.toNat_lt_size).1
  rw [UInt8.ofNat_toNat] at hlaw
  exact hlaw n h

theorem value?_eq_some_iff :
    value? byte = some n ↔ n < 16 ∧ (Char.ofNat byte.toNat).toLower = digit n := by
  have hlaw := (value?_ofNat byte.toNat byte.toNat_lt_size).2
  rw [UInt8.ofNat_toNat] at hlaw
  constructor
  · intro h
    have hn := (lt_of_value?_eq_some h).2
    exact ⟨hn, (hlaw n hn).mp h⟩
  · rintro ⟨hn, h⟩
    exact (hlaw n hn).mpr h

theorem isSome_value?_iff : (value? byte).isSome ↔ IsDigit (Char.ofNat byte.toNat) := by
  simp only [Option.isSome_iff_exists, value?_eq_some_iff, IsDigit]

theorem digit_lt : ∀ n < 16, (digit n).toNat < 128 := by decide

/-- Characters outside ASCII have no lower case here, and are no digits. -/
theorem lt_of_toLower_eq (hn : n < 16) (h : c.toLower = digit n) : c.toNat < 128 := by
  by_contra hlarge
  have hupper : ¬ (c.val ≥ 'A'.val ∧ c.val ≤ 'Z'.val) := by
    rintro ⟨-, hle⟩
    have hle' : c.toNat ≤ 90 := UInt32.le_iff_toNat_le.mp hle
    omega
  have hsame : c.toLower = c := dif_neg hupper
  exact hlarge (hsame ▸ h ▸ digit_lt n hn)

theorem utf8EncodeChar_of_lt (h : c.toNat < 128) :
    String.utf8EncodeChar c = [UInt8.ofNat c.toNat] := utf8EncodeChar_of_le (by omega)

theorem value?_ofNat_toNat_iff (h : c.toNat < 128) :
    value? (UInt8.ofNat c.toNat) = some n ↔ n < 16 ∧ c.toLower = digit n := by
  rw [value?_eq_some_iff, UInt8.toNat_ofNat', Nat.mod_eq_of_lt (by omega), Char.ofNat_toNat]

/-- Bytes of text that begin with a digit begin with the character it stands for. -/
theorem flatMap_eq_cons_of_value? {chars : List Char} {rest : List UInt8}
    (h : chars.flatMap String.utf8EncodeChar = byte :: rest) (hvalue : value? byte = some n) :
    ∃ c cs, chars = c :: cs ∧ n < 16 ∧ c.toLower = digit n ∧
      cs.flatMap String.utf8EncodeChar = rest := by
  cases chars with
  | nil => cases h
  | cons c cs =>
      rw [List.flatMap_cons] at h
      by_cases hascii : c.toNat < 128
      · rw [utf8EncodeChar_of_lt hascii] at h
        cases h
        obtain ⟨hn, hc⟩ := (value?_ofNat_toNat_iff hascii).mp hvalue
        exact ⟨c, cs, rfl, hn, hc, rfl⟩
      · -- all bytes of such a character are marked, and no digit is
        have hmem : byte ∈ String.utf8EncodeChar c := by
          cases hbytes : String.utf8EncodeChar c with
          | nil => exact absurd hbytes String.utf8EncodeChar_ne_nil
          | cons first others =>
              rw [hbytes] at h
              cases h
              exact List.mem_cons_self
        have hmarked := le_of_mem_utf8EncodeChar (by omega) hmem
        have hbyte := (lt_of_value?_eq_some hvalue).1
        omega

end

/-! ## Texts that are read -/

theorem firstInvalid_eq_none_iff (position : Nat) {digits : List UInt8} :
    firstInvalid position digits = none ↔ ∀ byte ∈ digits, (value? byte).isSome := by
  induction digits generalizing position with
  | nil => simp [firstInvalid]
  | cons byte rest ih =>
      rw [firstInvalid, List.forall_mem_cons]
      split
      · rename_i hbyte
        rw [ih]
        exact ⟨fun hrest => ⟨hbyte, hrest⟩, And.right⟩
      · rename_i hbyte
        constructor
        · intro h
          cases h
        · exact fun h => absurd h.1 hbyte

theorem firstInvalid_eq_some_iff {position place : Nat} {digits : List UInt8} {byte : UInt8} :
    firstInvalid position digits = some (byte, place) ↔
      ∃ before after, digits = before ++ byte :: after ∧ (∀ d ∈ before, (value? d).isSome) ∧
        ¬ (value? byte).isSome ∧ place = position + before.length := by
  induction digits generalizing position with
  | nil => simp [firstInvalid]
  | cons first rest ih =>
      rw [firstInvalid]
      split
      · rename_i hfirst
        rw [ih]
        constructor
        · rintro ⟨before, after, rfl, hbefore, hbyte, rfl⟩
          refine ⟨first :: before, after, rfl, ?_, hbyte, ?_⟩
          · exact List.forall_mem_cons.mpr ⟨hfirst, hbefore⟩
          · rw [List.length_cons]
            omega
        · rintro ⟨before, after, hsplit, hbefore, hbyte, rfl⟩
          cases before with
          | nil =>
              cases hsplit
              exact absurd hfirst hbyte
          | cons other before =>
              cases hsplit
              refine ⟨before, after, rfl, (List.forall_mem_cons.mp hbefore).2, hbyte, ?_⟩
              rw [List.length_cons]
              omega
      · rename_i hfirst
        constructor
        · intro hfound
          cases hfound
          exact ⟨[], rest, rfl, List.forall_mem_nil _, hfirst, rfl⟩
        · rintro ⟨before, after, hsplit, hbefore, hbyte, rfl⟩
          cases before with
          | nil =>
              cases hsplit
              rfl
          | cons other before =>
              cases hsplit
              exact absurd (List.forall_mem_cons.mp hbefore).1 hfirst

/-- Digits in even number spell some bytes. -/
theorem exists_spells : ∀ {digits : List UInt8}, digits.length % 2 = 0 →
    (∀ byte ∈ digits, (value? byte).isSome) → ∃ bytes, Spells digits bytes
  | [], _, _ => ⟨[], .nil⟩
  | [_], heven, _ => by cases heven
  | high :: low :: rest, heven, hall => by
      simp only [List.forall_mem_cons, Option.isSome_iff_exists] at hall
      obtain ⟨⟨h, hhigh⟩, ⟨l, hlow⟩, hrest⟩ := hall
      simp only [← Option.isSome_iff_exists] at hrest
      simp only [List.length_cons] at heven
      obtain ⟨bytes, hbytes⟩ := exists_spells (by omega) hrest
      exact ⟨_, .cons hhigh hlow hbytes⟩

theorem decodeDigits_eq_ok_iff {digits : List UInt8} {bytes : Bytes} :
    decodeDigits digits = .ok bytes ↔ Spells digits bytes := by
  constructor
  · intro h
    have hdecode := h
    rw [decodeDigits] at h
    split at h
    · cases h
    · rename_i hodd
      split at h
      · cases h
      · rename_i hnone
        obtain ⟨other, hother⟩ :=
          exists_spells (by omega) ((firstInvalid_eq_none_iff 0).mp hnone)
        rw [hother.decodeDigits_eq] at hdecode
        cases hdecode
        exact hother
  · exact Spells.decodeDigits_eq

/-- Text spells bytes exactly if in lower case it is what is written for them. -/
theorem spells_iff {chars : List Char} {bytes : Bytes} :
    Spells (chars.flatMap String.utf8EncodeChar) bytes ↔
      chars.map Char.toLower = bytes.flatMap encodeByte := by
  constructor
  · generalize hdigits : chars.flatMap String.utf8EncodeChar = digits
    intro h
    induction h generalizing chars with
    | nil =>
        cases chars with
        | nil => rfl
        | cons c cs =>
            rw [List.flatMap_cons, List.append_eq_nil_iff] at hdigits
            exact absurd hdigits.1 String.utf8EncodeChar_ne_nil
    | cons hhigh hlow _ ih =>
        obtain ⟨c, _, rfl, hh, hc, htail⟩ := flatMap_eq_cons_of_value? hdigits hhigh
        obtain ⟨d, rest, rfl, hl, hd, hrest⟩ := flatMap_eq_cons_of_value? htail hlow
        rw [List.map_cons, List.map_cons, ih hrest, hc, hd, List.flatMap_cons, encodeByte,
          UInt8.toNat_ofNat', Nat.mod_eq_of_lt (by omega), Nat.mul_add_div (by decide),
          Nat.div_eq_of_lt hl, Nat.mul_add_mod, Nat.mod_eq_of_lt hl]
        rfl
  · intro h
    induction bytes generalizing chars with
    | nil =>
        rw [List.flatMap_nil, List.map_eq_nil_iff] at h
        subst h
        exact .nil
    | cons byte bytes ih =>
        obtain ⟨hhigh, hlow⟩ := halves_lt byte
        obtain ⟨c, _, rfl, hc, htail⟩ := List.map_eq_cons_iff.mp h
        obtain ⟨d, rest, rfl, hd, hrest⟩ := List.map_eq_cons_iff.mp htail
        have hc' := lt_of_toLower_eq hhigh hc
        have hd' := lt_of_toLower_eq hlow hd
        have hspells := Spells.cons ((value?_ofNat_toNat_iff hc').mpr ⟨hhigh, hc⟩)
          ((value?_ofNat_toNat_iff hd').mpr ⟨hlow, hd⟩) (ih hrest)
        rw [Nat.div_add_mod, UInt8.ofNat_toNat] at hspells
        rw [List.flatMap_cons, List.flatMap_cons, utf8EncodeChar_of_lt hc',
          utf8EncodeChar_of_lt hd']
        exact hspells

theorem decode_eq_ok_iff {text : String} {bytes : Bytes} :
    decode text = .ok bytes ↔
      (bare text).toList.map Char.toLower = (encode bytes).toList := by
  rw [decode, decodeDigits_eq_ok_iff, compact_eq, Bytes.ofText_eq_flatMap, spells_iff,
    toList_encode]

/-! ## Texts that are refused -/

/-- What is wrong with the bytes of a text: that their number is odd, or else the first of them that
is no digit. -/
inductive Faulty : List UInt8 → Fault → Prop
  | oddLength {bytes : List UInt8} (hodd : bytes.length % 2 = 1) : Faulty bytes .oddLength
  | invalidDigit {before after : List UInt8} {byte : UInt8}
      (heven : (before ++ byte :: after).length % 2 = 0)
      (hbefore : ∀ earlier ∈ before, IsDigit (Char.ofNat earlier.toNat))
      (hbyte : ¬ IsDigit (Char.ofNat byte.toNat)) :
      Faulty (before ++ byte :: after) (.invalidDigit byte before.length)

theorem decode_eq_error_iff {text : String} {fault : Fault} :
    decode text = .error fault ↔ Faulty (Bytes.ofText (bare text)) fault := by
  rw [decode, compact_eq, decodeDigits]
  generalize Bytes.ofText (bare text) = bytes
  split
  · rename_i hodd
    constructor
    · intro h
      cases h
      exact .oddLength hodd
    · rintro (_ | ⟨heven, -, -⟩)
      · rfl
      · omega
  · rename_i heven
    split
    · rename_i byte position hfound
      rw [Except.error.injEq]
      constructor
      · rintro rfl
        obtain ⟨before, after, rfl, hbefore, hbyte, rfl⟩ := firstInvalid_eq_some_iff.mp hfound
        simp only [isSome_value?_iff] at hbefore hbyte
        rw [Nat.zero_add]
        exact .invalidDigit (by omega) hbefore hbyte
      · rintro (hodd | ⟨-, hbefore, hbyte⟩)
        · omega
        · simp only [← isSome_value?_iff] at hbefore hbyte
          rw [firstInvalid_eq_some_iff.mpr ⟨_, _, rfl, hbefore, hbyte, rfl⟩] at hfound
          cases hfound
          rw [Nat.zero_add]
    · rename_i hnone
      rw [firstInvalid_eq_none_iff] at hnone
      constructor
      · intro h
        cases h
      · rintro (hodd | ⟨-, -, hbyte⟩)
        · omega
        · refine absurd (isSome_value?_iff.mp (hnone _ ?_)) hbyte
          simp

/-! ## Texts that are read alike -/

/-- The second text is the first with blanks put in or taken out, anywhere, and digits written in
the other case. -/
inductive Respelled : List Char → List Char → Prop
  | nil : Respelled [] []
  | keep (c : Char) {text other : List Char} (h : Respelled text other) :
      Respelled (c :: text) (c :: other)
  | recase {c d : Char} (hdigit : IsDigit c) (hcase : c.toLower = d.toLower)
      {text other : List Char} (h : Respelled text other) : Respelled (c :: text) (d :: other)
  | insert {c : Char} (hblank : Text.isBlank c = true) {text other : List Char}
      (h : Respelled text other) : Respelled text (c :: other)
  | delete {c : Char} (hblank : Text.isBlank c = true) {text other : List Char}
      (h : Respelled text other) : Respelled (c :: text) other

/-- Bytes that are the same, or digits of the same value. -/
def Agree (a b : UInt8) : Prop := a = b ∨ value? a = value? b ∧ (value? a).isSome

section

variable {xs ys : List UInt8}

theorem Agree.value?_eq {a b : UInt8} (h : Agree a b) : value? a = value? b := by
  rcases h with rfl | ⟨hvalue, -⟩
  · rfl
  · exact hvalue

theorem firstInvalid_congr (h : List.Forall₂ Agree xs ys) (position : Nat) :
    firstInvalid position xs = firstInvalid position ys := by
  induction h generalizing position with
  | nil => rfl
  | cons hagree _ ih =>
      rw [firstInvalid, firstInvalid, ih, ← hagree.value?_eq]
      rcases hagree with rfl | ⟨-, hsome⟩
      · rfl
      · rw [if_pos hsome, if_pos hsome]

theorem joinPairs_congr (done : Bytes) : ∀ {xs ys : List UInt8}, List.Forall₂ Agree xs ys →
    joinPairs done xs = joinPairs done ys
  | _, _, .nil => rfl
  | _, _, .cons _ .nil => rfl
  | _, _, .cons hhigh (.cons hlow hrest) => by
      rw [joinPairs, joinPairs, hhigh.value?_eq, hlow.value?_eq]
      exact joinPairs_congr _ hrest

theorem decodeDigits_congr (h : List.Forall₂ Agree xs ys) : decodeDigits xs = decodeDigits ys := by
  rw [decodeDigits, decodeDigits, h.length_eq, firstInvalid_congr h, joinPairs_congr [] h]

end

theorem isBlank_of_isDigit {c : Char} (h : IsDigit c) : Text.isBlank c = false := by
  have htable : ∀ code < 128, ∀ n < 16, (Char.ofNat code).toLower = digit n →
      Text.isBlank (Char.ofNat code) = false := by decide +kernel
  obtain ⟨n, hn, hc⟩ := h
  have hlaw := htable c.toNat (lt_of_toLower_eq hn hc) n hn
  rw [Char.ofNat_toNat] at hlaw
  exact hlaw hc

theorem Respelled.agree {text other : List Char} (h : Respelled text other) :
    List.Forall₂ Agree
      ((text.filter fun c => !Text.isBlank c).flatMap String.utf8EncodeChar)
      ((other.filter fun c => !Text.isBlank c).flatMap String.utf8EncodeChar) := by
  induction h with
  | nil => exact .nil
  | keep c _ ih =>
      rw [List.filter_cons, List.filter_cons]
      split
      · rw [List.flatMap_cons, List.flatMap_cons]
        exact List.rel_append (List.forall₂_same.mpr fun _ _ => .inl rfl) ih
      · exact ih
  | @recase c d hdigit hcase _ _ _ ih =>
      obtain ⟨n, hn, hc⟩ := hdigit
      have hd : d.toLower = digit n := hcase ▸ hc
      have hcLt := lt_of_toLower_eq hn hc
      have hdLt := lt_of_toLower_eq hn hd
      have hcValue := (value?_ofNat_toNat_iff hcLt).mpr ⟨hn, hc⟩
      have hdValue := (value?_ofNat_toNat_iff hdLt).mpr ⟨hn, hd⟩
      rw [List.filter_cons, List.filter_cons, isBlank_of_isDigit ⟨n, hn, hc⟩,
        isBlank_of_isDigit ⟨n, hn, hd⟩, Bool.not_false, if_pos rfl, if_pos rfl, List.flatMap_cons,
        List.flatMap_cons, utf8EncodeChar_of_lt hcLt, utf8EncodeChar_of_lt hdLt]
      exact .cons (.inr ⟨hcValue.trans hdValue.symm, Option.isSome_of_eq_some hcValue⟩) ih
  | insert hblank _ ih =>
      rw [List.filter_cons, hblank]
      exact ih
  | delete hblank _ ih =>
      rw [List.filter_cons, hblank]
      exact ih

/-- Neither blanks nor the case of digits change what a text is read as. -/
theorem decode_of_respelled {text other : String} (h : Respelled text.toList other.toList) :
    decode other = decode text := by
  rw [decode, decode, compact, compact, decodeDigits_congr h.agree]

end KnownAnswer.Hex

namespace KnownAnswer

theorem Bytes.getElem?_cycle {pattern : Bytes} (h : pattern ≠ []) {length i : Nat}
    (hi : i < length) : (pattern.cycle length)[i]? = pattern[i % pattern.length]? := by
  have hpos : 0 < pattern.length := List.length_pos_iff.mpr h
  have hmod : i % pattern.length < pattern.length := Nat.mod_lt i hpos
  simp [Bytes.cycle, hpos, hi, hmod]

namespace Fixture.ByteSource

open Hex (bare)

variable {id : String} {field : ByteField}

theorem decode_digits_eq_ok_iff {text : String} {bytes : Bytes} :
    (digits text).decode id field = .ok bytes ↔ Hex.decode text = .ok bytes :=
  mapError_eq_ok_iff

theorem decode_digits_eq_error_iff {text : String} {error : LoadError} :
    (digits text).decode id field = .error error ↔
      ∃ fault, Hex.decode text = .error fault ∧ LoadError.invalidHex id field fault = error :=
  mapError_eq_error_iff

/-- A pattern is read as digits are, and then repeated. -/
theorem decode_cycled (pattern : String) (length : Nat) :
    (cycled pattern length).decode id field = do
      let bytes ← (digits pattern).decode id field
      if bytes.isEmpty ∧ 0 < length then .error (.emptyPattern id field)
      else return bytes.cycle length := rfl

/-- **What byte sources give.** Digits give the bytes of which the text, without blanks and in lower
case, is the written form.  Otherwise their number is wrong, or else the first byte that is no
digit, and nothing else is reported.  Blanks put in or taken out and the case of digits make no
difference.  Of a pattern and a length, the pattern is read in that way, with the same error.  One
that gives no bytes is refused unless the length is zero, and else is repeated to exactly that
length. -/
theorem decode_exact (id : String) (field : ByteField) :
    (∀ text bytes, (digits text).decode id field = .ok bytes ↔
      (bare text).toList.map Char.toLower = (Hex.encode bytes).toList) ∧
    (∀ text error, (digits text).decode id field = .error error ↔
      ∃ fault, Hex.Faulty (Bytes.ofText (bare text)) fault ∧
        error = .invalidHex id field fault) ∧
    (∀ text other : String, Hex.Respelled text.toList other.toList →
      (digits other).decode id field = (digits text).decode id field) ∧
    (∀ pattern length,
      (∀ error, (digits pattern).decode id field = .error error →
        (cycled pattern length).decode id field = .error error) ∧
      ((digits pattern).decode id field = .ok [] →
        (cycled pattern length).decode id field =
          if 0 < length then .error (.emptyPattern id field) else .ok []) ∧
      ∀ unit, (digits pattern).decode id field = .ok unit → unit ≠ [] →
        ∃ bytes, (cycled pattern length).decode id field = .ok bytes ∧ bytes.length = length ∧
          ∀ i < length, bytes[i]? = unit[i % unit.length]?) := by
  refine ⟨fun text bytes => ?_, fun text error => ?_, fun text other h => ?_,
    fun pattern length => ⟨fun error h => ?_, fun h => ?_, fun unit h hne => ?_⟩⟩
  · rw [decode_digits_eq_ok_iff, Hex.decode_eq_ok_iff]
  · rw [decode_digits_eq_error_iff]
    exact exists_congr fun fault => and_congr Hex.decode_eq_error_iff eq_comm
  · exact congrArg (Except.mapError _) (Hex.decode_of_respelled h)
  · rw [decode_cycled, h, error_bind]
  · rw [decode_cycled, h, ok_bind]
    by_cases hlength : 0 < length
    · rw [if_pos hlength, if_pos ⟨rfl, hlength⟩]
    · rw [if_neg hlength, if_neg fun h => hlength h.2]
      rfl
  · refine ⟨unit.cycle length, ?_, Bytes.length_cycle hne length, fun i hi => ?_⟩
    · have hempty : ¬ (unit.isEmpty = true ∧ 0 < length) :=
        fun h => hne (List.isEmpty_iff.mp h.1)
      rw [decode_cycled, h, ok_bind, if_neg hempty]
      rfl
    · exact Bytes.getElem?_cycle hne hi

/-- A blank between the digits of a byte, a character of two bytes among digits, and two bytes
repeated to three. -/
theorem decode_exact_spaced :
    let spaced := "A\u2003B"
    Hex.Respelled "aB".toList spaced.toList ∧
      (digits spaced).decode "v" .key = (digits "aB").decode "v" .key ∧
      (digits spaced).decode "v" .key = .ok [0xAB] ∧
      (digits "0 é1").decode "v" .key = .error (.invalidHex "v" .key (.invalidDigit 0xC3 1)) ∧
      (cycled "" 3).decode "v" .key = .error (.emptyPattern "v" .key) ∧
      ∃ bytes : Bytes, (cycled "01 02" 3).decode "v" .key = .ok bytes ∧ bytes.length = 3 ∧
        bytes[2]? = some 1 := by
  intro spaced
  have hspaced : Hex.Respelled "aB".toList spaced.toList := by
    have hplain : "aB".toList = ['a', 'B'] := by decide
    have hsplit : spaced.toList = ['A', '\u2003', 'B'] := by decide
    rw [hplain, hsplit]
    exact .recase ⟨10, by decide, by decide⟩ (by decide) (.insert (by decide) (.keep 'B' .nil))
  obtain ⟨hok, herror, hsame, hcycled⟩ := decode_exact "v" .key
  have hfault : Hex.Faulty (Bytes.ofText (bare "0 é1")) (.invalidDigit 0xC3 1) := by
    have hsplit : Bytes.ofText (bare "0 é1") = [0x30] ++ 0xC3 :: [0xA9, 0x31] := by
      decide +kernel
    have hdigit : Hex.IsDigit (Char.ofNat (0x30 : UInt8).toNat) := ⟨0, by decide, by decide⟩
    have hbyte : ¬ Hex.IsDigit (Char.ofNat (0xC3 : UInt8).toNat) := by
      unfold Hex.IsDigit
      decide
    rw [hsplit]
    exact .invalidDigit (by decide) (List.forall_mem_singleton.mpr hdigit) hbyte
  obtain ⟨-, hempty, -⟩ := hcycled "" 3
  obtain ⟨-, -, hrepeat⟩ := hcycled "01 02" 3
  have hunit : (digits "01 02").decode "v" .key = .ok [1, 2] :=
    (hok _ _).mpr (by decide +kernel)
  obtain ⟨bytes, hbytes, hlength, hplace⟩ := hrepeat [1, 2] hunit nofun
  refine ⟨hspaced, hsame _ _ hspaced, (hok _ _).mpr (by decide +kernel),
    (herror _ _).mpr ⟨_, hfault, rfl⟩, ?_, bytes, hbytes, hlength, hplace 2 (by decide)⟩
  rw [hempty ((hok _ _).mpr (by decide +kernel)), if_pos (by decide)]

end Fixture.ByteSource

end KnownAnswer
