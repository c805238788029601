import KnownAnswer.CommandLine.Report
import KnownAnswer.Proofs.Hexadecimal
import KnownAnswer.Proofs.Verdict
import Mathlib.Algebra.BigOperators.Group.List.Basic

/-!
# Line feeds in what is printed

Lines that each end in a line feed are cut at line feeds into themselves exactly if none of them
holds one (`splitOn_terminated`, `flatMap_splitOn_eq_self_iff`).  What is printed of an output, of
counts and of a failure holds none, unless a cipher fails and says so; hence the line feeds within
the lines of a report are those of its ids (`Harness.feeds_line_trial`, `Summary.feeds_verdict`).
-/

namespace KnownAnswer

/-! ## Lists cut at an element -/

section

variable {α : Type} [BEq α]

theorem length_splitOn (x : α) (xs : List α) : (xs.splitOn x).length = xs.count x + 1 := by
  induction xs with
  | nil => rfl
  | cons y rest ih =>
      rw [List.splitOn_cons_eq_if_modifyHead, List.count_cons]
      split
      · rw [List.length_cons, ih]
      · rw [List.length_modifyHead, ih, Nat.add_zero]

variable [LawfulBEq α] (x : α) (lines : List (List α))

/-- What ends a line parts its pieces from those of the next. -/
theorem splitOn_terminated :
    (lines.flatMap fun line => line ++ [x]).splitOn x =
      lines.flatMap (fun line => line.splitOn x) ++ [[]] := by
  induction lines with
  | nil => rfl
  | cons line rest ih =>
      rw [List.flatMap_cons, List.append_assoc, List.singleton_append,
        List.splitOn_append_cons_self, ih, List.flatMap_cons, List.append_assoc]

theorem flatMap_splitOn_eq_self_iff :
    lines.flatMap (fun line => line.splitOn x) = lines ↔ ∀ line ∈ lines, x ∉ line := by
  constructor
  · intro hself
    -- there are more pieces than lines as soon as one line is cut
    have hlength := congrArg List.length hself
    have hsum : (lines.map fun line => line.count x).sum = 0 := by
      simpa [List.length_flatMap, length_splitOn, List.sum_map_add] using hlength
    intro line hline
    exact List.count_eq_zero.mp
      (List.sum_eq_zero_iff_forall_eq_nat.mp hsum _ (List.mem_map_of_mem hline))
  · intro hnone
    induction lines with
    | nil => rfl
    | cons line rest ih =>
        obtain ⟨hline, hrest⟩ := List.forall_mem_cons.mp hnone
        rw [List.flatMap_cons, List.splitOn_eq_singleton hline, ih hrest]
        rfl

end

/-! ## Plain text -/

namespace Text

/-- Whether a character occurs in plain words and numbers: small letters, digits, and what parts
them. -/
def isPlain (c : Char) : Bool := c.isLower || c.isDigit || [' ', ',', ':', '-'].contains c

def plain (text : String) : Bool := text.toList.all isPlain

@[simp] theorem plain_append (front back : String) :
    plain (front ++ back) = (plain front && plain back) := by
  rw [plain, String.toList_append, List.all_append]
  rfl

@[simp] theorem plain_toString (n : Nat) : plain (toString n) = true := by
  rw [plain, Nat.toString_eq_repr, Nat.toList_repr, List.all_eq_true]
  intro c hc
  have hdigit := Nat.isDigit_of_mem_toDigits (by decide) (by decide) hc
  rw [isPlain, hdigit, Bool.or_true, Bool.true_or]

@[simp] theorem plain_encode (bytes : Bytes) : plain (Hex.encode bytes) = true := by
  have hdigit : ∀ n < 16, isPlain (Hex.digit n) = true := by decide
  rw [plain, List.all_eq_true]
  intro c hc
  obtain ⟨n, hn, rfl⟩ := Hex.exists_digit_of_mem_encode hc
  exact hdigit n hn

/-! ## Line feeds of a text -/

/-- How many line feeds a text holds. -/
def feeds (text : String) : Nat := text.toList.count '\n'

theorem feeds_eq_zero_iff {text : String} : feeds text = 0 ↔ '\n' ∉ text.toList :=
  List.count_eq_zero

@[simp] theorem feeds_append (front back : String) :
    feeds (front ++ back) = feeds front + feeds back := by
  rw [feeds, String.toList_append, List.count_append]
  rfl

theorem feeds_eq_zero_of_plain {text : String} (h : plain text = true) : feeds text = 0 := by
  rw [feeds_eq_zero_iff]
  intro hfeed
  have hplain := List.all_eq_true.mp h _ hfeed
  revert hplain
  decide

@[simp] theorem feeds_toString (n : Nat) : feeds (toString n) = 0 :=
  feeds_eq_zero_of_plain (plain_toString n)

@[simp] theorem feeds_encode (bytes : Bytes) : feeds (Hex.encode bytes) = 0 :=
  feeds_eq_zero_of_plain (plain_encode bytes)

theorem feeds_intercalate {separator : String} (h : feeds separator = 0) (texts : List String) :
    feeds (separator.intercalate texts) = (texts.map feeds).sum := by
  induction texts with
  | nil =>
      rw [String.intercalate_nil]
      rfl
  | cons text rest ih =>
      cases rest with
      | nil => simp
      | cons next rest =>
          rw [String.intercalate_cons_cons, feeds_append, feeds_append, h, ih]
          simp

end Text

/-! ## Bytes of a text -/

theorem utf8EncodeChar_of_le {char : Char} (h : char.toNat ≤ 0x7F) :
    String.utf8EncodeChar char = [UInt8.ofNat char.toNat] := if_pos h

/-- The bytes of a character outside ASCII all have their highest bit set. -/
theorem le_of_mem_utf8EncodeChar {char : Char} (h : 0x7F < char.toNat) {byte : UInt8}
    (hbyte : byte ∈ String.utf8EncodeChar char) : 0x80 ≤ byte.toNat := by
  have hascii : ¬ char.val.toNat ≤ 0x7F := Nat.not_le_of_lt h
  have hmarked : ∀ mark base n, 0 < base → 0x80 ≤ mark → mark + base ≤ 0x100 →
      0x80 ≤ (UInt8.ofNat (n % base + mark)).toNat := by
    intro mark base n hbase hle hsum
    have hlt := Nat.mod_lt n hbase
    rw [UInt8.toNat_ofNat', Nat.mod_eq_of_lt (by omega)]
    omega
  rw [String.utf8EncodeChar, if_neg hascii] at hbyte
  split at hbyte
  · simp only [List.mem_cons, List.not_mem_nil, or_false] at hbyte
    rcases hbyte with rfl | rfl <;> exact hmarked _ _ _ (by decide) (by decide) (by decide)
  split at hbyte
  · simp only [List.mem_cons, List.not_mem_nil, or_false] at hbyte
    rcases hbyte with rfl | rfl | rfl <;> exact hmarked _ _ _ (by decide) (by decide) (by decide)
  · simp only [List.mem_cons, List.not_mem_nil, or_false] at hbyte
    rcases hbyte with rfl | rfl | rfl | rfl <;>
      exact hmarked _ _ _ (by decide) (by decide) (by decide)

theorem count_utf8EncodeChar (char : Char) :
    (String.utf8EncodeChar char).count 0x0A = if char = '\n' then 1 else 0 := by
  by_cases hascii : char.toNat ≤ 0x7F
  · have hbyte : UInt8.ofNat char.toNat = 0x0A ↔ char = '\n' := by
      rw [← UInt8.toNat_inj, UInt8.toNat_ofNat', Nat.mod_eq_of_lt (by omega)]
      exact Char.toNat_inj (d := '\n')
    rw [utf8EncodeChar_of_le hascii, List.count_singleton, beq_eq_decide]
    simp [hbyte]
  · have hne : char ≠ '\n' := by
      rintro rfl
      exact hascii (by decide)
    rw [if_neg hne, List.count_eq_zero]
    intro hmem
    have hmarked := le_of_mem_utf8EncodeChar (Nat.lt_of_not_le hascii) hmem
    exact absurd hmarked (by decide)

namespace Bytes

theorem ofText_eq_flatMap (text : String) :
    ofText text = text.toList.flatMap String.utf8EncodeChar := by
  conv => lhs; rw [← String.ofList_toList (s := text)]
  rw [ofText, String.toUTF8_eq_toByteArray]
  exact List.toList_data_toByteArray

/-- The byte of a line feed is part of no other character. -/
theorem count_ofText (text : String) : (ofText text).count 0x0A = Text.feeds text := by
  rw [ofText_eq_flatMap, Text.feeds]
  induction text.toList with
  | nil => rfl
  | cons char rest ih =>
      rw [List.flatMap_cons, List.count_append, ih, count_utf8EncodeChar, List.count_cons,
        Nat.add_comm, beq_eq_decide]
      simp

theorem feed_mem_ofText_iff {text : String} : 0x0A ∈ ofText text ↔ '\n' ∈ text.toList := by
  rw [← List.count_pos_iff, count_ofText, Text.feeds, List.count_pos_iff]

end Bytes

/-! ## Lines of a report -/

namespace Conformance

open Text (feeds feeds_append feeds_toString feeds_intercalate feeds_eq_zero_of_plain plain
  plain_append plain_toString plain_encode)

namespace Failure

theorem plain_tag (failure : Failure) : plain failure.tag = true := by
  rw [tag.eq_def]
  split <;> decide +kernel

/-- A failure is told in plain words, but for what a cipher says. -/
theorem plain_text {failure : Failure} (h : ∀ fault, failure ≠ .cipherFault fault) :
    plain failure.text = true := by
  rw [text.eq_def]
  cases failure with
  | rejected reason =>
      cases reason with
      | missing input => cases input <;> decide +kernel
      | keyLength expected actual =>
          simp only [plain_append, plain_toString]
          decide +kernel
      | nonceLength expected actual =>
          simp only [plain_append, plain_toString]
          decide +kernel
      | macLength actual =>
          simp only [plain_append, plain_toString]
          decide +kernel
      | tooLong part length capacity =>
          simp only [plain_append, plain_toString]
          cases part <;> decide +kernel
  | cipherFault fault => exact absurd rfl (h fault)
  | lengthMismatch expected actual =>
      simp only [plain_append, plain_toString]
      decide +kernel
  | contentMismatch offset expected actual =>
      simp only [showByte, plain_append, plain_toString, plain_encode]
      decide +kernel

end Failure

theorem Outcome.feeds_text {outcome : Outcome}
    (h : ∀ fault, outcome ≠ .fail (.cipherFault fault)) : feeds outcome.text = 0 := by
  cases outcome with
  | pass => rfl
  | fail failure =>
      have htext := Failure.plain_text fun fault hfault => h fault (congrArg _ hfault)
      simp only [text, feeds_append, feeds_eq_zero_of_plain failure.plain_tag,
        feeds_eq_zero_of_plain htext]
      decide +kernel

theorem Summary.feeds_verdict (total : Nat) (failing : List String) :
    feeds (verdict total failing) = (failing.map feeds).sum := by
  rw [verdict]
  split
  · rename_i hnil
    rw [hnil]
    simp only [feeds_append, feeds_toString]
    decide +kernel
  · have hblank : feeds ", " = 0 := by decide
    simp only [feeds_append, feeds_toString, feeds_intercalate hblank]
    have hrest : feeds "FAIL (" = 0 ∧ feeds " of " = 0 ∧ feeds " vectors failed: " = 0 ∧
        feeds ")" = 0 := by decide +kernel
    omega

theorem sealVector_ne_fault {encrypt : Ccm.Key → Block → Block}
    {cipherFor : Ccm.Key → BlockCipher} (hcipher : ∀ key, cipherFor key = .total (encrypt key))
    (vector : TestVector) (fault : Fault) :
    (sealVector cipherFor vector).1 ≠ .error (.fault fault) := by
  unfold sealVector
  cases hvalidate : vector.validate with
  | error reason => simp
  | ok parameters =>
      have hsupplies := TestVector.validate_eq_ok_iff.mp hvalidate
      have hrun := Ccm.run_sealMessage (encrypt parameters.key) parameters vector.header
        vector.plaintext hsupplies.header_le hsupplies.plaintext_le
      simp [hcipher, hrun]

namespace Harness

variable {encrypt : Ccm.Key → Block → Block} {harness : Harness}
  (hcipher : ∀ key, harness.cipherFor key = .total (encrypt key))
  (hchecks : harness.checks.SpeakOfOutput)

include hcipher hchecks

/-- A cipher that never fails has nothing to say. -/
theorem outcome_trial_ne_fault (vector : TestVector) (fault : Fault) :
    (harness.trial vector).report.outcome ≠ .fail (.cipherFault fault) := by
  have hseals := sealVector_ne_fault hcipher vector
  unfold trial
  rcases hvector : sealVector harness.cipherFor vector with ⟨ending, cipher⟩
  rw [hvector] at hseals
  cases ending with
  | error stop =>
      cases stop with
      | refused reason => simp [Failure.ofSealError]
      | fault other => exact absurd rfl (hseals other)
  | ok message =>
      intro hfault
      cases sealError?_of_judge hchecks hfault

theorem feeds_line_trial (vector : TestVector) :
    feeds (harness.trial vector).report.line = feeds vector.id := by
  have houtcome := Outcome.feeds_text (outcome_trial_ne_fault hcipher hchecks vector)
  have hcolon : feeds ": " = 0 := by decide
  rw [Report.line, id_trial, feeds_append, feeds_append, houtcome, hcolon]
  rfl

end Harness

end Conformance

open Text (feeds feeds_append feeds_toString feeds_encode) in
theorem CommandLine.feeds_dumpLine (output : Bytes) : feeds (dumpLine output) = 0 := by
  simp only [dumpLine, feeds_append, feeds_toString, feeds_encode]
  decide +kernel

end KnownAnswer
