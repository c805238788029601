import KnownAnswer.Cipher.Aes128
import KnownAnswer.Proofs.LineFeeds

/-!
# Printed outcomes can be read back

What is printed of an outcome tells which outcome it is: the word it is told apart by says what
follows, numbers end where their digits end, and bytes have two digits each.  A report line puts an
id in front of it, which may be any text, even one that looks like an outcome itself.  Since capital
letters only stand at the front of an outcome, the line still tells id and outcome apart, unless a
cipher fails and says what it likes (`printed_outcome_unambiguous`).
-/

namespace KnownAnswer

/-! ## Texts put together -/

namespace Text

/-- Text up to a character that it does not hold is read in one way. -/
theorem append_cons_unique {α : Type} {x : α} {front front' back back' : List α}
    (hfront : x ∉ front) (hfront' : x ∉ front')
    (h : front ++ x :: back = front' ++ x :: back') : front = front' ∧ back = back' := by
  induction front generalizing front' with
  | nil =>
      cases front' with
      | nil =>
          cases h
          exact ⟨rfl, rfl⟩
      | cons y front' =>
          cases h
          exact absurd List.mem_cons_self hfront'
  | cons y front ih =>
      cases front' with
      | nil =>
          cases h
          exact absurd List.mem_cons_self hfront
      | cons z front' =>
          obtain ⟨rfl, htail⟩ := List.cons_eq_cons.mp h
          obtain ⟨rfl, rfl⟩ := ih (List.not_mem_of_not_mem_cons hfront)
            (List.not_mem_of_not_mem_cons hfront') htail
          exact ⟨rfl, rfl⟩

theorem toString_injective {n m : Nat} (h : toString n = toString m) : n = m := by
  have hdigits : Nat.toDigits 10 n = Nat.toDigits 10 m := by
    rw [← Nat.toList_repr, ← Nat.toList_repr, ← Nat.toString_eq_repr, ← Nat.toString_eq_repr, h]
  calc
    n = Nat.ofDigitChars 10 (Nat.toDigits 10 n) 0 := Nat.ofDigitChars_ten_toDigits.symm
    _ = Nat.ofDigitChars 10 (Nat.toDigits 10 m) 0 := by rw [hdigits]
    _ = m := Nat.ofDigitChars_ten_toDigits

/-- What stands before a separator is read in one way, if it does not hold the first character of
the separator. -/
theorem append_separator_unique {front front' back back' separator : String} (mark : Char)
    (hmark : separator.toList.head? = some mark) (hfront : mark ∉ front.toList)
    (hfront' : mark ∉ front'.toList)
    (h : front ++ (separator ++ back) = front' ++ (separator ++ back')) :
    front = front' ∧ back = back' := by
  obtain ⟨rest, hseparator⟩ := List.head?_eq_some_iff.mp hmark
  rw [← String.toList_inj] at h
  simp only [String.toList_append, hseparator, List.cons_append] at h
  obtain ⟨hsame, hrest⟩ := append_cons_unique hfront hfront' h
  exact ⟨String.toList_inj.mp hsame, String.toList_inj.mp (List.append_cancel_left hrest)⟩

theorem notMem_toString {c : Char} (h : c.isDigit = false) (n : Nat) : c ∉ (toString n).toList := by
  rw [Nat.toString_eq_repr, Nat.toList_repr]
  intro hc
  rw [Nat.isDigit_of_mem_toDigits (by decide) (by decide) hc] at h
  cases h

/-- A number is read in one way before a separator that does not begin with a digit. -/
theorem toString_append_unique {n m : Nat} {back back' separator : String} (mark : Char)
    (hmark : separator.toList.head? = some mark) (hdigit : mark.isDigit = false)
    (h : toString n ++ (separator ++ back) = toString m ++ (separator ++ back')) :
    n = m ∧ back = back' := by
  obtain ⟨hnumber, hback⟩ :=
    append_separator_unique mark hmark (notMem_toString hdigit n) (notMem_toString hdigit m) h
  exact ⟨toString_injective hnumber, hback⟩

theorem encode_byte_injective {byte byte' : UInt8} (h : Hex.encode [byte] = Hex.encode [byte']) :
    byte = byte' := by
  have hdecode := Hex.decode_encode [byte]
  rw [h, Hex.decode_encode] at hdecode
  cases hdecode
  rfl

theorem comma_notMem_encode (bytes : Bytes) : ',' ∉ (Hex.encode bytes).toList := by
  have hdigit : ∀ n < 16, ',' ≠ Hex.digit n := by decide
  intro hc
  obtain ⟨n, hn, hcomma⟩ := Hex.exists_digit_of_mem_encode hc
  exact hdigit n hn hcomma

/-- How many capital letters a text holds. -/
def capitals (text : String) : Nat := text.toList.countP Char.isUpper

theorem capitals_append (front back : String) :
    capitals (front ++ back) = capitals front + capitals back := by
  rw [capitals, String.toList_append, List.countP_append]
  rfl

theorem not_isUpper_of_isPlain {c : Char} (h : isPlain c = true) : ¬ c.isUpper = true := by
  have htable : ∀ code ≤ 'Z'.toNat, 'A'.toNat ≤ code → isPlain (Char.ofNat code) = false := by
    decide
  intro hupper
  obtain ⟨hfirst, hlast⟩ : c.val ≥ 'A'.val ∧ c.val ≤ 'Z'.val := of_decide_eq_true hupper
  have hcapital :=
    htable c.toNat (UInt32.le_iff_toNat_le.mp hlast) (UInt32.le_iff_toNat_le.mp hfirst)
  rw [Char.ofNat_toNat, h] at hcapital
  cases hcapital

theorem capitals_eq_zero_of_plain {text : String} (h : plain text = true) : capitals text = 0 := by
  rw [capitals, List.countP_eq_zero]
  exact fun c hc => not_isUpper_of_isPlain (List.all_eq_true.mp h c hc)

end Text

open Ccm (Input Part Rejection)
open Text (toString_injective append_separator_unique toString_append_unique capitals
  capitals_append capitals_eq_zero_of_plain)

theorem Ccm.Input.name_injective {input other : Input} (h : input.name = other.name) :
    input = other := by
  revert h
  cases input <;> cases other <;> decide

theorem Ccm.Part.name_injective {part other : Part} (h : part.name = other.name) :
    part = other := by
  revert h
  cases part <;> cases other <;> decide

namespace Conformance

/-! ## Failures -/

namespace Failure

/-- Failures that are told apart by the same word. -/
inductive SameKind : Failure → Failure → Prop
  | missing (input input' : Input) :
      SameKind (.rejected (.missing input)) (.rejected (.missing input'))
  | keyLength (expected actual expected' actual' : Nat) :
      SameKind (.rejected (.keyLength expected actual)) (.rejected (.keyLength expected' actual'))
  | nonceLength (expected actual expected' actual' : Nat) :
      SameKind (.rejected (.nonceLength expected actual))
        (.rejected (.nonceLength expected' actual'))
  | macLength (actual actual' : Nat) :
      SameKind (.rejected (.macLength actual)) (.rejected (.macLength actual'))
  | tooLong (part part' : Part) (length capacity length' capacity' : Nat) :
      SameKind (.rejected (.tooLong part length capacity))
        (.rejected (.tooLong part' length' capacity'))
  | cipherFault (fault fault' : Fault) : SameKind (.cipherFault fault) (.cipherFault fault')
  | lengthMismatch (expected actual expected' actual' : Nat) :
      SameKind (.lengthMismatch expected actual) (.lengthMismatch expected' actual')
  | contentMismatch (offset offset' : Nat) (expected actual expected' actual' : UInt8) :
      SameKind (.contentMismatch offset expected actual)
        (.contentMismatch offset' expected' actual')

theorem sameKind_of_tag_eq {failure other : Failure} (h : failure.tag = other.tag) :
    SameKind failure other := by
  rw [tag.eq_def, tag.eq_def] at h
  split at h <;> split at h
  -- eight pairs are of one kind, and the words of the others differ
  any_goals constructor
  all_goals exact absurd h (by decide)

/-- Among failures of one kind the text tells the data. -/
theorem SameKind.eq_of_text_eq {failure other : Failure} (hkind : SameKind failure other)
    (h : failure.text = other.text) : failure = other := by
  rw [text.eq_def, text.eq_def] at h
  cases hkind with
  | missing input input' =>
      cases Input.name_injective ((String.append_left_inj _).mp h)
      rfl
  | keyLength expected actual expected' actual' =>
      simp only [String.append_assoc, String.append_right_inj] at h
      obtain ⟨rfl, hexpected⟩ := toString_append_unique ' ' rfl rfl h
      cases toString_injective hexpected
      rfl
  | nonceLength expected actual expected' actual' =>
      simp only [String.append_assoc, String.append_right_inj] at h
      obtain ⟨rfl, hexpected⟩ := toString_append_unique ' ' rfl rfl h
      cases toString_injective hexpected
      rfl
  | macLength actual actual' =>
      simp only [String.append_left_inj, String.append_right_inj] at h
      cases toString_injective h
      rfl
  | tooLong part part' length capacity length' capacity' =>
      simp only [String.append_assoc] at h
      have hspace : ∀ part : Part, ' ' ∉ part.name.toList := by
        intro part
        cases part <;> decide
      obtain ⟨hpart, hrest⟩ :=
        append_separator_unique ' ' rfl (hspace part) (hspace part') h
      obtain ⟨rfl, hcapacity⟩ := toString_append_unique ' ' rfl rfl hrest
      cases Part.name_injective hpart
      cases toString_injective hcapacity
      rfl
  | cipherFault fault fault' =>
      obtain ⟨reason⟩ := fault
      obtain ⟨reason'⟩ := fault'
      cases h
      rfl
  | lengthMismatch expected actual expected' actual' =>
      simp only [String.append_assoc, String.append_right_inj] at h
      obtain ⟨rfl, hactual⟩ := toString_append_unique ' ' rfl rfl h
      cases toString_injective hactual
      rfl
  | contentMismatch offset offset' expected actual expected' actual' =>
      simp only [showByte, String.append_assoc, String.append_right_inj] at h
      obtain ⟨rfl, hbytes⟩ := toString_append_unique ':' rfl rfl h
      simp only [String.append_right_inj] at hbytes
      obtain ⟨hexpected, hactual⟩ := append_separator_unique ',' rfl
        (Text.comma_notMem_encode _) (Text.comma_notMem_encode _) hbytes
      simp only [String.append_right_inj] at hactual
      cases Text.encode_byte_injective hexpected
      cases Text.encode_byte_injective hactual
      rfl

end Failure

/-! ## Outcomes -/

namespace Outcome

theorem head?_text (outcome : Outcome) :
    outcome.text.toList.head? = some (if outcome.isPass then 'P' else 'F') := by
  cases outcome with
  | pass => decide
  | fail failure =>
      simp only [text, String.append_assoc, String.toList_append, List.head?_append]
      rfl

theorem isUpper_of_head?_text {outcome : Outcome} {c : Char}
    (h : outcome.text.toList.head? = some c) : c.isUpper = true := by
  rw [head?_text, Option.some.injEq] at h
  subst h
  cases outcome.isPass <;> decide

theorem text_injective {outcome other : Outcome} (h : outcome.text = other.text) :
    outcome = other := by
  have hhead := congrArg (fun text => text.toList.head?) h
  simp only [head?_text] at hhead
  cases outcome with
  | pass =>
      cases other with
      | pass => rfl
      | fail failure => simp [isPass] at hhead
  | fail failure =>
      cases other with
      | pass => simp [isPass] at hhead
      | fail failure' =>
          have hcolon : ∀ failure : Failure, ':' ∉ failure.tag.toList := by
            intro failure
            rw [Failure.tag.eq_def]
            split <;> decide
          simp only [text, String.append_assoc, String.append_right_inj] at h
          obtain ⟨htag, hrest⟩ :=
            append_separator_unique ':' rfl (hcolon failure) (hcolon failure') h
          have htext := (String.append_left_inj _).mp hrest
          rw [(Failure.sameKind_of_tag_eq htag).eq_of_text_eq htext]

theorem capitals_text {outcome : Outcome} (h : ∀ fault, outcome ≠ .fail (.cipherFault fault)) :
    capitals outcome.text = 4 := by
  cases outcome with
  | pass => decide
  | fail failure =>
      have htext := Failure.plain_text fun fault hfault => h fault (congrArg _ hfault)
      simp only [text, capitals_append, capitals_eq_zero_of_plain failure.plain_tag,
        capitals_eq_zero_of_plain htext]
      decide +kernel

end Outcome

/-! ## Report lines -/

/-- No outcome is printed within another one behind a colon. -/
theorem eq_nil_of_append_text_eq {outcome other : Outcome} {between : List Char}
    (houtcome : ∀ fault, outcome ≠ .fail (.cipherFault fault))
    (hother : ∀ fault, other ≠ .fail (.cipherFault fault))
    (h : ": ".toList ++ outcome.text.toList = between ++ (": ".toList ++ other.text.toList)) :
    between = [] := by
  have hcapitals : outcome.text.toList.countP Char.isUpper = 4 := Outcome.capitals_text houtcome
  have hothers : other.text.toList.countP Char.isUpper = 4 := Outcome.capitals_text hother
  have hmark : ": ".toList = [':', ' '] := by decide
  rw [hmark] at h
  match between with
  | [] => rfl
  | [_] => cases h
  | _ :: _ :: rest =>
      simp only [List.cons_append, List.nil_append, List.cons.injEq] at h
      obtain ⟨-, -, htext⟩ := h
      -- the other outcome takes all capitals, but the first character has to be one
      have hfirst : ∀ c ∈ outcome.text.toList.head?, c.isUpper = true :=
        fun c => Outcome.isUpper_of_head?_text
      rw [htext] at hcapitals hfirst
      cases rest with
      | nil => exact absurd (hfirst ':' rfl) (by decide)
      | cons c rest =>
          rw [List.countP_append, List.countP_cons_of_pos (hfirst c rfl),
            List.countP_cons_of_neg (by decide), List.countP_cons_of_neg (by decide),
            hothers] at hcapitals
          omega

theorem line_injective {report other : Report}
    (hreport : ∀ fault, report.outcome ≠ .fail (.cipherFault fault))
    (hother : ∀ fault, other.outcome ≠ .fail (.cipherFault fault))
    (h : report.line = other.line) : report.id = other.id ∧ report.outcome = other.outcome := by
  have hlists := congrArg String.toList h
  simp only [Report.line, String.append_assoc, String.toList_append] at hlists
  have hid : report.id = other.id := by
    rcases List.append_eq_append_iff.mp hlists with ⟨between, hid, htext⟩ | ⟨between, hid, htext⟩
    · rw [eq_nil_of_append_text_eq hreport hother htext, List.append_nil] at hid
      exact (String.toList_inj.mp hid).symm
    · rw [eq_nil_of_append_text_eq hother hreport htext, List.append_nil] at hid
      exact String.toList_inj.mp hid
  rw [hid] at hlists
  have htext := List.append_cancel_left (List.append_cancel_left hlists)
  exact ⟨hid, Outcome.text_injective (String.toList_inj.mp htext)⟩

end Conformance

end KnownAnswer
