import KnownAnswer.Proofs.Sealing
import KnownAnswer.TestVector

/-!
# Which vectors are admitted

A vector is looked at by eight conditions, one after the other, and is turned down for the first
that does not hold (`TestVector.firstViolation_eq`).  One that is admitted supplies one key, one
nonce and one length of tag, and these are its own (`TestVector.validate_eq_ok_iff`).
-/

namespace KnownAnswer

/-! ## Computations that may be refused -/

section Except

variable {ε α β : Type}

@[simp] theorem ok_bind (value : α) (f : α → Except ε β) : (Except.ok value >>= f) = f value := rfl

@[simp] theorem error_bind (reason : ε) (f : α → Except ε β) :
    ((Except.error reason : Except ε α) >>= f) = .error reason := rfl

theorem bind_eq_ok_iff {x : Except ε α} {f : α → Except ε β} {result : β} :
    (x >>= f) = .ok result ↔ ∃ value, x = .ok value ∧ f value = .ok result := by
  cases x with
  | error reason => simp
  | ok value => simp

/-- A value that is only made under a condition. -/
theorem dite_eq_ok_iff {condition : Prop} [Decidable condition] {make : condition → α}
    {reason : ε} {value : α} :
    (if h : condition then Except.ok (make h) else .error reason) = .ok value ↔
      ∃ h, make h = value := by
  by_cases h : condition
  · simp [h]
  · simp [h]

end Except

/-! ## Values of the right size -/

namespace Ccm

@[simp] theorem require_some {α : Type} (input : Input) (value : α) :
    require input (some value) = .ok value := rfl

@[simp] theorem require_none {α : Type} (input : Input) :
    require input (none : Option α) = .error (.missing input) := rfl

theorem require_eq_ok_iff {α : Type} {input : Input} {candidate : Option α} {value : α} :
    require input candidate = .ok value ↔ candidate = some value := by
  cases candidate with
  | none => simp
  | some other => simp

theorem Key.length_toBytes (key : Key) : key.toBytes.length = 16 := by simp [Key.toBytes]

theorem Key.ofBytes_of_ne {bytes : Bytes} (h : bytes.length ≠ 16) :
    Key.ofBytes bytes = .error (.keyLength 16 bytes.length) := dif_neg h

theorem Key.exists_ofBytes {bytes : Bytes} (h : bytes.length = 16) :
    ∃ key, Key.ofBytes bytes = .ok key := ⟨_, dif_pos h⟩

theorem Key.ofBytes_eq_ok_iff {bytes : Bytes} {key : Key} :
    Key.ofBytes bytes = .ok key ↔ bytes = key.toBytes := by
  rw [Key.ofBytes, dite_eq_ok_iff]
  constructor
  · rintro ⟨_, rfl⟩
    rfl
  · rintro rfl
    exact ⟨key.length_toBytes, rfl⟩

theorem Nonce.ofBytes_of_ne {bytes : Bytes} (h : bytes.length ≠ 13) :
    Nonce.ofBytes bytes = .error (.nonceLength 13 bytes.length) := dif_neg h

theorem Nonce.exists_ofBytes {bytes : Bytes} (h : bytes.length = 13) :
    ∃ nonce, Nonce.ofBytes bytes = .ok nonce := ⟨_, dif_pos h⟩

theorem Nonce.ofBytes_eq_ok_iff {bytes : Bytes} {nonce : Nonce} :
    Nonce.ofBytes bytes = .ok nonce ↔ bytes = nonce.toBytes := by
  rw [Nonce.ofBytes, dite_eq_ok_iff]
  constructor
  · rintro ⟨_, rfl⟩
    rfl
  · rintro rfl
    exact ⟨length_toBytes_nonce nonce, rfl⟩

theorem MacLength.ofNat_of_not {size : Nat} (h : ¬ ((4 ≤ size ∧ size ≤ 16) ∧ size % 2 = 0)) :
    MacLength.ofNat size = .error (.macLength size) := dif_neg h

theorem MacLength.exists_ofNat {size : Nat} (h : (4 ≤ size ∧ size ≤ 16) ∧ size % 2 = 0) :
    ∃ macLength, MacLength.ofNat size = .ok macLength := ⟨_, dif_pos h⟩

theorem MacLength.ofNat_eq_ok_iff {size : Nat} {macLength : MacLength} :
    MacLength.ofNat size = .ok macLength ↔ size = macLength.size := by
  rw [MacLength.ofNat, dite_eq_ok_iff]
  constructor
  · rintro ⟨_, rfl⟩
    rfl
  · rintro rfl
    exact ⟨⟨⟨macLength.min_le, macLength.le_max⟩, macLength.even⟩, rfl⟩

theorem Lengths.check_of_header_lt {header : Nat} (h : 65535 < header) (payload : Nat) :
    Lengths.check header payload = .error (.tooLong .header header 65535) :=
  dif_neg (Nat.not_le_of_lt h)

theorem Lengths.check_of_payload_lt {header payload : Nat} (hheader : header ≤ 65535)
    (h : 65535 < payload) :
    Lengths.check header payload = .error (.tooLong .payload payload 65535) :=
  (dif_pos hheader).trans (dif_neg (Nat.not_le_of_lt h))

theorem Lengths.check_eq_ok_iff {header payload : Nat} {lengths : Lengths} :
    Lengths.check header payload = .ok lengths ↔
      header = lengths.header ∧ payload = lengths.payload := by
  constructor
  · intro h
    rw [Lengths.check] at h
    split at h
    · split at h
      · cases h
        exact ⟨rfl, rfl⟩
      · cases h
    · cases h
  · rintro ⟨rfl, rfl⟩
    exact check_of_le lengths.header_le lengths.payload_le

end Ccm

open Ccm (Parameters Rejection)

namespace TestVector

/-! ## The conditions in order -/

/-- The conditions on a vector in the order in which they are looked at, each with what is reported
when it is the first that does not hold. -/
def conditions (vector : TestVector) : List (Bool × Rejection) :=
  let key := vector.bytesOf .key
  let nonce := vector.bytesOf .nonce
  let size := vector.macLength.getD 0
  [(vector.key.isSome, .missing .key),
    (key.length = 16, .keyLength 16 key.length),
    (vector.nonce.isSome, .missing .nonce),
    (vector.macLength.isSome, .missing .macLength),
    (nonce.length = 13, .nonceLength 13 nonce.length),
    ((4 ≤ size ∧ size ≤ 16) ∧ size % 2 = 0, .macLength size),
    (vector.header.length ≤ 65535, .tooLong .header vector.header.length 65535),
    (vector.plaintext.length ≤ 65535, .tooLong .payload vector.plaintext.length 65535)]

/-- What is reported of the first condition that does not hold. -/
def firstViolation (vector : TestVector) : Option Rejection :=
  (vector.conditions.find? fun (holds, _) => !holds).map Prod.snd

/-- **Validation reports the first violation.** -/
theorem firstViolation_eq (vector : TestVector) :
    vector.firstViolation =
      match vector.validate with
      | .error reason => some reason
      | .ok _ => none := by
  obtain ⟨id, key, nonce, header, plaintext, size, expected⟩ := vector
  simp only [firstViolation, conditions, bytesOf, validate, Parameters.check]
  -- one condition after the other is taken to hold, in their order
  cases key with
  | none => rfl
  | some key =>
    by_cases hkey : key.length = 16
    case neg => simp [hkey, Ccm.Key.ofBytes_of_ne hkey]
    obtain ⟨_, hkeyOk⟩ := Ccm.Key.exists_ofBytes hkey
    cases nonce with
    | none => simp [hkey, hkeyOk]
    | some nonce =>
      cases size with
      | none => simp [hkey, hkeyOk]
      | some size =>
        by_cases hnonce : nonce.length = 13
        case neg => simp [hkey, hkeyOk, hnonce, Ccm.Nonce.ofBytes_of_ne hnonce]
        obtain ⟨_, hnonceOk⟩ := Ccm.Nonce.exists_ofBytes hnonce
        by_cases hsize : (4 ≤ size ∧ size ≤ 16) ∧ size % 2 = 0
        case neg =>
          have hsizeError := Ccm.MacLength.ofNat_of_not hsize
          simp [hkey, hkeyOk, hnonce, hnonceOk, hsize, hsizeError]
        obtain ⟨_, hsizeOk⟩ := Ccm.MacLength.exists_ofNat hsize
        by_cases hheader : header.length ≤ 65535
        case neg =>
          have hlengths := Ccm.Lengths.check_of_header_lt (Nat.lt_of_not_le hheader)
            plaintext.length
          simp [hkey, hkeyOk, hnonce, hnonceOk, hsize, hsizeOk, hheader, hlengths]
        by_cases hplaintext : plaintext.length ≤ 65535
        case neg =>
          have hlengths := Ccm.Lengths.check_of_payload_lt hheader (Nat.lt_of_not_le hplaintext)
          simp [hkey, hkeyOk, hnonce, hnonceOk, hsize, hsizeOk, hheader, hplaintext, hlengths]
        have hlengths := Ccm.check_of_le hheader hplaintext
        simp [hkey, hkeyOk, hnonce, hnonceOk, hsize, hsizeOk, hheader, hplaintext, hlengths]

/-! ## What an admitted vector supplies -/

/-- The parameters that are written in a vector whose header and plaintext are within capacity. -/
structure Supplies (vector : TestVector) (parameters : Parameters) : Prop where
  key : vector.key = some parameters.key.toBytes
  nonce : vector.nonce = some parameters.nonce.toBytes
  macLength : vector.macLength = some parameters.macLength.size
  header_le : vector.header.length ≤ 65535
  plaintext_le : vector.plaintext.length ≤ 65535

theorem check_eq_ok_iff {key nonce : Option Bytes} {size : Option Nat} {parameters : Parameters} :
    Parameters.check key nonce size = .ok parameters ↔
      key = some parameters.key.toBytes ∧ nonce = some parameters.nonce.toBytes ∧
        size = some parameters.macLength.size := by
  simp only [Parameters.check, bind_eq_ok_iff, Ccm.require_eq_ok_iff, Ccm.Key.ofBytes_eq_ok_iff,
    Ccm.Nonce.ofBytes_eq_ok_iff, Ccm.MacLength.ofNat_eq_ok_iff]
  constructor
  · rintro ⟨_, hkey, key, rfl, _, hnonce, _, hsize, nonce, rfl, macLength, rfl, hparameters⟩
    cases hparameters
    exact ⟨hkey, hnonce, hsize⟩
  · rintro ⟨hkey, hnonce, hsize⟩
    exact ⟨_, hkey, _, rfl, _, hnonce, _, hsize, _, rfl, _, rfl, rfl⟩

theorem validate_eq_ok_iff {vector : TestVector} {parameters : Parameters} :
    vector.validate = .ok parameters ↔ vector.Supplies parameters := by
  simp only [validate, bind_eq_ok_iff, check_eq_ok_iff, Ccm.Lengths.check_eq_ok_iff]
  constructor
  · rintro ⟨_, ⟨hkey, hnonce, hsize⟩, lengths, ⟨hheader, hplaintext⟩, hparameters⟩
    cases hparameters
    exact ⟨hkey, hnonce, hsize, hheader ▸ lengths.header_le, hplaintext ▸ lengths.payload_le⟩
  · rintro ⟨hkey, hnonce, hsize, hheader, hplaintext⟩
    exact ⟨_, ⟨hkey, hnonce, hsize⟩, ⟨_, _, hheader, hplaintext⟩, ⟨rfl, rfl⟩, rfl⟩

end TestVector

end KnownAnswer
