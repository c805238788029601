import KnownAnswer.Proofs.Loading

/-!
# Which documents are fixtures

A document is turned down as malformed exactly if it lacks the shape of a fixture, whatever else
may be wrong with it (`ofDocument_malformed_iff`).  That shape knows every key of the document and of
its vectors, and which of them are required.  It is wider than a schema of tables with known keys
only: a table that gives bytes may have keys beside its pattern and its length, and a vector may be
written as the array of its fields.  Nothing else sets the two apart (`malformed_exact`).
-/

namespace KnownAnswer

/-! ## Values that may be missing -/

section Option

variable {α β : Type}

theorem isSome_bind_iff {x : Option α} {f : α → Option β} :
    (x >>= f).isSome ↔ ∃ value, x = some value ∧ (f value).isSome := by
  cases x with
  | none => simp
  | some value => simp

theorem isSome_ite_none_iff {condition : Prop} [Decidable condition] {x : Option α} :
    (if condition then x else none).isSome ↔ condition ∧ x.isSome := by
  by_cases h : condition
  · simp [h]
  · simp [h]

theorem isSome_mapM_iff {f : α → Option β} {xs : List α} :
    (xs.mapM f).isSome ↔ ∀ x ∈ xs, (f x).isSome := by
  induction xs with
  | nil => simp
  | cons x rest ih =>
      rw [List.mapM_cons, isSome_bind_iff, List.forall_mem_cons, ← ih, Option.isSome_iff_exists]
      constructor
      · rintro ⟨value, hvalue, hrest⟩
        obtain ⟨values, hvalues, -⟩ := isSome_bind_iff.mp hrest
        exact ⟨⟨value, hvalue⟩, Option.isSome_iff_exists.mpr ⟨values, hvalues⟩⟩
      · rintro ⟨⟨value, hvalue⟩, hrest⟩
        obtain ⟨values, hvalues⟩ := Option.isSome_iff_exists.mp hrest
        exact ⟨value, hvalue, isSome_bind_iff.mpr ⟨values, hvalues, rfl⟩⟩

end Option

namespace Fixture

open Toml (Value field?)

/-! ## Shapes -/

/-- The value of a byte field: digits, or a table with a pattern and a length. -/
inductive GivesBytes : Value → Prop
  | digits (text : String) : GivesBytes (.string text)
  | cycled {fields : List (String × Value)} {pattern : String} {length : Nat}
      (hpattern : field? "repeat" fields = some (.string pattern))
      (hlength : field? "len" fields = some (.integer length)) : GivesBytes (.table fields)

/-- The fields of a vector. -/
structure GivesFields (fields : List (String × Value)) : Prop where
  known : ∀ key ∈ fields.map Prod.fst, key ∈ vectorKeys
  id : ∃ text, field? "id" fields = some (.string text)
  bytes : ∀ key ∈ ["key", "nonce", "header", "plaintext"], ∀ value,
    field? key fields = some value → GivesBytes value
  macLength : ∀ value, field? "mlen" fields = some value → ∃ size : Nat, value = .integer size
  expected : ∃ value, field? "expected" fields = some value ∧ GivesBytes value

/-- A vector: a table, or the array of all its fields with anything behind them. -/
inductive GivesVector : Value → Prop
  | table {fields : List (String × Value)} (h : GivesFields fields) : GivesVector (.table fields)
  | array {id : String} {key nonce header plaintext expected : Value} {size : Nat}
      {rest : List Value} (hkey : GivesBytes key) (hnonce : GivesBytes nonce)
      (hheader : GivesBytes header) (hplaintext : GivesBytes plaintext)
      (hexpected : GivesBytes expected) :
      GivesVector (.array (.string id :: key :: nonce :: header :: plaintext :: .integer size ::
        expected :: rest))

/-- A document with the shape of a fixture. -/
structure Shaped (document : List (String × Value)) : Prop where
  known : ∀ key ∈ document.map Prod.fst, key ∈ ["version", "vector"]
  version : ∃ version : Nat, field? "version" document = some (.integer version) ∧
    version < UInt32.size
  vectors : ∀ value, field? "vector" document = some value →
    ∃ items, value = .array items ∧ ∀ item ∈ items, GivesVector item

/-! ## The shape is looked at -/

theorem string?_eq_some_iff {value : Value} {text : String} :
    string? value = some text ↔ value = .string text := by
  cases value <;> simp [string?]

theorem natural?_eq_some_iff {value : Value} {n : Nat} :
    natural? value = some n ↔ value = .integer n := by
  cases value with
  | integer z =>
      simp only [natural?, Value.integer.injEq]
      split
      · simp only [Option.some.injEq]
        omega
      · simp only [reduceCtorEq, false_iff]
        omega
  | _ => simp [natural?]

theorem isSome_byteSource?_iff {value : Value} :
    (byteSource? value).isSome ↔ GivesBytes value := by
  cases value with
  | string text => exact ⟨fun _ => .digits text, fun _ => rfl⟩
  | table fields =>
      simp only [byteSource?, isSome_bind_iff, string?_eq_some_iff, natural?_eq_some_iff]
      constructor
      · rintro ⟨_, hpattern, _, rfl, _, hlength, _, rfl, -⟩
        exact .cycled hpattern hlength
      · rintro (_ | ⟨hpattern, hlength⟩)
        exact ⟨_, hpattern, _, rfl, _, hlength, _, rfl, rfl⟩
  | _ =>
      refine ⟨nofun, ?_⟩
      rintro ⟨⟩

theorem isSome_optional?_iff {α : Type} {kind : Value → Option α} {value : Option Value} :
    (optional? kind value).isSome ↔ ∀ given, value = some given → (kind given).isSome := by
  cases value with
  | none => simp [optional?]
  | some given => simp [optional?]

theorem isSome_natural?_iff {value : Value} :
    (natural? value).isSome ↔ ∃ n : Nat, value = .integer n := by
  simp only [Option.isSome_iff_exists, natural?_eq_some_iff]

theorem all_keys_iff {known : List String} {fields : List (String × Value)} :
    (fields.all fun (key, _) => key ∈ known) = true ↔ ∀ key ∈ fields.map Prod.fst, key ∈ known := by
  simp

theorem isSome_ofFields?_iff {fields : List (String × Value)} :
    (Draft.ofFields? fields).isSome ↔ GivesFields fields := by
  rw [Draft.ofFields?, isSome_ite_none_iff, all_keys_iff]
  -- what one field is read as has no part in how the others are looked at
  simp only [isSome_bind_iff, Option.pure_def, Option.isSome_some, and_true, exists_and_right,
    ← Option.isSome_iff_exists, isSome_optional?_iff, isSome_byteSource?_iff, isSome_natural?_iff,
    string?_eq_some_iff]
  constructor
  · rintro ⟨hknown, _, hid, ⟨text, rfl⟩, hkey, hnonce, hheader, hplaintext, hmac, hexpected⟩
    refine ⟨hknown, ⟨text, hid⟩, ?_, hmac, hexpected⟩
    simp only [List.forall_mem_cons]
    exact ⟨hkey, hnonce, hheader, hplaintext, nofun⟩
  · rintro ⟨hknown, ⟨text, hid⟩, hbytes, hmac, hexpected⟩
    simp only [List.forall_mem_cons] at hbytes
    obtain ⟨hkey, hnonce, hheader, hplaintext, -⟩ := hbytes
    exact ⟨hknown, _, hid, ⟨text, rfl⟩, hkey, hnonce, hheader, hplaintext, hmac, hexpected⟩

theorem isSome_ofItems?_cons_iff
    {id key nonce header plaintext macLength expected : Value} (rest : List Value) :
    (Draft.ofItems? (id :: key :: nonce :: header :: plaintext :: macLength :: expected ::
        rest)).isSome ↔
      (∃ text, id = .string text) ∧ GivesBytes key ∧ GivesBytes nonce ∧ GivesBytes header ∧
        GivesBytes plaintext ∧ (∃ size : Nat, macLength = .integer size) ∧ GivesBytes expected := by
  rw [Draft.ofItems?]
  simp only [isSome_bind_iff, Option.pure_def, Option.isSome_some, and_true, exists_and_right,
    ← Option.isSome_iff_exists, isSome_byteSource?_iff, isSome_natural?_iff, string?_eq_some_iff]

theorem isSome_ofItems?_iff {items : List Value} :
    (Draft.ofItems? items).isSome ↔ GivesVector (.array items) := by
  constructor
  · intro h
    rw [Draft.ofItems?.eq_def] at h
    split at h
    · rename_i rest
      obtain ⟨⟨text, rfl⟩, hkey, hnonce, hheader, hplaintext, ⟨size, rfl⟩, hexpected⟩ :=
        (isSome_ofItems?_cons_iff rest).mp h
      exact .array hkey hnonce hheader hplaintext hexpected
    · cases h
  · rintro (_ | ⟨hkey, hnonce, hheader, hplaintext, hexpected⟩)
    exact (isSome_ofItems?_cons_iff _).mpr
      ⟨⟨_, rfl⟩, hkey, hnonce, hheader, hplaintext, ⟨_, rfl⟩, hexpected⟩

theorem isSome_ofValue?_iff {value : Value} : (Draft.ofValue? value).isSome ↔ GivesVector value := by
  cases value with
  | table fields =>
      rw [Draft.ofValue?, isSome_ofFields?_iff]
      refine ⟨.table, ?_⟩
      rintro ⟨h⟩
      exact h
  | array items => rw [Draft.ofValue?, isSome_ofItems?_iff]
  | _ =>
      refine ⟨nofun, ?_⟩
      rintro ⟨⟩

theorem isSome_version?_iff {value : Value} :
    (version? value).isSome ↔ ∃ version : Nat, value = .integer version ∧ version < UInt32.size := by
  simp only [version?, isSome_bind_iff, natural?_eq_some_iff, isSome_ite_none_iff]
  simp

theorem isSome_drafts?_iff {value : Value} :
    (drafts? value).isSome ↔ ∃ items, value = .array items ∧ ∀ item ∈ items, GivesVector item := by
  cases value with
  | array items =>
      simp only [drafts?, isSome_mapM_iff, isSome_ofValue?_iff, Value.array.injEq, exists_eq_left']
  | _ => simp [drafts?]

/-- A document is read up to its bytes exactly if it has the shape of a fixture. -/
theorem isSome_ofDocument?_iff {document : List (String × Value)} :
    (Draft.File.ofDocument? document).isSome ↔ Shaped document := by
  rw [Draft.File.ofDocument?, isSome_ite_none_iff, all_keys_iff]
  simp only [isSome_bind_iff, Option.pure_def, Option.isSome_some, and_true, exists_and_right,
    ← Option.isSome_iff_exists, isSome_optional?_iff, isSome_version?_iff, isSome_drafts?_iff]
  constructor
  · rintro ⟨hknown, _, hfield, ⟨version, rfl, hversion⟩, hvectors⟩
    exact ⟨hknown, ⟨version, hfield, hversion⟩, hvectors⟩
  · rintro ⟨hknown, ⟨version, hfield, hversion⟩, hvectors⟩
    exact ⟨hknown, _, hfield, ⟨version, rfl, hversion⟩, hvectors⟩

/-! ## Nothing else is malformed -/

theorem ByteSource.decode_ne_malformed (source : ByteSource) (vector : String) (field : ByteField) :
    source.decode vector field ≠ .error .malformed := by
  intro h
  cases source with
  | digits text =>
      obtain ⟨fault, -, hfault⟩ := mapError_eq_error_iff.mp h
      cases hfault
  | cycled pattern length =>
      rcases bind_eq_error_iff.mp h with hpattern | ⟨bytes, -, hbytes⟩
      · obtain ⟨fault, -, hfault⟩ := mapError_eq_error_iff.mp hpattern
        cases hfault
      · split at hbytes <;> cases hbytes

theorem decodeOptional_ne_malformed (source : Option ByteSource) (vector : String)
    (field : ByteField) : decodeOptional vector field source ≠ .error .malformed := by
  intro h
  cases source with
  | none => cases h
  | some source =>
      rcases bind_eq_error_iff.mp h with hsource | ⟨bytes, -, hbytes⟩
      · exact source.decode_ne_malformed vector field hsource
      · cases hbytes

theorem Draft.decode_ne_malformed (draft : Draft) : draft.decode ≠ .error .malformed := by
  intro h
  rw [Draft.decode] at h
  simp only [bind_eq_error_iff, decodeOptional_ne_malformed, ByteSource.decode_ne_malformed,
    false_or] at h
  obtain ⟨_, -, _, -, _, -, _, -, _, -, hreturn⟩ := h
  cases hreturn

theorem Draft.File.decode_ne_malformed (file : Draft.File) : file.decode ≠ .error .malformed := by
  intro h
  rw [Draft.File.decode] at h
  split at h
  · rcases bind_eq_error_iff.mp h with hdrafts | ⟨vectors, -, hids⟩
    · obtain ⟨_, draft, _, -, -, hdraft⟩ := mapM_eq_error_iff.mp hdrafts
      exact draft.decode_ne_malformed hdraft
    · rcases bind_eq_error_iff.mp hids with hids | ⟨_, -, hreturn⟩
      · obtain ⟨id, hid, -⟩ := requireDistinctIds_eq_error_iff.mp hids
        cases hid
      · cases hreturn
  · cases h

theorem ofDocument_malformed_iff {document : List (String × Value)} :
    ofDocument document = .error .malformed ↔ ¬ Shaped document := by
  rw [← isSome_ofDocument?_iff, ofDocument]
  cases Draft.File.ofDocument? document with
  | none => simp
  | some file => simpa using file.decode_ne_malformed

theorem parse_malformed_iff {text : String} :
    parse text = .error .malformed ↔
      ∀ document, Toml.document? text = some document → ¬ Shaped document := by
  rw [parse]
  cases Toml.document? text with
  | none => simp
  | some document => simp [ofDocument_malformed_iff]

/-! ## A schema of tables with known keys -/

/-- A table all of whose keys are known and that has all that are required. -/
structure Closed (known required : List String) (fields : List (String × Value)) : Prop where
  known : ∀ key ∈ fields.map Prod.fst, key ∈ known
  required : ∀ key ∈ required, key ∈ fields.map Prod.fst

/-- A byte field of the schema: digits, or a table with exactly a pattern and a length. -/
inductive StrictBytes : Value → Prop
  | digits (text : String) : StrictBytes (.string text)
  | cycled {fields : List (String × Value)} (h : Closed ["repeat", "len"] ["repeat", "len"] fields) :
      StrictBytes (.table fields)

def byteKeys : List String := ["key", "nonce", "header", "plaintext", "expected"]

/-- A vector of the schema. -/
inductive StrictVector : Value → Prop
  | table {fields : List (String × Value)} (hkeys : Closed vectorKeys ["id", "expected"] fields)
      (hbytes : ∀ key ∈ byteKeys, ∀ value, field? key fields = some value → StrictBytes value) :
      StrictVector (.table fields)

/-- A document of the schema. -/
structure Strict (document : List (String × Value)) : Prop where
  keys : Closed ["version", "vector"] ["version"] document
  vectors : ∀ value, field? "vector" document = some value →
    ∃ items, value = .array items ∧ ∀ item ∈ items, StrictVector item

/-- The values that a document gives for vectors. -/
def entries (document : List (String × Value)) : List Value :=
  match field? "vector" document with
  | some (.array items) => items
  | _ => []

/-- No table that gives bytes to a vector has a key that is passed over. -/
def NoStrays (document : List (String × Value)) : Prop :=
  ∀ fields, .table fields ∈ entries document → ∀ key ∈ byteKeys, ∀ inner,
    field? key fields = some (.table inner) → ∀ stray ∈ inner.map Prod.fst,
      stray ∈ ["repeat", "len"]

theorem mem_keys_of_field? {key : String} {fields : List (String × Value)} {value : Value}
    (h : field? key fields = some value) : key ∈ fields.map Prod.fst := by
  obtain ⟨before, after, rfl, -⟩ := List.lookup_eq_some_iff.mp h
  simp

theorem mem_entries_iff {item : Value} {document : List (String × Value)} :
    item ∈ entries document ↔
      ∃ items, field? "vector" document = some (.array items) ∧ item ∈ items := by
  rw [entries]
  split
  · rename_i items hfield
    simp [hfield]
  · rename_i hother
    simp only [List.not_mem_nil, false_iff]
    rintro ⟨items, hfield, -⟩
    exact hother items hfield

theorem GivesBytes.required {inner : List (String × Value)} (h : GivesBytes (.table inner)) :
    ∀ needed ∈ ["repeat", "len"], needed ∈ inner.map Prod.fst := by
  obtain _ | ⟨hpattern, hlength⟩ := h
  simp only [List.forall_mem_cons]
  exact ⟨mem_keys_of_field? hpattern, mem_keys_of_field? hlength, nofun⟩

theorem GivesBytes.strict {value : Value} (h : GivesBytes value)
    (hkeys : ∀ fields, value = .table fields →
      ∀ stray ∈ fields.map Prod.fst, stray ∈ ["repeat", "len"]) : StrictBytes value := by
  cases h with
  | digits text => exact .digits text
  | cycled hpattern hlength =>
      exact .cycled ⟨hkeys _ rfl, (GivesBytes.cycled hpattern hlength).required⟩

theorem GivesFields.givesBytes {fields : List (String × Value)} (h : GivesFields fields)
    {key : String} (hkey : key ∈ byteKeys) {value : Value} (hvalue : field? key fields = some value) :
    GivesBytes value := by
  by_cases hexpected : key = "expected"
  · obtain ⟨other, hother, hgives⟩ := h.expected
    rw [← hexpected, hvalue] at hother
    cases hother
    exact hgives
  · refine h.bytes key ?_ value hvalue
    simpa [byteKeys, hexpected] using hkey

theorem GivesFields.closed {fields : List (String × Value)} (h : GivesFields fields) :
    Closed vectorKeys ["id", "expected"] fields := by
  obtain ⟨text, hid⟩ := h.id
  obtain ⟨value, hexpected, -⟩ := h.expected
  refine ⟨h.known, ?_⟩
  simp only [List.forall_mem_cons]
  exact ⟨mem_keys_of_field? hid, mem_keys_of_field? hexpected, nofun⟩

theorem Shaped.closed {document : List (String × Value)} (h : Shaped document) :
    Closed ["version", "vector"] ["version"] document := by
  obtain ⟨version, hversion, -⟩ := h.version
  refine ⟨h.known, ?_⟩
  rw [List.forall_mem_singleton]
  exact mem_keys_of_field? hversion

theorem Shaped.givesVector {document : List (String × Value)} (h : Shaped document)
    {item : Value} (hitem : item ∈ entries document) : GivesVector item := by
  obtain ⟨items, hfield, hmem⟩ := mem_entries_iff.mp hitem
  obtain ⟨_, ⟨⟩, hgives⟩ := h.vectors _ hfield
  exact hgives item hmem

theorem Shaped.givesFields {document : List (String × Value)} (h : Shaped document)
    {fields : List (String × Value)} (hfields : .table fields ∈ entries document) :
    GivesFields fields := by
  obtain ⟨hgives⟩ := h.givesVector hfields
  exact hgives

theorem strict_iff {document : List (String × Value)} (h : Shaped document) :
    Strict document ↔
      (∀ item ∈ entries document, ∃ fields, item = .table fields) ∧ NoStrays document := by
  constructor
  · rintro ⟨-, hvectors⟩
    have hitem : ∀ item ∈ entries document, StrictVector item := by
      intro item hitem
      obtain ⟨items, hfield, hmem⟩ := mem_entries_iff.mp hitem
      obtain ⟨_, ⟨⟩, hstrict⟩ := hvectors _ hfield
      exact hstrict item hmem
    refine ⟨fun item hmem => ?_, fun fields hmem key hkey inner hinner => ?_⟩
    · obtain ⟨-, -⟩ := hitem item hmem
      exact ⟨_, rfl⟩
    · obtain ⟨-, hbytes⟩ := hitem _ hmem
      obtain _ | hclosed := hbytes key hkey _ hinner
      exact hclosed.known
  · rintro ⟨htables, hstrays⟩
    refine ⟨h.closed, fun value hvalue => ?_⟩
    obtain ⟨items, rfl, -⟩ := h.vectors value hvalue
    refine ⟨items, rfl, fun item hmem => ?_⟩
    have hentry := mem_entries_iff.mpr ⟨items, hvalue, hmem⟩
    obtain ⟨fields, rfl⟩ := htables item hentry
    have hfields := h.givesFields hentry
    refine .table hfields.closed fun key hkey value hfield => ?_
    refine (hfields.givesBytes hkey hfield).strict ?_
    rintro inner rfl
    exact hstrays fields hentry key hkey inner hfield

/-- **What is malformed.** A document is turned down as malformed exactly if it lacks the shape of a
fixture, and a text exactly if it stands for no document with that shape.  Where vectors are made,
the document and every table among its vectors have only known keys and none of the required ones is
missing, and no table that gives bytes lacks its pattern or its length.  The document is one of the
schema exactly if, besides, no vector is written as an array and no table that gives bytes has
another key. -/
theorem malformed_exact (document : List (String × Value)) :
    (ofDocument document = .error .malformed ↔ ¬ Shaped document) ∧
    (∀ text, parse text = .error .malformed ↔
      ∀ meant, Toml.document? text = some meant → ¬ Shaped meant) ∧
    (∀ vectors, ofDocument document = .ok vectors →
      Closed ["version", "vector"] ["version"] document ∧
      ∀ fields, .table fields ∈ entries document →
        Closed vectorKeys ["id", "expected"] fields ∧
        ∀ key ∈ byteKeys, ∀ inner, field? key fields = some (.table inner) →
          ∀ needed ∈ ["repeat", "len"], needed ∈ inner.map Prod.fst) ∧
    (Shaped document → (Strict document ↔
      (∀ item ∈ entries document, ∃ fields, item = .table fields) ∧ NoStrays document)) := by
  refine ⟨ofDocument_malformed_iff, fun _ => parse_malformed_iff, fun vectors hvectors => ?_,
    strict_iff⟩
  have hshaped : Shaped document := by
    by_contra hnot
    rw [ofDocument_malformed_iff.mpr hnot] at hvectors
    cases hvectors
  refine ⟨hshaped.closed, fun fields hentry => ?_⟩
  have hfields := hshaped.givesFields hentry
  exact ⟨hfields.closed, fun key hkey inner hinner => (hfields.givesBytes hkey hinner).required⟩

/-- A byte field with a key that is passed over, and a vector that is an array. -/
theorem malformed_exact_stray_key :
    let inner := [("repeat", .string "01"), ("len", .integer 2), ("lenght", .integer 3)]
    let fields := [("id", .string "a"), ("plaintext", .table inner), ("expected", .string "")]
    let items : List Value := [.string "a", .string "", .string "", .string "", .string "0101",
      .integer 4, .string ""]
    let document (entry : Value) := [("version", .integer 1), ("vector", .array [entry])]
    ofDocument (document (.table fields)) = .ok [{ id := "a", plaintext := [1, 1] }] ∧
      ¬ Strict (document (.table fields)) ∧
      ofDocument (document (.array items)) =
        .ok [{ id := "a", key := some [], nonce := some [], plaintext := [1, 1],
               macLength := some 4 }] ∧
      ¬ Strict (document (.array items)) := by
  intro inner fields items document
  refine ⟨by decide +kernel, ?_, by decide +kernel, ?_⟩
  · rintro ⟨-, hvectors⟩
    obtain ⟨_, ⟨⟩, hstrict⟩ := hvectors _ rfl
    obtain ⟨-, hbytes⟩ := hstrict (.table fields) List.mem_cons_self
    obtain _ | hclosed := hbytes "plaintext" (by decide) (.table inner) rfl
    exact absurd (hclosed.known "lenght" (by decide)) (by decide)
  · rintro ⟨-, hvectors⟩
    obtain ⟨_, ⟨⟩, hstrict⟩ := hvectors _ rfl
    cases hstrict (.array items) List.mem_cons_self

end Fixture

end KnownAnswer
