import KnownAnswer.Proofs.Loading

/-!
# What a fixture is decoded to

A fixture that has the right shape is answered in a fixed order.  The version is looked at first,
whatever the vectors hold; then every byte field that is given, vector by vector, and the first
that is wrong decides, even where ids repeat before it; then the ids.  Only then are there vectors,
one for each that is written, each with the bytes of its own fields (`parse_faithful`).
-/

namespace KnownAnswer

/-! ## Walks over parts -/

section FirstError

variable {ε α β γ δ : Type} {f : α → Except ε β} {xs : List α} {reason : ε}

theorem exists_eq_ok_iff {x : Except ε α} :
    (∃ value, x = .ok value) ↔ ∀ reason, x ≠ .error reason := by
  cases x with
  | error reason => simp
  | ok value => simp

theorem pure_ne_error (value : α) (reason : ε) : (pure value : Except ε α) ≠ .error reason := nofun

theorem not_firstError_nil : ¬ FirstError f [] reason := by
  rintro ⟨before, x, after, hsplit, -⟩
  cases before <;> cases hsplit

theorem forall_ok_iff :
    (∀ x ∈ xs, ∃ value, f x = .ok value) ↔ ∀ reason, ¬ FirstError f xs reason := by
  constructor
  · rintro hall reason ⟨before, x, after, rfl, -, hx⟩
    exact exists_eq_ok_iff.mp (hall x (by simp)) reason hx
  · intro hnone
    induction xs with
    | nil => exact nofun
    | cons x xs ih =>
        simp only [firstError_cons, not_or, not_exists, not_and] at hnone
        obtain ⟨value, hvalue⟩ := exists_eq_ok_iff.mpr fun reason => (hnone reason).1
        have hrest := ih fun reason => (hnone reason).2 value hvalue
        exact List.forall_mem_cons.mpr ⟨⟨value, hvalue⟩, hrest⟩

theorem firstError_append {ys : List α} :
    FirstError f (xs ++ ys) reason ↔
      FirstError f xs reason ∨
        (∀ x ∈ xs, ∃ value, f x = .ok value) ∧ FirstError f ys reason := by
  induction xs with
  | nil => simp [not_firstError_nil]
  | cons x xs ih =>
      rw [List.cons_append, firstError_cons, ih, firstError_cons, List.forall_mem_cons]
      constructor
      · rintro (hx | ⟨value, hvalue, hxs | ⟨hall, hys⟩⟩)
        · exact .inl (.inl hx)
        · exact .inl (.inr ⟨value, hvalue, hxs⟩)
        · exact .inr ⟨⟨⟨value, hvalue⟩, hall⟩, hys⟩
      · rintro ((hx | ⟨value, hvalue, hxs⟩) | ⟨⟨⟨value, hvalue⟩, hall⟩, hys⟩)
        · exact .inl hx
        · exact .inr ⟨value, hvalue, .inl hxs⟩
        · exact .inr ⟨value, hvalue, .inr ⟨hall, hys⟩⟩

/-- Where the steps of a walk are walks themselves, the first error is that of the long walk. -/
theorem firstError_flatMap {parts : α → List γ} {g : γ → Except ε δ}
    (h : ∀ x reason, f x = .error reason ↔ FirstError g (parts x) reason) :
    FirstError f xs reason ↔ FirstError g (xs.flatMap parts) reason := by
  induction xs with
  | nil => simp [not_firstError_nil]
  | cons x xs ih =>
      have hok : (∃ value, f x = .ok value) ↔ ∀ part ∈ parts x, ∃ value, g part = .ok value := by
        rw [exists_eq_ok_iff, forall_ok_iff]
        exact forall_congr' fun reason => not_congr (h x reason)
      rw [firstError_cons, exists_and_right, List.flatMap_cons, firstError_append, h, hok, ih]

end FirstError

namespace Fixture

/-! ## Byte fields -/

/-- A byte field of a fixture: the id of its vector, which field it is, and how its bytes are
given. -/
structure Place where
  vector : String
  field : ByteField
  source : ByteSource
  deriving DecidableEq

def Place.decode (place : Place) : Except LoadError Bytes :=
  place.source.decode place.vector place.field

/-- The byte field that an error names. -/
def LoadError.place? : LoadError → Option (String × ByteField)
  | .invalidHex vector field _ => some (vector, field)
  | .emptyPattern vector field => some (vector, field)
  | _ => none

/-- How a draft gives the bytes of a field, if it does. -/
def Draft.source? (draft : Draft) : ByteField → Option ByteSource
  | .key => draft.key
  | .nonce => draft.nonce
  | .header => draft.header
  | .plaintext => draft.plaintext
  | .expected => some draft.expected

def Draft.place? (draft : Draft) (field : ByteField) : Option Place :=
  (draft.source? field).map fun source => { vector := draft.id, field, source }

/-- The byte fields that a draft gives, in the order in which they are read. -/
def Draft.places (draft : Draft) : List Place :=
  [ByteField.key, .nonce, .header, .plaintext, .expected].filterMap draft.place?

/-- The byte fields that a fixture gives: those of its first vector, then those of its second, and
so on. -/
def Draft.File.places (file : Draft.File) : List Place := file.drafts.flatMap Draft.places

theorem Place.place?_of_error {place : Place} {error : LoadError}
    (h : place.decode = .error error) : error.place? = some (place.vector, place.field) := by
  obtain ⟨vector, field, source⟩ := place
  cases source with
  | digits text =>
      obtain ⟨fault, -, rfl⟩ := mapError_eq_error_iff.mp h
      rfl
  | cycled pattern length =>
      rcases bind_eq_error_iff.mp h with hpattern | ⟨bytes, -, hbytes⟩
      · obtain ⟨fault, -, rfl⟩ := mapError_eq_error_iff.mp hpattern
        rfl
      · split at hbytes
        · cases hbytes
          rfl
        · cases hbytes

/-! ## Errors of a draft -/

theorem decodeOptional_eq_error_iff {vector : String} {field : ByteField}
    {source : Option ByteSource} {error : LoadError} :
    decodeOptional vector field source = .error error ↔
      FirstError Place.decode (source.map (Place.mk vector field)).toList error := by
  cases source with
  | none =>
      refine ⟨nofun, fun h => ?_⟩
      exact (not_firstError_nil h).elim
  | some source =>
      rw [Option.map_some, Option.toList_some, firstError_cons, decodeOptional, bind_eq_error_iff]
      simp [not_firstError_nil, Place.decode, pure_ne_error]

theorem decodeOptional_ok_iff {vector : String} {field : ByteField}
    {source : Option ByteSource} :
    (∃ bytes, decodeOptional vector field source = .ok bytes) ↔
      ∀ place ∈ (source.map (Place.mk vector field)).toList, ∃ bytes, place.decode = .ok bytes := by
  rw [exists_eq_ok_iff, forall_ok_iff]
  exact forall_congr' fun error => not_congr decodeOptional_eq_error_iff

theorem Draft.decode_eq_error_iff {draft : Draft} {error : LoadError} :
    draft.decode = .error error ↔ FirstError Place.decode draft.places error := by
  have hexpected : draft.expected.decode draft.id .expected = .error error ↔
      FirstError Place.decode [⟨draft.id, .expected, draft.expected⟩] error := by
    rw [firstError_cons]
    simp [not_firstError_nil, Place.decode]
  rw [Draft.decode, Draft.places, List.filterMap_eq_flatMap_toList]
  -- a field is read whatever the fields before it hold, once they are right
  simp only [bind_eq_error_iff, pure_ne_error, and_false, exists_false, or_false, exists_and_right,
    decodeOptional_eq_error_iff, decodeOptional_ok_iff, hexpected, List.flatMap_cons,
    List.flatMap_nil, List.append_nil, firstError_append]
  rfl

/-! ## The vector of a draft -/

/-- A vector with what is written in a draft: id, tag length, and the bytes of each field that is
given, under the name of that field.  Key and nonce may be absent, and header and plaintext are
empty where they are not given. -/
structure Decodes (draft : Draft) (vector : TestVector) : Prop where
  id : vector.id = draft.id
  macLength : vector.macLength = draft.macLength
  key : vector.key.isSome = draft.key.isSome
  nonce : vector.nonce.isSome = draft.nonce.isSome
  given : ∀ field source, draft.source? field = some source →
    source.decode draft.id field = .ok (vector.bytesOf field)
  absent : ∀ field, draft.source? field = none → vector.bytesOf field = []

theorem decodeOptional_eq_ok_iff {vector : String} {field : ByteField}
    {source : Option ByteSource} {result : Option Bytes} :
    decodeOptional vector field source = .ok result ↔
      result.isSome = source.isSome ∧ ∀ given, source = some given →
        given.decode vector field = .ok (result.getD []) := by
  cases source with
  | none =>
      cases result with
      | none => exact ⟨fun _ => ⟨rfl, nofun⟩, fun _ => rfl⟩
      | some bytes => exact ⟨nofun, nofun⟩
  | some source =>
      rw [decodeOptional, bind_eq_ok_iff]
      constructor
      · rintro ⟨bytes, hbytes, hreturn⟩
        cases hreturn
        refine ⟨rfl, ?_⟩
        rintro _ ⟨⟩
        exact hbytes
      · rintro ⟨hsome, hgiven⟩
        obtain ⟨bytes, rfl⟩ := Option.isSome_iff_exists.mp hsome
        exact ⟨bytes, hgiven source rfl, rfl⟩

theorem getD_eq_nil_of_isSome_eq {result : Option Bytes} {source : Option ByteSource}
    (hsame : result.isSome = source.isSome) (hnone : source = none) : result.getD [] = [] := by
  subst hnone
  rw [Option.isSome_none, Option.isSome_eq_false_iff, Option.isNone_iff_eq_none] at hsame
  rw [hsame, Option.getD_none]

theorem Draft.decode_eq_ok_iff {draft : Draft} {vector : TestVector} :
    draft.decode = .ok vector ↔ Decodes draft vector := by
  simp only [Draft.decode, bind_eq_ok_iff, decodeOptional_eq_ok_iff]
  constructor
  · rintro ⟨key, ⟨hkey, hkeyBytes⟩, nonce, ⟨hnonce, hnonceBytes⟩, header, ⟨hheader, hheaderBytes⟩,
      plaintext, ⟨hplaintext, hplaintextBytes⟩, expected, hexpected, hreturn⟩
    cases hreturn
    refine ⟨rfl, rfl, hkey, hnonce, ?_, ?_⟩
    · intro field source hsource
      cases field with
      | key => exact hkeyBytes source hsource
      | nonce => exact hnonceBytes source hsource
      | header => exact hheaderBytes source hsource
      | plaintext => exact hplaintextBytes source hsource
      | expected =>
          cases hsource
          exact hexpected
    · intro field hnone
      cases field with
      | key => exact getD_eq_nil_of_isSome_eq hkey hnone
      | nonce => exact getD_eq_nil_of_isSome_eq hnonce hnone
      | header => exact getD_eq_nil_of_isSome_eq hheader hnone
      | plaintext => exact getD_eq_nil_of_isSome_eq hplaintext hnone
      | expected => cases hnone
  · rintro ⟨hid, hmac, hkey, hnonce, hgiven, habsent⟩
    obtain ⟨id, key, nonce, header, plaintext, macLength, expected⟩ := vector
    -- header and plaintext do not tell whether they were given, so the draft has to
    have hpart : ∀ (source : Option ByteSource) (bytes : Bytes), (source = none → bytes = []) →
        (source.map fun _ => bytes).getD [] = bytes := by
      intro source bytes hnil
      cases source with
      | none => exact (hnil rfl).symm
      | some source => rfl
    have hheader := hpart draft.header header (habsent .header)
    have hplaintext := hpart draft.plaintext plaintext (habsent .plaintext)
    refine ⟨key, ⟨hkey, hgiven .key⟩, nonce, ⟨hnonce, hgiven .nonce⟩,
      draft.header.map fun _ => header, ⟨Option.isSome_map .., ?_⟩,
      draft.plaintext.map fun _ => plaintext, ⟨Option.isSome_map .., ?_⟩,
      expected, hgiven .expected _ rfl, ?_⟩
    · rw [hheader]
      exact hgiven .header
    · rw [hplaintext]
      exact hgiven .plaintext
    · cases hid
      cases hmac
      rw [hheader, hplaintext]
      rfl

/-! ## Ids of drafts -/

/-- The id at the least place that repeats an earlier one: before it no id repeats. -/
def Repeats (ids : List String) (id : String) : Prop :=
  ∃ before after, ids = before ++ id :: after ∧ id ∈ before ∧ before.Nodup

theorem firstRepeat_iff {vectors : List TestVector} {id : String} :
    FirstRepeat vectors id ↔ Repeats (vectors.map TestVector.id) id := by
  constructor
  · rintro ⟨before, vector, after, rfl, rfl, hmem, hnodup⟩
    refine ⟨before.map TestVector.id, after.map TestVector.id, ?_, hmem, hnodup⟩
    rw [List.map_append, List.map_cons]
  · rintro ⟨before, after, hsplit, hmem, hnodup⟩
    obtain ⟨front, back, rfl, rfl, hback⟩ := List.map_eq_append_iff.mp hsplit
    obtain ⟨vector, rest, rfl, hid, -⟩ := List.map_eq_cons_iff.mp hback
    exact ⟨front, vector, rest, rfl, hid, hmem, hnodup⟩

theorem map_id_of_decodes {drafts : List Draft} {vectors : List TestVector}
    (h : List.Forall₂ Decodes drafts vectors) :
    vectors.map TestVector.id = drafts.map Draft.id := by
  induction h with
  | nil => rfl
  | cons hdecodes _ ih => rw [List.map_cons, List.map_cons, hdecodes.id, ih]

/-! ## Fixtures -/

namespace Draft.File

variable {file : Draft.File} {vectors : List TestVector} {error : LoadError}

theorem mapM_decode_eq_error_iff :
    file.drafts.mapM Draft.decode = .error error ↔
      FirstError Place.decode file.places error := by
  rw [mapM_eq_error_iff, File.places]
  exact firstError_flatMap fun draft error => draft.decode_eq_error_iff

theorem mapM_decode_eq_ok_iff :
    file.drafts.mapM Draft.decode = .ok vectors ↔ List.Forall₂ Decodes file.drafts vectors := by
  simp only [mapM_eq_ok_iff, Draft.decode_eq_ok_iff]

/-- All drafts are decoded exactly if every byte field is. -/
theorem exists_decodes_iff :
    (∃ vectors, List.Forall₂ Decodes file.drafts vectors) ↔
      ∀ place ∈ file.places, ∃ bytes, place.decode = .ok bytes := by
  rw [forall_ok_iff]
  simp only [← mapM_decode_eq_ok_iff, exists_eq_ok_iff, ne_eq, mapM_decode_eq_error_iff]

theorem decode_of_version (h : file.version = supportedVersion) :
    file.decode = do
      let vectors ← file.drafts.mapM Draft.decode
      requireDistinctIds vectors
      return vectors := if_pos h

theorem decode_eq_ok_iff (h : file.version = supportedVersion) :
    file.decode = .ok vectors ↔
      List.Forall₂ Decodes file.drafts vectors ∧ (file.drafts.map Draft.id).Nodup := by
  rw [decode_of_version h]
  simp only [bind_eq_ok_iff, mapM_decode_eq_ok_iff, requireDistinctIds_eq_ok_iff]
  constructor
  · rintro ⟨_, hdecodes, -, hnodup, hreturn⟩
    cases hreturn
    exact ⟨hdecodes, map_id_of_decodes hdecodes ▸ hnodup⟩
  · rintro ⟨hdecodes, hnodup⟩
    exact ⟨vectors, hdecodes, (), map_id_of_decodes hdecodes ▸ hnodup, rfl⟩

theorem decode_eq_error_iff (h : file.version = supportedVersion) :
    file.decode = .error error ↔
      FirstError Place.decode file.places error ∨
        (∀ place ∈ file.places, ∃ bytes, place.decode = .ok bytes) ∧
          ∃ id, error = .duplicateId id ∧ Repeats (file.drafts.map Draft.id) id := by
  rw [decode_of_version h, ← exists_decodes_iff]
  simp only [bind_eq_error_iff, mapM_decode_eq_ok_iff, mapM_decode_eq_error_iff,
    requireDistinctIds_eq_error_iff, firstRepeat_iff, pure_ne_error, and_false, exists_false,
    or_false]
  refine or_congr Iff.rfl ?_
  constructor
  · rintro ⟨vectors, hdecodes, hrepeats⟩
    exact ⟨⟨vectors, hdecodes⟩, map_id_of_decodes hdecodes ▸ hrepeats⟩
  · rintro ⟨⟨vectors, hdecodes⟩, hrepeats⟩
    exact ⟨vectors, hdecodes, (map_id_of_decodes hdecodes).symm ▸ hrepeats⟩

end Draft.File

theorem parse_of_file {text : String} {document : List (String × Toml.Value)} {file : Draft.File}
    (hdocument : Toml.document? text = some document)
    (hfile : Draft.File.ofDocument? document = some file) : parse text = file.decode := by
  rw [parse, hdocument]
  show ofDocument document = _
  rw [ofDocument, hfile]

/-- **What a fixture is decoded to.** Let a text have the shape of a fixture.  If its version is not
the one that is known, this is the error, whatever else there is.  If it is, the error is that of
the first byte field that does not decode, vector by vector and in each in the order key, nonce,
header, plaintext, expected; it names the vector and the field, and ids do not matter to it.  If all
fields decode, it is the id at the least place that repeats an earlier one.  If there is none, there
are vectors: one for each that is written, in their order, with ids that are all distinct, and each
with its own id, tag length and bytes. -/
theorem parse_faithful {text : String} {document : List (String × Toml.Value)} {file : Draft.File}
    (hdocument : Toml.document? text = some document)
    (hfile : Draft.File.ofDocument? document = some file) :
    let ids := file.drafts.map Draft.id
    let allDecode := ∀ place ∈ file.places, ∃ bytes, place.decode = .ok bytes
    (file.version ≠ 1 → parse text = .error (.unsupportedVersion file.version)) ∧
    (file.version = 1 →
      (∀ error, parse text = .error error ↔
        FirstError Place.decode file.places error ∨
          allDecode ∧ ∃ id, error = .duplicateId id ∧ Repeats ids id) ∧
      ((∃ vectors, parse text = .ok vectors) ↔ allDecode ∧ ids.Nodup) ∧
      ∀ vectors, parse text = .ok vectors →
        vectors.length = file.drafts.length ∧ (vectors.map TestVector.id).Nodup ∧
          List.Forall₂ Decodes file.drafts vectors) ∧
    (∀ (place : Place) (error : LoadError), place.decode = .error error →
      error.place? = some (place.vector, place.field)) := by
  intro ids allDecode
  rw [parse_of_file hdocument hfile]
  refine ⟨fun hversion => if_neg hversion, fun hversion => ⟨?_, ?_, ?_⟩, ?_⟩
  · exact fun error => Draft.File.decode_eq_error_iff hversion
  · simp only [Draft.File.decode_eq_ok_iff hversion, exists_and_right]
    rw [Draft.File.exists_decodes_iff]
  · intro vectors hvectors
    obtain ⟨hdecodes, hnodup⟩ := (Draft.File.decode_eq_ok_iff hversion).mp hvectors
    exact ⟨hdecodes.length_eq.symm, map_id_of_decodes hdecodes ▸ hnodup, hdecodes⟩
  · exact fun place error => Place.place?_of_error

/-- A repeated id, behind which the header of a vector is wrong, and so are its expected bytes. -/
theorem parse_faithful_wrong_header :
    let text := "version=1\n[[vector]]\nid='v'\nexpected='00'\n" ++
      "[[vector]]\nid='v'\nkey='01'\nheader='0 0 0'\nexpected='zz'\n"
    parse text = .error (.invalidHex "v" .header .oddLength) := by
  intro text
  let file : Draft.File := {
    version := 1
    drafts := [
      { id := "v", key := none, nonce := none, header := none, plaintext := none,
        macLength := none, expected := .digits "00" },
      { id := "v", key := some (.digits "01"), nonce := none, header := some (.digits "0 0 0"),
        plaintext := none, macLength := none, expected := .digits "zz" }] }
  have hshape : (Toml.document? text).bind Draft.File.ofDocument? = some file := by
    decide +kernel
  obtain ⟨document, hdocument, hfile⟩ := Option.bind_eq_some_iff.mp hshape
  obtain ⟨-, hanswer, -⟩ := parse_faithful hdocument hfile
  obtain ⟨herror, -⟩ := hanswer rfl
  have hplaces : file.places =
      [⟨"v", .expected, .digits "00"⟩, ⟨"v", .key, .digits "01"⟩] ++
        ⟨"v", .header, .digits "0 0 0"⟩ :: [⟨"v", .expected, .digits "zz"⟩] := rfl
  refine (herror _).mpr (.inl ⟨_, _, _, hplaces, ?_, by decide +kernel⟩)
  simp only [List.forall_mem_cons]
  exact ⟨⟨[0], by decide +kernel⟩, ⟨[1], by decide +kernel⟩, nofun⟩

end Fixture

end KnownAnswer
