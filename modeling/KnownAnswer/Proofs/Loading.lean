import KnownAnswer.CommandLine.Run
import KnownAnswer.Proofs.Admission
import Mathlib.Data.List.Forall2

/-!
# What is loaded

Vectors come from sources that are walked in order: the built-in set, if it is asked for or nothing
else is, and then the fixtures.  The first source that fails decides, whatever the others hold.  If
none fails, the vectors of all sources together are refused for the first id that repeats an earlier
one, then for there being none, and else handed over as they are (`loadVectors_exact`).
-/

namespace KnownAnswer

/-! ## Walks that may fail -/

section Except

variable {ε ε' α β : Type} {f : α → Except ε β}

theorem mapError_eq_ok_iff {g : ε → ε'} {x : Except ε α} {value : α} :
    x.mapError g = .ok value ↔ x = .ok value := by
  cases x with
  | error reason => exact ⟨nofun, nofun⟩
  | ok other => simp [Except.mapError]

theorem mapError_eq_error_iff {g : ε → ε'} {x : Except ε α} {reason : ε'} :
    x.mapError g = .error reason ↔ ∃ cause, x = .error cause ∧ g cause = reason := by
  cases x with
  | error cause => simp [Except.mapError]
  | ok value => simp [Except.mapError]

theorem bind_eq_error_iff {x : Except ε α} {g : α → Except ε β} {reason : ε} :
    (x >>= g) = .error reason ↔
      x = .error reason ∨ ∃ value, x = .ok value ∧ g value = .error reason := by
  cases x with
  | error cause => simp
  | ok value => simp

/-- The error of the first element that has one; what stands behind it does not matter. -/
def FirstError (f : α → Except ε β) (xs : List α) (reason : ε) : Prop :=
  ∃ before x after, xs = before ++ x :: after ∧ (∀ y ∈ before, ∃ value, f y = .ok value) ∧
    f x = .error reason

theorem firstError_cons {x : α} {xs : List α} {reason : ε} :
    FirstError f (x :: xs) reason ↔
      f x = .error reason ∨ ∃ value, f x = .ok value ∧ FirstError f xs reason := by
  constructor
  · rintro ⟨before, y, after, hsplit, hbefore, hy⟩
    cases before with
    | nil =>
        cases hsplit
        exact .inl hy
    | cons z before =>
        cases hsplit
        obtain ⟨value, hvalue⟩ := hbefore x List.mem_cons_self
        refine .inr ⟨value, hvalue, before, y, after, rfl, fun w hw => ?_, hy⟩
        exact hbefore w (List.mem_cons_of_mem _ hw)
  · rintro (hx | ⟨value, hvalue, before, y, after, rfl, hbefore, hy⟩)
    · exact ⟨[], x, xs, rfl, nofun, hx⟩
    · refine ⟨x :: before, y, after, rfl, ?_, hy⟩
      exact List.forall_mem_cons.mpr ⟨⟨value, hvalue⟩, hbefore⟩

theorem mapM_eq_error_iff {xs : List α} {reason : ε} :
    xs.mapM f = .error reason ↔ FirstError f xs reason := by
  induction xs with
  | nil =>
      refine ⟨nofun, ?_⟩
      rintro ⟨before, x, after, hsplit, -⟩
      cases before <;> cases hsplit
  | cons x xs ih =>
      rw [List.mapM_cons, bind_eq_error_iff, firstError_cons]
      refine or_congr Iff.rfl (exists_congr fun value => and_congr Iff.rfl ?_)
      rw [← ih, bind_eq_error_iff]
      constructor
      · rintro (hrest | ⟨_, -, hreturn⟩)
        · exact hrest
        · cases hreturn
      · exact .inl

theorem mapM_eq_ok_iff {xs : List α} {ys : List β} :
    xs.mapM f = .ok ys ↔ List.Forall₂ (fun x y => f x = .ok y) xs ys := by
  induction xs generalizing ys with
  | nil =>
      rw [List.mapM_nil, List.forall₂_nil_left_iff]
      constructor
      · intro h
        cases h
        rfl
      · rintro rfl
        rfl
  | cons x xs ih =>
      rw [List.mapM_cons, List.forall₂_cons_left_iff, bind_eq_ok_iff]
      refine exists_congr fun value => ?_
      constructor
      · rintro ⟨hvalue, hrest⟩
        obtain ⟨values, hvalues, hreturn⟩ := bind_eq_ok_iff.mp hrest
        cases hreturn
        exact ⟨values, hvalue, ih.mp hvalues, rfl⟩
      · rintro ⟨values, hvalue, hvalues, rfl⟩
        exact ⟨hvalue, bind_eq_ok_iff.mpr ⟨values, ih.mpr hvalues, rfl⟩⟩

end Except

/-! ## Ids that repeat -/

theorem firstRepeatedId_eq_none_iff (seen : List String) (vectors : List TestVector) :
    firstRepeatedId seen vectors = none ↔
      (vectors.map TestVector.id).Nodup ∧ ∀ vector ∈ vectors, vector.id ∉ seen := by
  induction vectors generalizing seen with
  | nil => simp [firstRepeatedId]
  | cons vector rest ih =>
      rw [firstRepeatedId]
      by_cases hseen : vector.id ∈ seen
      · rw [if_pos hseen]
        refine ⟨nofun, fun h => ?_⟩
        exact absurd hseen (h.2 vector List.mem_cons_self)
      · rw [if_neg hseen, ih, List.map_cons, List.nodup_cons, List.forall_mem_cons]
        constructor
        · -- the ids behind it are new to `vector.id :: seen`, so `vector.id` is none of them
          rintro ⟨hnodup, hrest⟩
          refine ⟨⟨?_, hnodup⟩, hseen, fun other hother hmem => ?_⟩
          · intro hmem
            obtain ⟨other, hother, hid⟩ := List.mem_map.mp hmem
            exact hrest other hother (hid ▸ List.mem_cons_self)
          · exact hrest other hother (List.mem_cons_of_mem _ hmem)
        · rintro ⟨⟨hfresh, hnodup⟩, -, hrest⟩
          refine ⟨hnodup, fun other hother hmem => ?_⟩
          rcases List.mem_cons.mp hmem with hid | hmem
          · exact hfresh (hid ▸ List.mem_map_of_mem hother)
          · exact hrest other hother hmem

/-- The id at the least place whose id an earlier place has as well: before it no id repeats. -/
def FirstRepeat (vectors : List TestVector) (id : String) : Prop :=
  ∃ before vector after, vectors = before ++ vector :: after ∧ vector.id = id ∧
    id ∈ before.map TestVector.id ∧ (before.map TestVector.id).Nodup

theorem firstRepeatedId_eq_some_iff (seen : List String) {vectors : List TestVector}
    {id : String} :
    firstRepeatedId seen vectors = some id ↔
      ∃ before vector after, vectors = before ++ vector :: after ∧ vector.id = id ∧
        (id ∈ seen ∨ id ∈ before.map TestVector.id) ∧ firstRepeatedId seen before = none := by
  -- an id that is passed moves from `before` into `seen`, and the two are only asked together
  induction vectors generalizing seen with
  | nil =>
      refine ⟨nofun, ?_⟩
      rintro ⟨before, vector, after, hsplit, -⟩
      cases before <;> cases hsplit
  | cons vector rest ih =>
      rw [firstRepeatedId]
      by_cases hseen : vector.id ∈ seen
      · rw [if_pos hseen]
        constructor
        · intro hid
          cases hid
          exact ⟨[], vector, rest, rfl, rfl, .inl hseen, rfl⟩
        · rintro ⟨before, other, after, hsplit, rfl, -, hbefore⟩
          cases before with
          | nil =>
              cases hsplit
              rfl
          | cons first before =>
              cases hsplit
              rw [firstRepeatedId, if_pos hseen] at hbefore
              cases hbefore
      · rw [if_neg hseen, ih]
        constructor
        · rintro ⟨before, other, after, rfl, rfl, hmem, hbefore⟩
          refine ⟨vector :: before, other, after, rfl, rfl, ?_, ?_⟩
          · rw [List.map_cons, List.mem_cons]
            rw [List.mem_cons] at hmem
            tauto
          · rw [firstRepeatedId, if_neg hseen, hbefore]
        · rintro ⟨before, other, after, hsplit, rfl, hmem, hbefore⟩
          cases before with
          | nil =>
              cases hsplit
              exact absurd (hmem.resolve_right List.not_mem_nil) hseen
          | cons first before =>
              cases hsplit
              rw [firstRepeatedId, if_neg hseen] at hbefore
              refine ⟨before, other, after, rfl, rfl, ?_, hbefore⟩
              rw [List.map_cons, List.mem_cons] at hmem
              rw [List.mem_cons]
              tauto

namespace Fixture

theorem requireDistinctIds_eq_ok_iff {vectors : List TestVector} {value : Unit} :
    requireDistinctIds vectors = .ok value ↔ (vectors.map TestVector.id).Nodup := by
  have hnone := firstRepeatedId_eq_none_iff [] vectors
  rw [requireDistinctIds]
  cases hfound : firstRepeatedId [] vectors with
  | none => simpa [hfound] using hnone
  | some id => simpa [hfound] using hnone

theorem requireDistinctIds_eq_error_iff {vectors : List TestVector} {error : LoadError} :
    requireDistinctIds vectors = .error error ↔
      ∃ id, error = .duplicateId id ∧ FirstRepeat vectors id := by
  have hsome : ∀ id, firstRepeatedId [] vectors = some id ↔ FirstRepeat vectors id := by
    intro id
    simp [firstRepeatedId_eq_some_iff, FirstRepeat, firstRepeatedId_eq_none_iff]
  simp only [← hsome]
  rw [requireDistinctIds]
  cases hfound : firstRepeatedId [] vectors with
  | none => simp
  | some id => simp [eq_comm]

/-! ## Fixtures -/

/-- The vectors that are written at a path, whatever their ids. -/
def Written (read : FileReader) (path : String) (vectors : List TestVector) : Prop :=
  ∃ text document file, read path = .ok text ∧ Toml.document? text = some document ∧
    Draft.File.ofDocument? document = some file ∧ file.version = supportedVersion ∧
    file.drafts.mapM Draft.decode = .ok vectors

variable {read : FileReader} {path : String} {vectors : List TestVector}

theorem load_of_written (h : Written read path vectors) :
    load read path = (requireDistinctIds vectors).map fun _ => vectors := by
  obtain ⟨text, document, file, htext, hdocument, hfile, hversion, hdrafts⟩ := h
  rw [load, htext]
  show parse text = _
  rw [parse, hdocument]
  show ofDocument document = _
  rw [ofDocument, hfile]
  show file.decode = _
  rw [Draft.File.decode, if_pos hversion, hdrafts]
  rfl

theorem written_of_load (h : load read path = .ok vectors) : Written read path vectors := by
  -- whatever was loaded has passed every stage
  obtain ⟨text, htext, hparse⟩ := bind_eq_ok_iff.mp h
  rw [parse] at hparse
  split at hparse
  case h_2 => cases hparse
  rename_i document hdocument
  rw [ofDocument] at hparse
  split at hparse
  case h_2 => cases hparse
  rename_i file hfile
  rw [Draft.File.decode] at hparse
  split at hparse
  case isFalse => cases hparse
  rename_i hversion
  obtain ⟨decoded, hdecoded, hdistinct⟩ := bind_eq_ok_iff.mp hparse
  obtain ⟨_, -, hreturn⟩ := bind_eq_ok_iff.mp hdistinct
  cases hreturn
  exact ⟨text, document, file, mapError_eq_ok_iff.mp htext, hdocument, hfile, hversion, hdecoded⟩

theorem load_eq_ok_iff :
    load read path = .ok vectors ↔
      Written read path vectors ∧ (vectors.map TestVector.id).Nodup := by
  have hmap : ∀ x : Except LoadError Unit, (x.map fun _ => vectors) = .ok vectors ↔
      x = .ok () := by
    intro x
    cases x with
    | error error => exact ⟨nofun, nofun⟩
    | ok value => exact ⟨fun _ => rfl, fun _ => rfl⟩
  constructor
  · intro h
    have hwritten := written_of_load h
    rw [load_of_written hwritten, hmap, requireDistinctIds_eq_ok_iff] at h
    exact ⟨hwritten, h⟩
  · rintro ⟨hwritten, hnodup⟩
    rw [load_of_written hwritten, hmap, requireDistinctIds_eq_ok_iff]
    exact hnodup

theorem load_of_firstRepeat (h : Written read path vectors) {id : String}
    (hrepeat : FirstRepeat vectors id) : load read path = .error (.duplicateId id) := by
  rw [load_of_written h, requireDistinctIds_eq_error_iff.mpr ⟨id, rfl, hrepeat⟩]
  rfl

end Fixture

namespace CommandLine

/-! ## Sources -/

/-- Where vectors come from. -/
inductive Source
  | builtin
  | fixture (path : String)
  deriving DecidableEq

/-- The sources of a run, in the order in which they are walked. -/
def Options.sources (options : Options) : List Source :=
  (if options.builtin ∨ options.paths = [] then [.builtin] else [])
    ++ options.paths.map .fixture

/-- What a source holds. -/
def Source.load (read : FileReader) : Source → Except Fixture.LoadError (List TestVector)
  | .builtin => Builtin.load
  | .fixture path => Fixture.load read path

/-- Each source holds the vectors that stand at its place. -/
def AllLoad (read : FileReader) (sources : List Source) (loaded : List (List TestVector)) : Prop :=
  List.Forall₂ (fun source vectors => source.load read = .ok vectors) sources loaded

variable (read : FileReader) (options : Options)

/-- Loading is a walk over the sources, and then two looks at what was found. -/
theorem loadVectors_eq_walk :
    loadVectors read options = do
      let loaded ← (options.sources.mapM (Source.load read)).mapError .fixture
      (Fixture.requireDistinctIds loaded.flatten).mapError .fixture
      if loaded.flatten.isEmpty then .error .noVectors else return loaded.flatten := by
  have hload : Source.load read ∘ Source.fixture = Fixture.load read := rfl
  have hbuiltin : Source.load read .builtin = Builtin.load := rfl
  rw [loadVectors, builtinVectors, Options.sources, List.mapM_append, List.mapM_map, hload]
  by_cases hwanted : options.builtin = true ∨ options.paths = []
  · rw [if_pos hwanted, if_pos hwanted, List.mapM_cons, List.mapM_nil, hbuiltin]
    cases Builtin.load with
    | error error => rfl
    | ok builtin =>
        cases options.paths.mapM (Fixture.load read) with
        | error error => rfl
        | ok fixtures => rfl
  · rw [if_neg hwanted, if_neg hwanted, List.mapM_nil]
    cases options.paths.mapM (Fixture.load read) with
    | error error => rfl
    | ok fixtures => rfl

variable {read options}

theorem loadVectors_eq_ok_iff {vectors : List TestVector} :
    loadVectors read options = .ok vectors ↔
      ∃ loaded, AllLoad read options.sources loaded ∧ vectors = loaded.flatten ∧ vectors ≠ [] ∧
        (vectors.map TestVector.id).Nodup := by
  simp only [loadVectors_eq_walk, bind_eq_ok_iff, mapError_eq_ok_iff, mapM_eq_ok_iff,
    Fixture.requireDistinctIds_eq_ok_iff]
  refine exists_congr fun loaded => and_congr Iff.rfl ?_
  constructor
  · rintro ⟨-, hnodup, hreturn⟩
    split at hreturn
    · cases hreturn
    · rename_i hne
      cases hreturn
      exact ⟨rfl, fun hnil => hne (List.isEmpty_iff.mpr hnil), hnodup⟩
  · rintro ⟨rfl, hne, hnodup⟩
    exact ⟨(), hnodup, if_neg (mt List.isEmpty_iff.mp hne)⟩

theorem loadVectors_eq_fixture_iff {error : Fixture.LoadError} :
    loadVectors read options = .error (.fixture error) ↔
      FirstError (Source.load read) options.sources error ∨
        ∃ loaded, AllLoad read options.sources loaded ∧
          ∃ id, error = .duplicateId id ∧ FirstRepeat loaded.flatten id := by
  simp only [loadVectors_eq_walk, bind_eq_error_iff, mapError_eq_ok_iff, mapError_eq_error_iff,
    mapM_eq_ok_iff, mapM_eq_error_iff, RunError.fixture.injEq, exists_eq_right,
    Fixture.requireDistinctIds_eq_error_iff]
  refine or_congr Iff.rfl (exists_congr fun loaded => and_congr Iff.rfl ?_)
  constructor
  · rintro (hrepeat | ⟨-, -, hreturn⟩)
    · exact hrepeat
    · split at hreturn <;> cases hreturn
  · exact .inl

theorem loadVectors_eq_noVectors_iff :
    loadVectors read options = .error .noVectors ↔
      ∃ loaded, AllLoad read options.sources loaded ∧ loaded.flatten = [] := by
  simp only [loadVectors_eq_walk, bind_eq_error_iff, mapError_eq_ok_iff, mapError_eq_error_iff,
    mapM_eq_ok_iff, mapM_eq_error_iff, reduceCtorEq, and_false, exists_false, false_or,
    Fixture.requireDistinctIds_eq_ok_iff]
  refine exists_congr fun loaded => and_congr Iff.rfl ?_
  constructor
  · rintro ⟨-, -, hreturn⟩
    split at hreturn
    · rename_i hnil
      exact List.isEmpty_iff.mp hnil
    · cases hreturn
  · intro hnil
    rw [hnil]
    exact ⟨(), List.nodup_nil, rfl⟩

theorem loadVectors_ne_writeReport (reason : String) :
    loadVectors read options ≠ .error (.writeReport reason) := by
  simp only [loadVectors_eq_walk, ne_eq, bind_eq_error_iff, mapError_eq_error_iff, reduceCtorEq,
    and_false, exists_false, false_or]
  rintro ⟨_, -, -, -, hreturn⟩
  split at hreturn <;> cases hreturn

/-- Loading hands over at least one vector and no id twice. -/
theorem loadVectors_eq_ok {vectors : List TestVector} (h : loadVectors read options = .ok vectors) :
    vectors ≠ [] ∧ (vectors.map TestVector.id).Nodup := by
  obtain ⟨_, -, -, hne, hnodup⟩ := loadVectors_eq_ok_iff.mp h
  exact ⟨hne, hnodup⟩

/-! ## Ids within one source -/

theorem nodup_builtin {vectors : List TestVector} (h : Builtin.load = .ok vectors) :
    (vectors.map TestVector.id).Nodup := by
  simp only [Builtin.load, bind_eq_ok_iff] at h
  obtain ⟨packets, -, scenarios, -, _, hdistinct, hreturn⟩ := h
  cases hreturn
  exact Fixture.requireDistinctIds_eq_ok_iff.mp hdistinct

theorem Source.nodup_of_load {source : Source} {vectors : List TestVector}
    (h : source.load read = .ok vectors) : (vectors.map TestVector.id).Nodup := by
  cases source with
  | builtin => exact nodup_builtin h
  | fixture path => exact (Fixture.load_eq_ok_iff.mp h).2

/-- **What is loaded** is what the sources hold, in their order.  A run is refused for a source
exactly if that is the first to fail, whatever the others hold; for an id exactly if no source fails
and it is the first to repeat an earlier one; and for want of vectors exactly if no source fails and
none holds any.  Otherwise it gets all vectors of all sources, at least one and no id twice.  Within
a fixture a repeated id is a failure to load that fixture, so ids only repeat between sources. -/
theorem loadVectors_exact (read : FileReader) (options : Options) :
    (∀ error, loadVectors read options = .error (.fixture error) ↔
      FirstError (Source.load read) options.sources error ∨
        ∃ loaded, AllLoad read options.sources loaded ∧
          ∃ id, error = .duplicateId id ∧ FirstRepeat loaded.flatten id) ∧
    (loadVectors read options = .error .noVectors ↔
      ∃ loaded, AllLoad read options.sources loaded ∧ loaded.flatten = []) ∧
    (∀ vectors, loadVectors read options = .ok vectors ↔
      ∃ loaded, AllLoad read options.sources loaded ∧ vectors = loaded.flatten ∧ vectors ≠ [] ∧
        (vectors.map TestVector.id).Nodup) ∧
    (∀ reason, loadVectors read options ≠ .error (.writeReport reason)) ∧
    (∀ path vectors, Fixture.Written read path vectors → ∀ id, FirstRepeat vectors id →
      Fixture.load read path = .error (.duplicateId id)) ∧
    (∀ source vectors, Source.load read source = .ok vectors →
      (vectors.map TestVector.id).Nodup) := by
  refine ⟨fun _ => loadVectors_eq_fixture_iff, loadVectors_eq_noVectors_iff,
    fun _ => loadVectors_eq_ok_iff, loadVectors_ne_writeReport, ?_,
    fun _ _ => Source.nodup_of_load⟩
  intro path vectors hwritten id hrepeat
  exact Fixture.load_of_firstRepeat hwritten hrepeat

/-- An id that two fixtures have, and one that a single fixture has twice. -/
theorem loadVectors_exact_same_id :
    let one := "version=1\n[[vector]]\nid='v'\nexpected=''\n"
    let two := one ++ "[[vector]]\nid='v'\nexpected=''\n"
    let read : FileReader := fun path => .ok (if path = "two" then two else one)
    let options : Options := { paths := ["a", "b"] }
    let vector : TestVector := { id := "v", expected := [] }
    AllLoad read options.sources [[vector], [vector]] ∧ FirstRepeat [vector, vector] "v" ∧
      loadVectors read options = .error (.fixture (.duplicateId "v")) ∧
      Fixture.Written read "two" [vector, vector] ∧
      Fixture.load read "two" = .error (.duplicateId "v") := by
  intro one two read options vector
  have hloaded : AllLoad read options.sources [[vector], [vector]] :=
    .cons (by decide +kernel) (.cons (by decide +kernel) .nil)
  have hrepeat : FirstRepeat [vector, vector] "v" :=
    ⟨[vector], vector, [], rfl, rfl, by decide, by decide⟩
  have hwritten : Fixture.Written read "two" [vector, vector] := by
    let document := (Toml.document? two).get (by decide +kernel)
    let file := (Fixture.Draft.File.ofDocument? document).get (by decide +kernel)
    exact ⟨two, document, file, rfl, (Option.some_get _).symm, (Option.some_get _).symm,
      by decide +kernel, by decide +kernel⟩
  obtain ⟨hfixture, -, -, -, hfile, -⟩ := loadVectors_exact read options
  exact ⟨hloaded, hrepeat, (hfixture _).mpr (.inr ⟨_, hloaded, "v", rfl, hrepeat⟩), hwritten,
    hfile "two" _ hwritten "v" hrepeat⟩

end CommandLine

end KnownAnswer
