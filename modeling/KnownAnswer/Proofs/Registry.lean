import KnownAnswer.Proofs.Judgement

/-!
# Checks in any order and number

Checks may be registered in any order, any of them more than once or not at all.  An output is
accepted exactly if no registered check fails (`Checks.failure?_eq_none_iff`), so neither order nor
number shows in that.  They do show in what is reported of an output that is not accepted: it is
what the earliest check that fails has to say (`Checks.failure?_eq_some_iff`).  For the comparisons
of lengths and of contents both are spelled out (`Checks.failure?_of_registered`).
-/

namespace KnownAnswer.Conformance

section

variable {expected actual : Bytes}

/-! ## One check -/

/-- What the comparisons of lengths and of contents ask of an output; no other check is spoken of.
Contents are compared as far as both strings go, so they agree if one string is the beginning of the
other. -/
structure Check.Holds (expected actual : Bytes) (check : Check) : Prop where
  length : check = .length → expected.length = actual.length
  content : check = .content → expected <+: actual ∨ actual <+: expected

/-- What these comparisons have to say of an output for which they do not hold. -/
inductive Check.Reports (expected actual : Bytes) (check : Check) : Failure → Prop
  | length (hcheck : check = .length) (h : expected.length ≠ actual.length) :
      Reports expected actual check (.lengthMismatch expected.length actual.length)
  | content {offset : Nat} {e a : UInt8} (hcheck : check = .content)
      (h : DiffersFirstAt expected actual offset e a) :
      Reports expected actual check (.contentMismatch offset e a)

theorem Check.failure?_eq_none_iff {check : Check} (hcheck : check = .length ∨ check = .content) :
    check.failure? expected actual = none ↔ check.Holds expected actual := by
  rcases hcheck with rfl | rfl
  · rw [failure?_length_eq_none_iff]
    constructor
    · intro hlen
      exact ⟨fun _ => hlen, fun h => absurd h length_ne_content⟩
    · intro hholds
      exact hholds.length rfl
  · rw [failure?_content_eq_none_iff]
    constructor
    · intro hbegins
      exact ⟨fun h => absurd h.symm length_ne_content, fun _ => hbegins⟩
    · intro hholds
      exact hholds.content rfl

theorem Check.failure?_eq_some_iff {check : Check} (hcheck : check = .length ∨ check = .content)
    {failure : Failure} :
    check.failure? expected actual = some failure ↔ check.Reports expected actual failure := by
  rcases hcheck with rfl | rfl
  · rw [failure?_length]
    constructor
    · intro h
      by_cases hlen : expected.length = actual.length
      · rw [if_pos hlen] at h
        cases h
      · rw [if_neg hlen] at h
        cases h
        exact .length rfl hlen
    · rintro (⟨-, hlen⟩ | ⟨h, -⟩)
      · exact if_neg hlen
      · exact absurd h length_ne_content
  · rw [failure?_content_eq_some_iff]
    constructor
    · rintro ⟨offset, e, a, rfl, h⟩
      exact .content rfl h
    · rintro (⟨h, -⟩ | ⟨-, h⟩)
      · exact absurd h.symm length_ne_content
      · exact ⟨_, _, _, rfl, h⟩

namespace Checks

/-! ## Registering checks -/

theorem foldl_add (start added : Checks) : added.foldl add start = start ++ added := by
  induction added generalizing start with
  | nil => exact (List.append_nil start).symm
  | cons check added ih =>
      rw [List.foldl_cons, ih]
      exact List.append_assoc start [check] added

/-! ## All registered checks -/

/-- **Acceptance.** No registered check may fail, whatever their order. -/
theorem failure?_eq_none_iff {checks : Checks} :
    checks.failure? expected actual = none ↔
      ∀ check ∈ checks, check.failure? expected actual = none :=
  List.findSome?_eq_none_iff

/-- **Rejection.** The earliest check that fails has its say. -/
theorem failure?_eq_some_iff {checks : Checks} {failure : Failure} :
    checks.failure? expected actual = some failure ↔
      ∃ front check back, checks = front ++ check :: back ∧
        (∀ earlier ∈ front, earlier.failure? expected actual = none) ∧
        check.failure? expected actual = some failure := by
  unfold failure?
  rw [List.findSome?_eq_some_iff]
  constructor
  · rintro ⟨front, check, back, hsplit, hcheck, hfront⟩
    exact ⟨front, check, back, hsplit, hfront, hcheck⟩
  · rintro ⟨front, check, back, hsplit, hfront, hcheck⟩
    exact ⟨front, check, back, hsplit, hcheck, hfront⟩

/-- A check that repeats an earlier one is never the first that fails. -/
theorem failure?_append_repeated {front : Checks} {check : Check} (h : check ∈ front)
    (back : Checks) :
    failure? (front ++ check :: back) expected actual =
      failure? (front ++ back) expected actual := by
  unfold failure?
  rw [List.findSome?_append, List.findSome?_append, List.findSome?_cons]
  cases hfront : front.findSome? fun check => check.failure? expected actual with
  | some failure => rfl
  | none =>
      rw [List.findSome?_eq_none_iff.mp hfront check h]

/-! ## Comparisons only -/

section

variable {checks : Checks} (hchecks : ∀ check ∈ checks, check = .length ∨ check = .content)

include hchecks

theorem failure?_eq_none_iff_agree :
    checks.failure? expected actual = none ↔
      (.length ∈ checks → expected.length = actual.length) ∧
        (.content ∈ checks → expected <+: actual ∨ actual <+: expected) := by
  rw [failure?_eq_none_iff]
  constructor
  · intro hnone
    constructor
    · intro hlength
      exact Check.failure?_length_eq_none_iff.mp (hnone .length hlength)
    · intro hcontent
      exact Check.failure?_content_eq_none_iff.mp (hnone .content hcontent)
  · rintro ⟨hlength, hcontent⟩ check hcheck
    rcases hchecks check hcheck with rfl | rfl
    · exact Check.failure?_length_eq_none_iff.mpr (hlength hcheck)
    · exact Check.failure?_content_eq_none_iff.mpr (hcontent hcheck)

theorem failure?_eq_some_iff_reports {failure : Failure} :
    checks.failure? expected actual = some failure ↔
      ∃ front check back, checks = front ++ check :: back ∧
        (∀ earlier ∈ front, earlier.Holds expected actual) ∧
        check.Reports expected actual failure := by
  rw [failure?_eq_some_iff]
  refine exists_congr fun front => exists_congr fun check => exists_congr fun back =>
    and_congr_right fun hsplit => ?_
  subst hsplit
  rw [Check.failure?_eq_some_iff (hchecks check List.mem_append_cons_self)]
  refine and_congr_left fun _ => forall₂_congr fun earlier hearlier => ?_
  exact Check.failure?_eq_none_iff (hchecks earlier (List.mem_append_left _ hearlier))

end

/-! ## Registries of any composition -/

/-- **What any checks say of any output.** Whatever was registered at first and whatever is added to
it, an output is accepted exactly if no check fails, so acceptance depends on nothing but which
checks there are; an output that is not accepted gets the failure of the earliest check that fails;
and a check that repeats an earlier one can be left out.  If all checks are comparisons of lengths
or of contents, an output is accepted exactly if its length is the expected one, should lengths be
compared at all, and one string begins with the other, should contents be; where both are, it is
equality.  What is reported then are the two lengths, or the first offset at which the strings
differ and the bytes there. -/
theorem failure?_of_registered (start added : Checks) (expected actual : Bytes) :
    let checks := added.foldl add start
    checks = start ++ added ∧
    (checks.failure? expected actual = none ↔
      ∀ check ∈ checks, check.failure? expected actual = none) ∧
    (∀ others : Checks, (∀ check, check ∈ others ↔ check ∈ checks) →
      (others.failure? expected actual = none ↔ checks.failure? expected actual = none)) ∧
    (∀ failure, checks.failure? expected actual = some failure ↔
      ∃ front check back, checks = front ++ check :: back ∧
        (∀ earlier ∈ front, earlier.failure? expected actual = none) ∧
        check.failure? expected actual = some failure) ∧
    (∀ front check back, checks = front ++ check :: back → check ∈ front →
      failure? (front ++ back) expected actual = checks.failure? expected actual) ∧
    ((∀ check ∈ checks, check = .length ∨ check = .content) →
      (checks.failure? expected actual = none ↔
        (.length ∈ checks → expected.length = actual.length) ∧
          (.content ∈ checks → expected <+: actual ∨ actual <+: expected)) ∧
      (.length ∈ checks → .content ∈ checks →
        (checks.failure? expected actual = none ↔ expected = actual)) ∧
      (∀ failure, checks.failure? expected actual = some failure ↔
        ∃ front check back, checks = front ++ check :: back ∧
          (∀ earlier ∈ front, earlier.Holds expected actual) ∧
          check.Reports expected actual failure)) := by
  intro checks
  refine ⟨foldl_add start added, failure?_eq_none_iff, ?_, fun _ => failure?_eq_some_iff, ?_, ?_⟩
  · intro others hsame
    simp only [failure?_eq_none_iff, hsame]
  · intro front check back hsplit hrepeats
    rw [hsplit, failure?_append_repeated hrepeats]
  · intro hchecks
    refine ⟨failure?_eq_none_iff_agree hchecks, ?_, fun _ => failure?_eq_some_iff_reports hchecks⟩
    intro hlength hcontent
    rw [failure?_eq_none_iff_agree hchecks, eq_iff_length_and_prefix]
    constructor
    · rintro ⟨hlen, hbegins⟩
      exact ⟨hlen hlength, hbegins hcontent⟩
    · rintro ⟨hlen, hbegins⟩
      exact ⟨fun _ => hlen, fun _ => hbegins⟩

/-- Contents before lengths: the same output is not accepted either way, but once for its first
byte and once for its length, and a second look at contents adds nothing. -/
theorem failure?_of_registered_swapped :
    let expected : Bytes := [1, 2, 3]
    let actual : Bytes := [9, 2]
    let swapped : Checks := [Check.content, .length, .content].foldl add []
    (∀ check ∈ swapped, check = .length ∨ check = .content) ∧
      swapped.failure? expected actual = some (.contentMismatch 0 1 9) ∧
      standard.failure? expected actual = some (.lengthMismatch 3 2) ∧
      failure? [.content, .length] expected actual = swapped.failure? expected actual := by
  intro expected actual swapped
  have hswapped : ∀ check ∈ swapped, check = .length ∨ check = .content := by
    simp [swapped, add]
  have hstandard : ∀ check ∈ standard, check = .length ∨ check = .content := by
    simp [standard]
  obtain ⟨-, -, -, -, hrepeated, hcompared⟩ :=
    failure?_of_registered [] [.content, .length, .content] expected actual
  obtain ⟨-, -, -, -, -, hcompared'⟩ := failure?_of_registered standard [] expected actual
  have hbytes : DiffersFirstAt expected actual 0 1 9 :=
    ⟨rfl, rfl, by decide, fun k hk => absurd hk (Nat.not_lt_zero k)⟩
  have hnone : ∀ earlier ∈ ([] : Checks), earlier.Holds expected actual :=
    fun earlier hearlier => absurd hearlier List.not_mem_nil
  refine ⟨hswapped, ?_, ?_, hrepeated [.content, .length] .content [] rfl List.mem_cons_self⟩
  · exact ((hcompared hswapped).2.2 _).mpr
      ⟨[], .content, [.length, .content], rfl, hnone, .content rfl hbytes⟩
  · exact ((hcompared' hstandard).2.2 _).mpr
      ⟨[], .length, [.content], rfl, hnone, .length rfl (by decide)⟩

end Checks

end

end KnownAnswer.Conformance
