import Conformance.Proofs.FaultOrigin
import Conformance.Proofs.Stages
import Conformance.Sample.Implementation

/-!
# What judging raises

A comparison takes the mistakes of values that cannot be compared for a difference: those of
their type and of their value.  `compare_raises_iff` lists what else can happen in one, and what
of it is raised.  The first part of the two data that has no canonical form decides, and if all
parts have one, the equalities of the objects among them.  An instant whose universal time is
outside the calendar is no mistake of a value, and an object may raise what it likes, so there
are comparisons that end the run they are made in.
-/

namespace Conformance.Run

variable {ω : Type} {impl : Implementation ω}

/-- What bringing two data into canonical form and comparing the forms can end with. -/
inductive ComparisonFault (impl : Implementation ω) (store : Store ω) (actual expected : Datum)
    (fault : Fault) : Prop
  | actual (h : actual.Breaks fault)
  | expected (ha : actual.Formable) (h : expected.Breaks fault)
  | equality {a e : Datum} (ha : actual.canonical = .ok a) (he : expected.canonical = .ok e)
      (h : (runFrom (impl.equal a.strict e.strict) store).1 = .error fault)

/-- The stages of the comparison of canonical forms. -/
theorem runFrom_canonicallyEqual (actual expected : Datum) (store : Store ω) :
    runFrom (canonicallyEqual impl actual expected) store =
      match actual.canonical, expected.canonical with
      | .error fault, _ => (.error fault, store)
      | .ok _, .error fault => (.error fault, store)
      | .ok a, .ok e => runFrom (impl.equal a.strict e.strict) store := by
  unfold canonicallyEqual
  cases ha : actual.canonical with
  | error fault => rfl
  | ok a =>
      cases he : expected.canonical with
      | error fault => rfl
      | ok e => rfl

theorem canonicallyEqual_error_iff {actual expected : Datum} {store : Store ω} {fault : Fault} :
    (runFrom (canonicallyEqual impl actual expected) store).1 = .error fault ↔
      ComparisonFault impl store actual expected fault := by
  rw [runFrom_canonicallyEqual]
  cases ha : actual.canonical with
  | error other =>
      have hbreaks := (Datum.canonical_eq_error_iff actual).mp ha
      constructor
      · rintro ⟨⟩
        exact .actual hbreaks
      · intro h
        cases h with
        | actual h =>
            cases ha.symm.trans ((Datum.canonical_eq_error_iff actual).mpr h)
            rfl
        | expected hform =>
            obtain ⟨a, ha'⟩ := (Datum.canonical_eq_ok_iff actual).mpr hform
            cases ha.symm.trans ha'
        | equality ha' => cases ha.symm.trans ha'
  | ok a =>
      have hform := (Datum.canonical_eq_ok_iff actual).mp ⟨a, ha⟩
      cases he : expected.canonical with
      | error other =>
          have hbreaks := (Datum.canonical_eq_error_iff expected).mp he
          constructor
          · rintro ⟨⟩
            exact .expected hform hbreaks
          · intro h
            cases h with
            | actual h => cases ha.symm.trans ((Datum.canonical_eq_error_iff actual).mpr h)
            | expected _ h =>
                cases he.symm.trans ((Datum.canonical_eq_error_iff expected).mpr h)
                rfl
            | equality _ he' => cases he.symm.trans he'
      | ok e =>
          constructor
          · exact .equality ha he
          · intro h
            cases h with
            | actual h => cases ha.symm.trans ((Datum.canonical_eq_error_iff actual).mpr h)
            | expected _ h => cases he.symm.trans ((Datum.canonical_eq_error_iff expected).mpr h)
            | equality ha' he' h =>
                cases ha.symm.trans ha'
                cases he.symm.trans he'
                exact h

/-- The object is a part of one of two data. -/
def InEither (actual expected : Datum) (location : Loc) : Prop :=
  actual.Holds location ∨ expected.Holds location

/-- Comparing canonical forms asks objects of the data only. -/
theorem equality_asks {actual expected a e : Datum} (ha : actual.canonical = .ok a)
    (he : expected.canonical = .ok e) :
    FaultsOnly (AskedFault impl (InEither actual expected)) (impl.equal a.strict e.strict) := by
  have hactual : actual.Within (InEither actual expected) := fun _ => Or.inl
  have hexpected : expected.Within (InEither actual expected) := fun _ => Or.inr
  exact equal_asks (hactual.canonical ha).strict (hexpected.canonical he).strict

/-- What a comparison can end with has one of four sources. -/
theorem ComparisonFault.source {actual expected : Datum} {store : Store ω} {fault : Fault}
    (h : ComparisonFault impl store actual expected fault) :
    fault = .dateRange ∨ fault = .endless ∨ fault = .unhashable "list" ∨
      AskedFault impl (InEither actual expected) fault := by
  cases h with
  | actual h => exact h.fault_eq.imp_right fun h => h.imp_right Or.inl
  | expected _ h => exact h.fault_eq.imp_right fun h => h.imp_right Or.inl
  | equality ha he h => exact Or.inr (Or.inr (Or.inr (equality_asks ha he store fault h)))

/-- **What a comparison raises.**  With something to compare to, it raises what bringing the data
into canonical form or comparing the forms ends with, unless that counts as a difference, and
otherwise it gives a verdict.  What is raised is the fault of an instant outside the calendar, of
a value that contains itself, or of the equality of an object in one of the data.  So where every
part of both data has a form and no such equality raises a fault of its own, there is a verdict. -/
theorem compare_raises_iff (actual expected : Datum) (store : Store ω) :
    (∀ fault, (runFrom (compare impl actual expected) store).1 = .error fault ↔
      isOpen expected = false ∧ isIncomparable fault = false ∧
        ComparisonFault impl store actual expected fault) ∧
    ((∃ verdict, (runFrom (compare impl actual expected) store).1 = .ok verdict) ↔
      isOpen expected = true ∨
        ∀ fault, ComparisonFault impl store actual expected fault → isIncomparable fault = true) ∧
    (∀ fault, (runFrom (compare impl actual expected) store).1 = .error fault →
      fault = .dateRange ∨ fault = .endless ∨
        AskedFault impl (InEither actual expected) fault) ∧
    (actual.Formable → expected.Formable →
      (∀ fault, AskedFault impl (InEither actual expected) fault → isIncomparable fault = true) →
      ∃ verdict, (runFrom (compare impl actual expected) store).1 = .ok verdict) := by
  have hraised : ∀ fault, (runFrom (compare impl actual expected) store).1 = .error fault ↔
      isOpen expected = false ∧ isIncomparable fault = false ∧
        ComparisonFault impl store actual expected fault := by
    intro fault
    rw [compare_error_iff, canonicallyEqual_error_iff, and_comm (a := ComparisonFault _ _ _ _ _)]
  have hverdict : (∃ verdict, (runFrom (compare impl actual expected) store).1 = .ok verdict) ↔
      isOpen expected = true ∨
        ∀ fault, ComparisonFault impl store actual expected fault →
          isIncomparable fault = true := by
    have hnone : (∃ verdict, (runFrom (compare impl actual expected) store).1 = .ok verdict) ↔
        ¬ ∃ fault, (runFrom (compare impl actual expected) store).1 = .error fault := by
      cases (runFrom (compare impl actual expected) store).1 <;> simp
    rw [hnone]
    simp only [hraised, not_exists, not_and]
    cases isOpen expected with
    | true => simp
    | false =>
        constructor
        · intro h
          refine Or.inr fun fault hends => ?_
          by_contra hnot
          exact h fault rfl (Bool.eq_false_iff.mpr hnot) hends
        · rintro (hopen | h) fault - hnot hends
          · cases hopen
          · rw [h fault hends] at hnot
            cases hnot
  refine ⟨hraised, hverdict, fun fault h => ?_, fun ha he hasked => ?_⟩
  · obtain ⟨-, hnot, hends⟩ := (hraised fault).mp h
    rcases hends.source with hdate | hendless | hkey | hasked
    · exact Or.inl hdate
    · exact Or.inr (Or.inl hendless)
    · subst hkey
      cases hnot
    · exact Or.inr (Or.inr hasked)
  · refine hverdict.mpr (Or.inr fun fault hends => ?_)
    cases hends with
    | actual h => exact absurd h ha.not_breaks
    | expected _ h => exact absurd h he.not_breaks
    | equality ha he h => exact hasked fault (equality_asks ha he store fault h)

/-- A store with an object that refuses to be compared with a fault of its own. -/
def refusingStore : Store Sample.Object := ⟨#[.object (.instance_ .hostile [])], fun _ => []⟩

/-- The object in that store. -/
def refusing : Datum := .object 0 "<Hostile>"

/-- The first midnight of the calendar in a place one hour ahead of universal time, in a list. -/
def firstMidnight : Datum := .list [.scalar (.datetime ⟨⟨1, 1, 1⟩, ⟨0, 0, 0, 0⟩, some 3600000000⟩)]

/-- Not every comparison gives a verdict. -/
theorem compare_not_always_judges :
    (¬ ∃ verdict, (runFrom (compare (Sample.implementation []) refusing (.scalar (.int 1)))
      refusingStore).1 = .ok verdict) ∧
    ¬ ∃ verdict, (runFrom (compare (Sample.implementation []) firstMidnight (.scalar (.int 1)))
      refusingStore).1 = .ok verdict := by
  have hasked : (runFrom (compare (Sample.implementation []) refusing (.scalar (.int 1)))
      refusingStore).1 = .error (.raised .other "RuntimeError" "hostile") := by
    refine compare_error_iff.mpr ⟨rfl, ?_, rfl⟩
    have hrefusing : refusing.canonical = .ok refusing := rfl
    have hone : (Datum.scalar (.int 1)).canonical = .ok (.scalar (.int 1)) := rfl
    rw [runFrom_canonicallyEqual, hrefusing, hone]
    dsimp only
    rw [Implementation.equal]
    rfl
  have hearly : (runFrom (compare (Sample.implementation []) firstMidnight (.scalar (.int 1)))
      refusingStore).1 = .error .dateRange := by
    refine compare_error_iff.mpr ⟨rfl, ?_, rfl⟩
    have hmidnight : firstMidnight.canonical = .error .dateRange := rfl
    rw [runFrom_canonicallyEqual, hmidnight]
  constructor
  · rintro ⟨verdict, h⟩
    cases hasked.symm.trans h
  · rintro ⟨verdict, h⟩
    cases hearly.symm.trans h

end Conformance.Run
