import Conformance.Proofs.PlainLookups
import Conformance.Proofs.WrittenMember

/-!
# How an assignment fails

An assignment is meant to end in one of three ways: it binds the value, it reports a constant
that is bound already, or it reports an invalid assignment, because a name on the way is not
bound or because the owner refuses the value (`Documented`).

Three stages let a fault through as it is (`Leaks`): the walk, unless the fault is one of
looking up; the check of a constant, always; and the write, unless the fault counts as a
refusal.  An assignment ends as documented exactly when nothing leaks, and what leaks comes
from digits without a decimal value or was raised by an object of the implementation.
-/

namespace Conformance.Scope

variable {ω : Type}

section Stages

variable (impl : Implementation ω) (w : World ω) (scope : ScopeId) (path : String) (v : Value)

/-- The ways in which an assignment is meant to end, with the world that it leaves. -/
inductive Documented : Except Fault Unit × World ω → Prop
  /-- The owner has the value as its member. -/
  | bound {owner : Owner} {name : String} {w₁ w₂ w₃ : World ω} (log : Array Record)
      (hwalk : runFrom (locate impl scope path) w = (.ok (owner, name), w₁))
      (hfree : runFrom (isBoundConstant impl owner name) w₁ = (.ok false, w₂))
      (hwritten : Written impl name v w₂ owner w₃) :
      Documented (.ok (), { w₃ with log })
  /-- The last name is a constant that the owner has. -/
  | constant {owner : Owner} {name : String} {u : Value} {w₁ w' : World ω}
      (hwalk : runFrom (locate impl scope path) w = (.ok (owner, name), w₁))
      (hconstant : Name.isConstant name = true)
      (hmember : (runFrom (memberAs impl owner name) w₁).1 = .ok (some u)) :
      Documented (.error (.constantReassigned path), w')
  /-- A name on the way is not bound. -/
  | unbound {fault : Fault} {w' : World ω}
      (hwalk : (runFrom (locate impl scope path) w).1 = .error fault)
      (hlookup : fault.family = .lookup) :
      Documented (.error (.invalidAssignment path fault.message), w')
  /-- The owner does not take the value, for whatever reason. -/
  | refused {owner : Owner} {name : String} {fault : Fault} {w₁ w₂ w' : World ω}
      (hwalk : runFrom (locate impl scope path) w = (.ok (owner, name), w₁))
      (hfree : runFrom (isBoundConstant impl owner name) w₁ = (.ok false, w₂))
      (hset : (runFrom (write impl owner name v) w₂).1 = .error fault) :
      Documented (.error (.invalidAssignment path fault.describe), w')

/-- A stage of the assignment lets a fault through. -/
inductive Leaks : Fault → Prop
  /-- A member on the way to the owner cannot be read. -/
  | walk {fault : Fault} (hwalk : (runFrom (locate impl scope path) w).1 = .error fault)
      (hlookup : fault.family ≠ .lookup) : Leaks fault
  /-- What a constant is bound to cannot be read. -/
  | check {owner : Owner} {name : String} {fault : Fault} {w₁ : World ω}
      (hwalk : runFrom (locate impl scope path) w = (.ok (owner, name), w₁))
      (hconstant : Name.isConstant name = true)
      (hmember : (runFrom (memberAs impl owner name) w₁).1 = .error fault) : Leaks fault
  /-- The owner fails in a way that does not count as refusing the value. -/
  | set {owner : Owner} {name : String} {fault : Fault} {w₁ w₂ : World ω}
      (hwalk : runFrom (locate impl scope path) w = (.ok (owner, name), w₁))
      (hfree : runFrom (isBoundConstant impl owner name) w₁ = (.ok false, w₂))
      (hset : (runFrom (write impl owner name v) w₂).1 = .error fault)
      (hrefusal : isRefusal fault = false) : Leaks fault

end Stages

variable {impl : Implementation ω} {w : World ω} {scope : ScopeId} {path : String} {v : Value}
  {fault : Fault}

/-- The check finds the constants that the owner has. -/
theorem isBoundConstant_true_iff {owner : Owner} {name : String} {w : World ω} :
    (runFrom (isBoundConstant impl owner name) w).1 = .ok true ↔
      Name.isConstant name = true ∧
        ∃ u, (runFrom (memberAs impl owner name) w).1 = .ok (some u) := by
  rw [runFrom_isBoundConstant]
  by_cases hconstant : Name.isConstant name = true
  · rw [if_pos hconstant]
    rcases runFrom (memberAs impl owner name) w with ⟨other | _ | u, w₁⟩ <;> simp [hconstant]
  · rw [if_neg hconstant]
    simp [hconstant]

/-- What leaks is what the assignment ends with. -/
theorem assign_of_leaks (h : Leaks impl w scope path v fault) :
    (runFrom (assign impl scope path v) w).1 = .error fault := by
  rw [assign_stages]
  cases h with
  | walk hwalk hlookup =>
      rw [eq_of_fst hwalk]
      dsimp only [targetFault]
      rw [if_neg hlookup]
  | check hwalk hconstant hmember =>
      have hcheck := (isBoundConstant_error_iff impl).mpr ⟨hconstant, hmember⟩
      rw [hwalk]
      dsimp only
      rw [eq_of_fst hcheck]
  | set hwalk hfree hset hrefusal =>
      rw [hwalk]
      dsimp only
      rw [hfree]
      dsimp only
      rw [eq_of_fst hset]
      dsimp only [ownerFault]
      rw [hrefusal]
      rfl

/-- **Stage by stage**, an assignment ends as documented or a fault leaks. -/
theorem assign_documented_or_leaks (impl : Implementation ω) (w : World ω) (scope : ScopeId)
    (path : String) (v : Value) :
    Documented impl w scope path v (runFrom (assign impl scope path v) w) ∨
      ∃ fault, Leaks impl w scope path v fault := by
  rw [assign_stages]
  rcases hwalk : runFrom (locate impl scope path) w with ⟨fault | ⟨owner, name⟩, w₁⟩
  · have hfault : (runFrom (locate impl scope path) w).1 = .error fault := by rw [hwalk]
    dsimp only [targetFault]
    by_cases hlookup : fault.family = .lookup
    · rw [if_pos hlookup]
      exact Or.inl (.unbound hfault hlookup)
    · exact Or.inr ⟨fault, .walk hfault hlookup⟩
  · dsimp only
    rcases hcheck : runFrom (isBoundConstant impl owner name) w₁ with ⟨fault | bound, w₂⟩
    · obtain ⟨hconstant, hmember⟩ :=
        (isBoundConstant_error_iff impl).mp (congrArg Prod.fst hcheck)
      exact Or.inr ⟨fault, .check hwalk hconstant hmember⟩
    · cases bound with
      | true =>
          obtain ⟨hconstant, u, hmember⟩ := isBoundConstant_true_iff.mp (congrArg Prod.fst hcheck)
          exact Or.inl (.constant hwalk hconstant hmember)
      | false =>
          dsimp only
          rcases hset : runFrom (write impl owner name v) w₂ with ⟨fault | ⟨⟩, w₃⟩
          · have hfault : (runFrom (write impl owner name v) w₂).1 = .error fault := by rw [hset]
            dsimp only [ownerFault]
            cases hrefusal : isRefusal fault with
            | true => exact Or.inl (.refused hwalk hcheck hfault)
            | false => exact Or.inr ⟨fault, .set hwalk hcheck hfault hrefusal⟩
          · exact Or.inl (.bound _ hwalk hcheck (write_ok hset))

/-- The message of an invalid assignment is longer than its reason. -/
theorem ne_invalidAssignment_describe (path : String) (fault : Fault) :
    fault ≠ .invalidAssignment path fault.describe := by
  intro heq
  have hlength := congrArg (fun f => f.describe.length) heq
  have hdescribe : (Fault.invalidAssignment path fault.describe).describe =
      "InvalidAssignment" ++ ": " ++ ("Can't assign " ++ path ++ ": " ++ fault.describe) := rfl
  simp only [hdescribe, String.length_append] at hlength
  have hcolon : ": ".length = 2 := rfl
  omega

/-- Nothing leaks from an assignment that ended as documented. -/
theorem not_documented_of_leaks (h : Leaks impl w scope path v fault) (w' : World ω) :
    ¬ Documented impl w scope path v (.error fault, w') := by
  intro hdocumented
  generalize hresult : (Except.error fault, w') = result at hdocumented
  cases hdocumented with
  | bound => cases hresult
  | constant hwalk hconstant hmember =>
      cases h with
      | walk hwalk' _ =>
          rw [hwalk] at hwalk'
          cases hwalk'
      | check hwalk' _ hmember' =>
          rw [hwalk] at hwalk'
          cases hwalk'
          rw [hmember] at hmember'
          cases hmember'
      | set hwalk' hfree _ _ =>
          rw [hwalk] at hwalk'
          cases hwalk'
          have htrue := isBoundConstant_true_iff.mpr ⟨hconstant, _, hmember⟩
          rw [hfree] at htrue
          cases htrue
  | unbound hwalk hlookup =>
      cases h with
      | walk hwalk' hother =>
          rw [hwalk] at hwalk'
          cases hwalk'
          exact hother hlookup
      | check hwalk' _ _ =>
          rw [hwalk'] at hwalk
          cases hwalk
      | set hwalk' _ _ _ =>
          rw [hwalk'] at hwalk
          cases hwalk
  | @refused _ _ other _ _ _ hwalk hfree hset =>
      cases h with
      | walk hwalk' _ =>
          rw [hwalk] at hwalk'
          cases hwalk'
      | check hwalk' hconstant hmember =>
          rw [hwalk] at hwalk'
          cases hwalk'
          have herror := (isBoundConstant_error_iff impl).mpr ⟨hconstant, hmember⟩
          rw [hfree] at herror
          cases herror
      | set hwalk' hfree' hset' _ =>
          rw [hwalk] at hwalk'
          cases hwalk'
          rw [hfree] at hfree'
          cases hfree'
          rw [hset] at hset'
          obtain rfl := Except.error.inj hset'
          exact ne_invalidAssignment_describe path other (Except.error.inj (Prod.mk.inj hresult).1)

/-- Where what leaks comes from: digits without a decimal value, or code of an object. -/
theorem Leaks.origin (h : Leaks impl w scope path v fault) :
    DigitsFault fault ∨ ReaderFault impl fault ∨
      SetterFault impl fault ∧ isRefusal fault = false := by
  cases h with
  | walk hwalk hlookup =>
      rcases locate_faults scope path w fault hwalk with hother | hdigits | hread
      · exact absurd hother hlookup
      · exact Or.inl hdigits
      · exact Or.inr (Or.inl hread)
  | @check owner name _ w₁ _ _ hmember =>
      rcases memberAs_faults owner name w₁ fault hmember with hdigits | hread
      · exact Or.inl hdigits
      · exact Or.inr (Or.inl hread)
  | @set owner name _ _ w₂ _ _ hset hrefusal =>
      rcases write_faults owner name v w₂ fault hset with hrefused | hdigits | hwrite
      · rw [hrefusal] at hrefused
        cases hrefused
      · exact Or.inl hdigits
      · exact Or.inr (Or.inr ⟨hwrite, hrefusal⟩)

/-- **How an assignment fails.**  It ends as documented if and only if no stage lets a fault
through.  What a stage lets through is what the assignment ends with; it comes from digits
without a decimal value, from an attribute that could not be read, or from an object that
failed to take the value with a fault that counts for no refusal. -/
theorem assign_documented_iff (impl : Implementation ω) (w : World ω) (scope : ScopeId)
    (path : String) (v : Value) :
    (Documented impl w scope path v (runFrom (assign impl scope path v) w) ↔
      ∀ fault, ¬ Leaks impl w scope path v fault) ∧
    ∀ fault, Leaks impl w scope path v fault →
      (runFrom (assign impl scope path v) w).1 = .error fault ∧
        (DigitsFault fault ∨ ReaderFault impl fault ∨
          SetterFault impl fault ∧ isRefusal fault = false) := by
  constructor
  · constructor
    · intro hdocumented fault hleaks
      rw [eq_of_fst (assign_of_leaks hleaks)] at hdocumented
      exact not_documented_of_leaks hleaks _ hdocumented
    · intro hquiet
      rcases assign_documented_or_leaks impl w scope path v with hdocumented | ⟨fault, hleaks⟩
      · exact hdocumented
      · exact absurd hleaks (hquiet fault)
  · exact fun fault hleaks => ⟨assign_of_leaks hleaks, hleaks.origin⟩

/-! ## An assignment that fails otherwise -/

/-- Item `²` of the list cannot be set, for want of a number. -/
theorem superscript_leaks (v : Value) :
    Leaks Run.listImplementation plainWorld 0 "l.²" v (.notInteger 10 "²") := by
  have hwalk : runFrom (locate Run.listImplementation 0 "l.²") plainWorld =
      (.ok (.value (.list 5), "²"), plainWorld) := rfl
  have hconstant : Name.isConstant "²" = false := by decide +kernel
  have hindex : Name.isIndex "²" = true := by decide +kernel
  have hfree : runFrom (isBoundConstant Run.listImplementation (.value (.list 5)) "²") plainWorld =
      (.ok false, plainWorld) := by
    rw [runFrom_isBoundConstant, if_neg (by simp [hconstant])]
  refine .set hwalk hfree ?_ rfl
  unfold write
  dsimp only
  rw [if_pos hindex]
  rfl

/-- Not every assignment ends as documented. -/
theorem assign_not_always_documented :
    ¬ ∀ (ω : Type) (impl : Implementation ω) (w : World ω) (scope : ScopeId) (path : String)
      (v : Value), Documented impl w scope path v (runFrom (assign impl scope path v) w) := by
  intro h
  have hleaks := superscript_leaks .null
  have hdocumented := h _ Run.listImplementation plainWorld 0 "l.²" .null
  rw [eq_of_fst (assign_of_leaks hleaks)] at hdocumented
  exact not_documented_of_leaks hleaks _ hdocumented

/-- The assignment to item `²`, by the general statement: its fault is neither of the two that
are documented. -/
theorem superscript_assignment_fails :
    Leaks Run.listImplementation plainWorld 0 "l.²" .null (.notInteger 10 "²") ∧
      (runFrom (assign Run.listImplementation 0 "l.²" .null) plainWorld).1 =
        .error (.notInteger 10 "²") ∧
      (Fault.notInteger 10 "²").kind = "ValueError" := by
  have hleaks := superscript_leaks .null
  exact ⟨hleaks,
    ((assign_documented_iff Run.listImplementation plainWorld 0 "l.²" .null).2 _ hleaks).1, rfl⟩

end Conformance.Scope
