import Conformance.Proofs.Stages
import Conformance.Sample.Implementation

/-!
# Verdicts

A feature that is neither a comment nor skipped passes or fails, and which of
the two depends on three things only: the value that executing it gives, what is
expected of it, and the world in which both are looked at, after the outcome was
bound.  `runFeature_judged` states this, with the detail that a failed feature
has.

An expectation is written as an authored value and judged as a live one.  So a
reference is worth what is bound at its path: `reference_verdict` states when a
feature whose expected value is a reference passes.  What is bound there may be
null or the marker for anything, and then nothing is compared.
-/

namespace Conformance

/-- An expected value that every outcome but a failure meets. -/
def Value.IsOpen (v : Value) : Prop := v = .scalar .null ∨ v = .scalar (.sentinel .any)

/-- The value is a text equal to the name of the failure marker. -/
def Value.isError : Value → Bool
  | .scalar s => s.isError
  | _ => false

namespace Run

variable {ω : Type} (impl : Implementation ω)

/-! ## Data of outcomes and expectations -/

section Data

variable {names : ScopeId → List String} {store : Store ω}

/-- Only scalars have scalars as data. -/
theorem datum_eq_scalar_iff {v : Value} {s : Scalar} :
    impl.datum names store v = .scalar s ↔ v = .scalar s := by
  unfold Implementation.datum Implementation.datumTo
  cases v with
  | scalar t => simp [Value.datumBy]
  | object location =>
      rw [Value.datumBy, Implementation.cellDatum]
      simp
  | _ => simp [Value.datumBy, Implementation.cellDatum]

theorem isError_datum (v : Value) : (impl.datum names store v).isError = v.isError := by
  cases hd : impl.datum names store v with
  | scalar s =>
      obtain rfl := (datum_eq_scalar_iff impl).mp hd
      rfl
  | _ =>
      cases v with
      | scalar s => cases hd
      | _ => rfl

theorem isOpen_datum_iff (v : Value) : isOpen (impl.datum names store v) = true ↔ v.IsOpen := by
  have hdatum : v.IsOpen ↔ impl.datum names store v = .scalar .null ∨
      impl.datum names store v = .scalar (.sentinel .any) :=
    or_congr (datum_eq_scalar_iff impl).symm (datum_eq_scalar_iff impl).symm
  rw [hdatum]
  unfold isOpen
  split <;> simp_all

end Data

/-! ## What is judged, and when -/

/-- Executing a feature and binding its outcome ends well, with that outcome and a
world. -/
inductive Yields (scope : ScopeId) (f : Feature) (w : World ω) (outcome : Outcome)
    (w₂ : World ω) : Prop
  | intro {w₁ : World ω} (hexecuted : runFrom (execute impl scope f) w = (.ok outcome, w₁))
      (hbound : runFrom (bindOutcome impl scope f outcome.value) w₁ = (.ok (), w₂))

/-- Values are equal in canonical form, as things are in a world. -/
def EqualIn (w : World ω) (actual expected : Value) : Prop :=
  (runFrom (canonicallyEqual impl (impl.datum w.names w.store actual)
    (impl.datum w.names w.store expected)) w.store).1 = .ok true

variable {impl}

/-- **A verdict** on a feature that is tested is a judgement of what executing and
binding it yields. -/
theorem runFeature_judged {scope : ScopeId} {f : Feature} {w w' : World ω} {r : FeatureResult}
    (htested : f.isComment = false ∧ f.skip = false)
    (h : runFrom (runFeature impl scope f) w = (.ok r, w')) :
    ∃ outcome w₂, Yields impl scope f w outcome w₂ ∧ Judged impl f outcome w₂ r := by
  obtain ⟨outcome, w₁, w₂, hexecuted, hbound, hjudged⟩ := runFeature_ok htested h
  exact ⟨outcome, w₂, ⟨hexecuted, hbound⟩, judge_judged hjudged⟩

/-- An outcome meets an open expected value unless it is a failure, and any other
one if the two are equal. -/
theorem meets_iff {outcome : Outcome} {w : World ω} {v : Value}
    (hexpected : outcome.expected = .resolved v) :
    Meets impl outcome w ↔
      v.IsOpen ∧ outcome.value.isError = false ∨
        ¬ v.IsOpen ∧ EqualIn impl w outcome.value v := by
  rw [Meets, hexpected]
  change (runFrom (compare impl (impl.datum w.names w.store outcome.value)
    (impl.datum w.names w.store v)) w.store).1 = .ok true ↔ _
  rw [runFrom_compare]
  by_cases hopen : v.IsOpen
  · rw [if_pos ((isOpen_datum_iff impl v).mpr hopen), isError_datum]
    simp [hopen]
  · rw [if_neg fun h => hopen ((isOpen_datum_iff impl v).mp h), EqualIn]
    rcases runFrom (canonicallyEqual impl (impl.datum w.names w.store outcome.value)
      (impl.datum w.names w.store v)) w.store with ⟨fault | same, s⟩
    · simp only [hopen, reduceCtorEq, false_and, and_false, or_false, iff_false]
      split <;> simp
    · simp [hopen]

/-! ## References -/

/-- What an executed feature is judged by is its expected value, resolved at its
start. -/
theorem execute_expected {scope : ScopeId} {f : Feature} {w w₀ w₁ : World ω} {v : Value}
    {outcome : Outcome} (hresolved : runFrom (Scope.resolve impl scope f.expected) w = (.ok v, w₀))
    (h : runFrom (execute impl scope f) w = (.ok outcome, w₁)) : outcome.expected = .resolved v := by
  cases executed_of_execute h with
  | unresolved hfault =>
      rw [hresolved] at hfault
      cases hfault
  | raised hexpected _ | done hexpected _ =>
      rw [hresolved] at hexpected
      cases hexpected
      rfl

/-- **An expected reference** is judged by the value bound at its path when the
feature starts.  If that is null or the marker for anything, the feature passes
unless it fails to execute; otherwise it passes exactly if its outcome equals
that value in canonical form, as both are once the outcome is bound. -/
theorem reference_verdict {scope : ScopeId} {f : Feature} {path : String} {w w₀ w' : World ω}
    {v : Value} {r : FeatureResult} (htested : f.isComment = false ∧ f.skip = false)
    (hexpected : f.expected = .reference path)
    (hbound : runFrom (Scope.get impl scope path) w = (.ok v, w₀))
    (h : runFrom (runFeature impl scope f) w = (.ok r, w')) :
    ∃ outcome w₂, Yields impl scope f w outcome w₂ ∧ r.outcome = outcome.value ∧
      (r.status = .passed ↔
        v.IsOpen ∧ r.outcome.isError = false ∨ ¬ v.IsOpen ∧ EqualIn impl w₂ r.outcome v) := by
  obtain ⟨outcome, w₂, hyields, hjudged⟩ := runFeature_judged htested h
  have hresolved : runFrom (Scope.resolve impl scope f.expected) w = (.ok v, w₀) := by
    rw [hexpected, Scope.resolve]
    exact hbound
  refine ⟨outcome, w₂, hyields, hjudged.outcome_eq, ?_⟩
  obtain ⟨hexecuted, -⟩ := hyields
  rw [hjudged.passed_iff, meets_iff (execute_expected hresolved hexecuted), hjudged.outcome_eq]

/-! ### A reference to null -/

/-- The world of a scope in which `answer` is 5 and `nothing` is null. -/
def answerWorld : World Sample.Object :=
  ⟨Sample.initialStore, #[[("answer", .int 5), ("nothing", .null)]], #[], #[]⟩

/-- Reads `answer` and expects what is bound at a path. -/
def answerFeature (path : String) : Feature :=
  .ofAction false (.read none "answer" (.reference path))

/-- The feature is judged by what is bound at the path, with 5 as its outcome. -/
theorem run_answerFeature {path : String} {v : Value}
    (h : runFrom (Scope.get (Sample.implementation []) 0 path) answerWorld = (.ok v, answerWorld)) :
    runFrom (runFeature (Sample.implementation []) 0 (answerFeature path)) answerWorld =
      runFrom (judge (Sample.implementation []) (answerFeature path) (.done (.int 5) v))
        answerWorld := by
  have hexecuted : runFrom (execute (Sample.implementation []) 0 (answerFeature path)) answerWorld =
      (.ok (.done (.int 5) v), answerWorld) :=
    execute_read_reference rfl (by decide) (by decide) rfl h
  rw [runFeature_of_tested ⟨rfl, rfl⟩, runFrom_bind_of_ok hexecuted]
  rfl

/-- The outcome 5 passes against `answer`, which it equals. -/
theorem answer_equals_reference :
    runFrom (Scope.get (Sample.implementation []) 0 "answer") answerWorld =
        (.ok (.int 5), answerWorld) ∧
      ∃ r w', runFrom (runFeature (Sample.implementation []) 0 (answerFeature "answer"))
        answerWorld = (.ok r, w') ∧ r.status = .passed ∧
        ∃ w₂, EqualIn (Sample.implementation []) w₂ r.outcome (.int 5) := by
  have hbound : runFrom (Scope.get (Sample.implementation []) 0 "answer") answerWorld =
      (.ok (.int 5), answerWorld) :=
    Scope.get_of_bound _ (by decide) (by decide) rfl
  have hrun := (run_answerFeature hbound).trans
    (judge_passed _ (hasForm_int 5) (hasForm_int 5) rfl rfl answerWorld)
  obtain ⟨outcome, w₂, -, -, hpassed⟩ := reference_verdict ⟨rfl, rfl⟩ rfl hbound hrun
  have hopen : ¬ (Value.int 5).IsOpen := by rintro (h | h) <;> cases h
  rcases hpassed.mp rfl with ⟨h, -⟩ | ⟨-, hequal⟩
  · exact absurd h hopen
  · exact ⟨hbound, _, _, hrun, rfl, w₂, hequal⟩

/-- A reference to null is not compared: the outcome 5 passes against `nothing`. -/
theorem null_reference_not_compared :
    ¬ ∀ (ω : Type) (impl : Implementation ω) (scope : ScopeId) (f : Feature) (path : String)
      (w w₀ w' : World ω) (v : Value) (r : FeatureResult),
      f.isComment = false ∧ f.skip = false → f.expected = .reference path →
      runFrom (Scope.get impl scope path) w = (.ok v, w₀) →
      runFrom (runFeature impl scope f) w = (.ok r, w') → r.status = .passed →
      ∃ outcome w₂, Yields impl scope f w outcome w₂ ∧ EqualIn impl w₂ r.outcome v := by
  intro h
  have hbound : runFrom (Scope.get (Sample.implementation []) 0 "nothing") answerWorld =
      (.ok .null, answerWorld) :=
    Scope.get_of_bound _ (by decide) (by decide) rfl
  have hrun : runFrom (runFeature (Sample.implementation []) 0 (answerFeature "nothing"))
      answerWorld = (.ok ⟨answerFeature "nothing", .passed, .int 5, none⟩,
        { answerWorld with log := #[⟨.debug, .runner, "Passed " ++ (answerFeature "nothing").text⟩] }) :=
    run_answerFeature hbound
  obtain ⟨outcome, w₂, -, hequal⟩ := h _ _ _ _ _ _ _ _ _ _ ⟨rfl, rfl⟩ rfl hbound hrun rfl
  have hform : HasForm .null .null := ⟨rfl, rfl⟩
  have hdiffers : (runFrom (canonicallyEqual (Sample.implementation []) (.scalar (.int 5))
      (.scalar .null)) w₂.store).1 = .ok true := hequal
  rw [canonicallyEqual_scalars (hasForm_int 5) hform] at hdiffers
  cases hdiffers

end Run

end Conformance
