import Conformance.Proofs.Past
import Conformance.Proofs.Preservation
import Conformance.Proofs.Stages

/-!
# What is logged and printed is not read

A run writes a log and prints, and it never looks at either.  So from two worlds
that differ in nothing else it comes to the same result, and to two such worlds
again.

`Agree` says this of two steps, which need not be one and the same: a step that
only logs agrees with doing nothing.  The key fact is
`runSpecification_agree`: what a specification gives does not depend on who
listens, as long as the listeners do no more than report.
-/

namespace Conformance

variable {ω α β : Type}

/-- The worlds differ in their log and their output at most. -/
structure SameState (w w' : World ω) : Prop where
  store : w.store = w'.store
  scopes : w.scopes = w'.scopes

namespace SameState

variable {w w' w'' : World ω}

theorem refl (w : World ω) : SameState w w := ⟨rfl, rfl⟩

theorem symm (h : SameState w w') : SameState w' w := ⟨h.store.symm, h.scopes.symm⟩

theorem trans (h : SameState w w') (h' : SameState w' w'') : SameState w w'' :=
  ⟨h.store.trans h'.store, h.scopes.trans h'.scopes⟩

/-- What a scope binds is part of what is the same. -/
theorem bindings_eq (h : SameState w w') (scope : ScopeId) :
    w.bindings scope = w'.bindings scope := by
  unfold World.bindings
  rw [h.scopes]

end SameState

/-- To be related by equality is to be equal, faults included. -/
theorem resultRel_eq_iff {r r' : Except Fault α} : ResultRel Eq r r' ↔ r = r' := by
  constructor
  · intro h
    cases h with
    | ok h => rw [h]
    | error fault => rfl
  · intro h
    subst h
    cases r with
    | ok a => exact .ok rfl
    | error fault => exact .error fault

/-- From worlds in the same state the two steps come to the same result, and to
worlds in the same state. -/
def Agree (step step' : Exec ω α) : Prop := Follows SameState Eq step step'

namespace Agree

variable {step step' : Exec ω α} {next next' : α → Exec ω β} {w w' : World ω}

theorem pure (a : α) : Agree (Pure.pure a : Exec ω α) (Pure.pure a) := Follows.pure rfl

/-- A fault agrees with itself. -/
theorem throw (fault : Fault) :
    Agree (MonadExcept.throw fault : Exec ω α) (MonadExcept.throw fault) :=
  Follows.throw fault

/-- Sequences agree if their parts do. -/
theorem bind (h : Agree step step') (hnext : ∀ a, Agree (next a) (next' a)) :
    Agree (step >>= next) (step' >>= next') := by
  refine Follows.bind h ?_
  intro a b hab
  subst hab
  exact hnext a

/-- Attempts of steps that agree agree. -/
theorem attempt (h : Agree step step') : Agree (Exec.attempt step) (Exec.attempt step') := by
  intro w w' hw
  obtain ⟨hresult, hstate⟩ := h w w' hw
  rw [runFrom_attempt, runFrom_attempt]
  exact ⟨.ok (resultRel_eq_iff.mp hresult), hstate⟩

/-- Code of an implementation sees the store only, so it agrees with itself. -/
theorem code (c : Code ω α) : Agree (Exec.code c) (Exec.code c) := by
  intro w w' hw
  rw [runFrom_code, runFrom_code, hw.store]
  exact ⟨resultRel_eq_iff.mpr rfl, rfl, hw.scopes⟩

theorem bindings (scope : ScopeId) :
    Agree (Exec.bindings scope : Exec ω Bindings) (Exec.bindings scope) :=
  fun _ _ hw => ⟨.ok (hw.bindings_eq scope), hw⟩

/-- Binding in a scope agrees with itself. -/
theorem setBindings (scope : ScopeId) (b : Bindings) :
    Agree (Exec.setBindings scope b : Exec ω Unit) (Exec.setBindings scope b) := by
  intro w w' hw
  rw [runFrom_setBindings, runFrom_setBindings, hw.scopes]
  exact ⟨.ok rfl, hw.store, rfl⟩

/-- Opening a scope agrees with itself. -/
theorem newScope (b : Bindings) :
    Agree (Exec.newScope b : Exec ω ScopeId) (Exec.newScope b) := by
  intro w w' hw
  rw [runFrom_newScope, runFrom_newScope, hw.scopes]
  exact ⟨.ok rfl, hw.store, rfl⟩

/-- Logging agrees with doing nothing. -/
theorem log (level : Level) (channel : Channel) (message : String) :
    Agree (Exec.log level channel message : Exec ω Unit) (Pure.pure ()) :=
  fun _ _ hw => ⟨.ok rfl, hw.store, hw.scopes⟩

theorem symm (h : Agree step step') : Agree step' step := by
  intro w w' hw
  obtain ⟨hresult, hstate⟩ := h w' w hw.symm
  exact ⟨resultRel_eq_iff.mpr (resultRel_eq_iff.mp hresult).symm, hstate.symm⟩

theorem trans {step'' : Exec ω α} (h : Agree step step') (h' : Agree step' step'') :
    Agree step step'' := by
  intro w w' hw
  obtain ⟨hresult, hstate⟩ := h w w' hw
  obtain ⟨hresult', hstate'⟩ := h' w' w' (.refl w')
  rw [resultRel_eq_iff] at hresult hresult'
  exact ⟨resultRel_eq_iff.mpr (hresult.trans hresult'), hstate.trans hstate'⟩

/-- Where one step ends, the other does. -/
theorem run_eq {result : Except Fault α} {w₁ : World ω} (h : Agree step step')
    (hw : SameState w w') (hrun : runFrom step w = (result, w₁)) :
    ∃ w₁', runFrom step' w' = (result, w₁') ∧ SameState w₁ w₁' := by
  obtain ⟨hresult, hstate⟩ := h w w' hw
  rw [resultRel_eq_iff] at hresult
  rw [hrun] at hresult hstate
  exact ⟨(runFrom step' w').2, Prod.ext hresult.symm rfl, hstate⟩

/-- **Agreeing with itself composes**: what logs and prints are like makes no
difference to any step of a feature. -/
theorem composes : Composes (fun step : Exec ω _ => Agree step step) where
  pure := pure
  throw := throw
  bind := bind
  attempt := attempt
  code := code
  bindings := bindings
  look := by
    intro α next hstore hnext w w' hw
    change ResultRel Eq (runFrom (next w) w).1 (runFrom (next w') w').1 ∧
      SameState (runFrom (next w) w).2 (runFrom (next w') w').2
    rw [hstore w w' hw.store hw.scopes]
    exact hnext w' w w' hw
  log := fun level channel message =>
    (log level channel message).trans (log level channel message).symm

end Agree

namespace Run

variable {impl : Implementation ω}

/-- The listener only logs and prints. -/
def Listener.ReportsOnly (listener : Listener ω) : Prop :=
  ∀ r w, ∃ log output, runFrom (listener r) w = (.ok (), { w with log, output })

/-- The listener that does nothing. -/
def silent : Listener ω := fun _ => pure ()

/-- A listener that does nothing reports only. -/
theorem silent_reportsOnly : Listener.ReportsOnly (silent : Listener ω) :=
  fun _ w => ⟨w.log, w.output, rfl⟩

/-- Listening that only reports agrees with doing nothing. -/
theorem Listener.ReportsOnly.agree {listener : Listener ω} (h : listener.ReportsOnly)
    (r : FeatureResult) : Agree (listener r) (pure ()) := by
  intro w w' hw
  obtain ⟨log, output, hrun⟩ := h r w
  rw [hrun]
  exact ⟨.ok rfl, hw.store, hw.scopes⟩

/-- A feature does not read what is logged and printed. -/
theorem runFeature_agree (scope : ScopeId) (f : Feature) :
    Agree (runFeature impl scope f) (runFeature impl scope f) :=
  runFeature_kept Agree.composes.keeps (Scope.assign_kept Agree.composes.keeps Agree.setBindings) scope f

/-- Building a scope does not look at the log. -/
theorem buildScope_agree (spec : Specification ω) :
    Agree (buildScope impl spec) (buildScope impl spec) :=
  buildScope_kept Agree.composes Agree.newScope Agree.setBindings spec

section Listeners

variable {listener listener' : Listener ω} (h : listener.ReportsOnly) (h' : listener'.ReportsOnly)
include h h'

/-- Features come to the same results, whoever listens. -/
theorem runFeatures_agree (scope : ScopeId) (fs : List Feature) :
    Agree (runFeatures impl listener scope fs) (runFeatures impl listener' scope fs) := by
  induction fs with
  | nil => exact Agree.pure _
  | cons f fs ih =>
      unfold runFeatures
      refine Agree.bind (Agree.attempt (runFeature_agree scope f)) fun result => ?_
      cases result with
      | error fault => exact Agree.pure _
      | ok r =>
          refine Agree.bind ((h.agree r).trans (h'.agree r).symm) fun _ => ?_
          exact Agree.bind ih fun _ => Agree.pure _

/-- **A specification gives the same to every listener that only reports.** -/
theorem runSpecification_agree (spec : Specification ω) :
    Agree (runSpecification impl listener spec) (runSpecification impl listener' spec) := by
  unfold runSpecification
  cases spec.error with
  | some fault => exact Agree.bind (Agree.composes.log _ _ _) fun _ => Agree.pure _
  | none =>
      unfold runLoaded
      refine Agree.bind (Agree.attempt (buildScope_agree spec)) fun built => ?_
      cases built with
      | error fault => exact abort_kept Agree.composes _ fault
      | ok scope =>
          refine Agree.bind (runFeatures_agree h h' scope spec.features) fun run => ?_
          obtain ⟨results, stop⟩ := run
          cases stop with
          | none => exact Agree.pure _
          | some fault => exact abort_kept Agree.composes _ fault

end Listeners

end Run

end Conformance
