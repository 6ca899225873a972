import Conformance.Proofs.Oblivious
import Conformance.Proofs.Tally

/-!
# Comments and skipped features are inert

A feature that is a comment or is skipped has its result at once.  It is not
executed, nothing is bound and nothing is judged; all it leaves is a log record.
A specification therefore runs as it would with its tested features alone.

Two runs are the same here if every feature that is executed starts from the same
store and the same bindings and comes to the same call (`executionsOf`), and if
they end in the same state.  The induction of `runFeatures_inert` goes along the
features and lets the shorter run wait at each one that is left out.
-/

namespace Conformance

variable {ω : Type}

/-- The specification with its tested features alone. -/
def Specification.tested (spec : Specification ω) : Specification ω :=
  { spec with features := spec.features.filter (·.isTested) }

/-- The report with the results of tested features alone. -/
def SpecificationResult.tested (r : SpecificationResult) : SpecificationResult :=
  { r with
    results := r.results.filter (·.isTested)
    total := r.total - r.skipped
    skipped := 0 }

/-- Nothing but tested features is left to be counted. -/
theorem Specification.statsOf_tested (fs : List Feature) :
    (statsOf (fs.filter (·.isTested))).tests = (statsOf fs).tests - (statsOf fs).skipped ∧
      (statsOf (fs.filter (·.isTested))).skipped = 0 := by
  have hall := tests_eq fs
  have htested := tests_eq (fs.filter (·.isTested))
  have hcount : (fs.filter (·.isTested)).countP (·.isTested) = fs.countP (·.isTested) := by
    rw [List.countP_filter]
    exact List.countP_congr fun f _ => by simp
  have hskipped : (statsOf (fs.filter (·.isTested))).skipped = 0 := by
    refine List.countP_eq_zero.mpr fun f hf => ?_
    obtain ⟨-, hf⟩ := List.mem_filter.mp hf
    obtain ⟨-, hskip⟩ := Feature.isTested_iff.mp hf
    simp [hskip]
  exact ⟨by omega, hskipped⟩

namespace Run

variable {impl : Implementation ω}

/-! ## Single features -/

variable (impl) in
/-- **A feature that is not tested** leaves the state as it is, and its result is
no verdict. -/
theorem runFeature_untested {f : Feature} (h : f.isTested = false) (scope : ScopeId)
    (w : World ω) :
    ∃ r w', runFrom (runFeature impl scope f) w = (.ok r, w') ∧ r.isTested = false ∧
      SameState w w' := by
  have hnot : ¬ (f.isComment = false ∧ f.skip = false) := by
    intro hboth
    rw [Feature.isTested_iff.mpr hboth] at h
    cases h
  obtain ⟨r, log, hrun, hfeature⟩ := runFeature_of_untested impl scope w hnot
  refine ⟨r, _, hrun, ?_, rfl, rfl⟩
  rw [(runFeature_fits hrun).tested, hfeature, h]

/-- The result of a tested feature is a verdict. -/
theorem runFeature_tested {f : Feature} (h : f.isTested = true) {scope : ScopeId}
    {w w' : World ω} {r : FeatureResult}
    (hrun : runFrom (runFeature impl scope f) w = (.ok r, w')) : r.isTested = true := by
  rw [(runFeature_fits hrun).tested, runFeature_feature hrun, h]

/-! ## What is executed -/

/-- A call: what is called, with which arguments, and the store it finds. -/
structure Call (ω : Type) where
  callee : Value
  arguments : List Value
  store : Store ω

/-- A feature that is executed, the store and the bindings from which it starts,
and the call that it comes to, if it comes to one. -/
structure Execution (ω : Type) where
  feature : Feature
  store : Store ω
  scopes : Array Bindings
  call? : Option (Call ω)

variable (impl)

/-- The call that executing a feature comes to. -/
def callOf? (scope : ScopeId) (f : Feature) (w : World ω) : Option (Call ω) :=
  match runFrom (Scope.resolve impl scope f.expected) w, f.action with
  | (.ok _, w₁), .call _ property args kwargs _ =>
    match runFrom (prepareCall impl scope property args kwargs) w₁ with
    | (.ok (callee, all), w₂) => some ⟨callee, all, w₂.store⟩
    | (.error _, _) => none
  | _, _ => none

/-- The executions of features that run in order, up to a fault. -/
def executions (listener : Listener ω) (scope : ScopeId) :
    List Feature → World ω → List (Execution ω)
  | [], _ => []
  | f :: fs, w =>
    let later := match runFrom (runFeature impl scope f) w with
      | (.error _, _) => []
      | (.ok r, w₁) =>
        match runFrom (listener r) w₁ with
        | (.error _, _) => []
        | (.ok _, w₂) => executions listener scope fs w₂
    if f.isTested then ⟨f, w.store, w.scopes, callOf? impl scope f w⟩ :: later else later

/-- The executions of a specification. -/
def executionsOf (listener : Listener ω) (spec : Specification ω) (w : World ω) :
    List (Execution ω) :=
  match spec.error, runFrom (buildScope impl spec) w with
  | none, (.ok scope, w₁) => executions impl listener scope spec.features w₁
  | _, _ => []

variable {impl}

/-- The call of a feature does not depend on what has been logged and printed. -/
theorem callOf?_eq (scope : ScopeId) (f : Feature) {w w' : World ω} (hw : SameState w w') :
    callOf? impl scope f w = callOf? impl scope f w' := by
  unfold callOf?
  rcases hresolve : runFrom (Scope.resolve impl scope f.expected) w with ⟨result, w₁⟩
  obtain ⟨w₁', hresolve', hw₁⟩ :=
    (Scope.resolve_kept Agree.composes.keeps scope f.expected).run_eq hw hresolve
  rw [hresolve']
  cases result with
  | error fault => rfl
  | ok e =>
      cases f.action with
      | call assign property args kwargs expected =>
          dsimp only
          rcases hprepare : runFrom (prepareCall impl scope property args kwargs) w₁ with
            ⟨prepared, w₂⟩
          obtain ⟨w₂', hprepare', hw₂⟩ :=
            (prepareCall_kept Agree.composes.keeps scope property args kwargs).run_eq hw₁ hprepare
          rw [hprepare']
          cases prepared with
          | error fault => rfl
          | ok pair =>
              obtain ⟨callee, all⟩ := pair
              dsimp only
              rw [hw₂.store]
      | _ => rfl

/-- **The call of a feature is the one that executing it makes**, with its outcome. -/
theorem execute_of_callOf? {scope : ScopeId} {f : Feature} {w : World ω} {c : Call ω}
    (h : callOf? impl scope f w = some c) :
    ∃ e w₂, w₂.store = c.store ∧
      runFrom (execute impl scope f) w =
        match runFrom (Scope.call impl c.callee c.arguments >>= Scope.awaited impl) w₂ with
        | (.ok v, w₃) => (.ok (.done v e), w₃)
        | (.error fault, w₃) => (.ok (.failed (.resolved e) fault), w₃) := by
  unfold callOf? at h
  rcases hresolve : runFrom (Scope.resolve impl scope f.expected) w with ⟨fault | e, w₁⟩
  · rw [hresolve] at h
    cases h
  · rw [hresolve] at h
    rw [execute_resolved hresolve]
    cases haction : f.action with
    | call assign property args kwargs expected =>
        rw [haction] at h
        dsimp only at h
        rcases hprepare : runFrom (prepareCall impl scope property args kwargs) w₁ with
          ⟨fault | ⟨callee, all⟩, w₂⟩
        · rw [hprepare] at h
          cases h
        · rw [hprepare] at h
          cases h
          have hcalled : runFrom (operate impl scope
              (.call assign property args kwargs expected) e) w₁ =
                runFrom (Scope.call impl callee all >>= Scope.awaited impl) w₂ :=
            runFrom_bind_of_ok hprepare
          refine ⟨e, w₂, rfl, ?_⟩
          rcases hrun : runFrom (Scope.call impl callee all >>= Scope.awaited impl) w₂ with
            ⟨fault | v, w₃⟩
          all_goals simp only [hcalled, hrun]
    | _ =>
        rw [haction] at h
        cases h

section Runs

variable {listener listener' : Listener ω} (h : listener.ReportsOnly) (h' : listener'.ReportsOnly)

/-! ## Features in order -/

include h in
/-- What is executed behind a feature that has a result. -/
theorem executions_cons_of_ok {scope : ScopeId} {f : Feature} (fs : List Feature) {r : FeatureResult}
    {w w₁ : World ω} (hf : runFrom (runFeature impl scope f) w = (.ok r, w₁)) :
    ∃ w₂, runFrom (listener r) w₁ = (.ok (), w₂) ∧ SameState w₁ w₂ ∧
      executions impl listener scope (f :: fs) w =
        if f.isTested then
          ⟨f, w.store, w.scopes, callOf? impl scope f w⟩ :: executions impl listener scope fs w₂
        else executions impl listener scope fs w₂ := by
  obtain ⟨log, output, hheard⟩ := h r w₁
  refine ⟨_, hheard, ⟨rfl, rfl⟩, ?_⟩
  rw [executions, hf]
  dsimp only
  rw [hheard]

variable (impl) in
include h h' in
/-- **Features run as the tested ones among them do.**  Both runs come to the same
end, and the longer one has further results for the other features only. -/
theorem runFeatures_inert (scope : ScopeId) (fs : List Feature) :
    ∀ w w' : World ω, SameState w w' → ∃ rs stop w₁ w₁',
      runFrom (runFeatures impl listener scope fs) w = (.ok (rs, stop), w₁) ∧
      runFrom (runFeatures impl listener' scope (fs.filter (·.isTested))) w' =
        (.ok (rs.filter (·.isTested), stop), w₁') ∧
      SameState w₁ w₁' ∧
      executions impl listener' scope (fs.filter (·.isTested)) w' =
        executions impl listener scope fs w := by
  induction fs with
  | nil =>
      intro w w' hw
      exact ⟨[], none, w, w', rfl, rfl, hw, rfl⟩
  | cons f fs ih =>
      intro w w' hw
      by_cases htested : f.isTested = true
      · -- Both runs execute the feature, from the same state.
        rw [List.filter_cons_of_pos htested]
        rcases hf : runFrom (runFeature impl scope f) w with ⟨fault | r, w₁⟩
        · obtain ⟨w₁', hf', hw₁⟩ := (runFeature_agree scope f).run_eq hw hf
          refine ⟨[], some fault, w₁, w₁', runFeatures_of_error hf, runFeatures_of_error hf', hw₁, ?_⟩
          rw [executions, executions, hf, hf', if_pos htested, if_pos htested,
            callOf?_eq scope f hw, hw.store, hw.scopes]
        · obtain ⟨w₁', hf', hw₁⟩ := (runFeature_agree scope f).run_eq hw hf
          obtain ⟨w₂, hheard, hw₂, hexecuted⟩ := executions_cons_of_ok h fs hf
          obtain ⟨w₂', hheard', hw₂', hexecuted'⟩ :=
            executions_cons_of_ok h' (fs.filter (·.isTested)) hf'
          obtain ⟨rs, stop, w₃, w₃', hrest, hrest', hw₃, hlater⟩ :=
            ih w₂ w₂' ((hw₂.symm.trans hw₁).trans hw₂')
          have hr : r.isTested = true := runFeature_tested htested hf
          refine ⟨r :: rs, stop, w₃, w₃', runFeatures_cons hf hheard hrest, ?_, hw₃, ?_⟩
          · rw [List.filter_cons_of_pos hr]
            exact runFeatures_cons hf' hheard' hrest'
          · rw [hexecuted, hexecuted', if_pos htested, if_pos htested, hlater,
              callOf?_eq scope f hw, hw.store, hw.scopes]
      · -- The shorter run waits.
        rw [List.filter_cons_of_neg htested]
        obtain ⟨r, w₁, hf, hr, hw₁⟩ :=
          runFeature_untested impl (by simpa using htested) scope w
        obtain ⟨w₂, hheard, hw₂, hexecuted⟩ := executions_cons_of_ok h fs hf
        obtain ⟨rs, stop, w₃, w₃', hrest, hrest', hw₃, hlater⟩ :=
          ih w₂ w' ((hw₁.trans hw₂).symm.trans hw)
        refine ⟨r :: rs, stop, w₃, w₃', runFeatures_cons hf hheard hrest, ?_, hw₃, ?_⟩
        · rw [List.filter_cons_of_neg (by rw [hr]; decide)]
          exact hrest'
        · rw [hexecuted, if_neg htested, hlater]

end Runs

/-! ## Specifications -/

/-- The report before anything is run, of the tested features alone. -/
theorem startResult_tested (spec : Specification ω) :
    startResult spec.tested = (startResult spec).tested := by
  obtain ⟨htests, hskipped⟩ := Specification.statsOf_tested spec.features
  unfold startResult SpecificationResult.tested
  congr 1

/-- **Comments and skipped features are inert.**  A specification and the one with its
tested features alone execute the same features from the same states with the same
calls, end in the same state, and come to the same report but for the results that are
no verdicts; or both end with the same fault. -/
theorem untested_features_are_inert (impl : Implementation ω) (listener listener' : Listener ω)
    (h : listener.ReportsOnly) (h' : listener'.ReportsOnly) (spec : Specification ω)
    (w : World ω) :
    executionsOf impl listener' spec.tested w = executionsOf impl listener spec w ∧
    ResultRel (fun r r' => r' = r.tested)
      (runFrom (runSpecification impl listener spec) w).1
      (runFrom (runSpecification impl listener' spec.tested) w).1 ∧
    SameState (runFrom (runSpecification impl listener spec) w).2
      (runFrom (runSpecification impl listener' spec.tested) w).2 := by
  have hstart := startResult_tested spec
  cases hread : spec.error with
  | some fault =>
      have hread' : spec.tested.error = some fault := hread
      unfold executionsOf runSpecification
      rw [hread, hread', hstart]
      exact ⟨rfl, .ok rfl, rfl, rfl⟩
  | none =>
      have hread' : spec.tested.error = none := hread
      have hbuild : buildScope impl spec.tested = buildScope impl spec := rfl
      rcases hbuilt : runFrom (buildScope impl spec) w with ⟨fault | scope, w₁⟩
      · have hauthoring := buildScope_faults spec w fault (by rw [hbuilt])
        unfold executionsOf runSpecification runLoaded
        rw [hread, hread', hbuild, hbuilt]
        dsimp only
        rw [runFrom_bind, runFrom_bind, runFrom_attempt, hbuilt]
        dsimp only
        rw [abort_of_authoring hauthoring, abort_of_authoring hauthoring, hstart]
        exact ⟨rfl, .ok rfl, rfl, rfl⟩
      · obtain ⟨rs, stop, w₂, w₂', hrun, hrun', hw₂, hexecuted⟩ :=
          runFeatures_inert impl h h' scope spec.features w₁ w₁ (.refl w₁)
        have hbuilt' : runFrom (buildScope impl spec.tested) w = (.ok scope, w₁) := hbuilt
        rw [runSpecification_stages hread hbuilt hrun, runSpecification_stages hread' hbuilt' hrun',
          hstart]
        refine ⟨?_, ?_⟩
        · unfold executionsOf
          rw [hread, hread', hbuilt, hbuilt']
          exact hexecuted
        · cases stop with
          | none => exact ⟨.ok rfl, hw₂⟩
          | some fault =>
              dsimp only
              cases hauthoring : fault.isAuthoring with
              | true =>
                  rw [abort_of_authoring hauthoring, abort_of_authoring hauthoring]
                  exact ⟨.ok rfl, hw₂.store, hw₂.scopes⟩
              | false =>
                  rw [abort_of_other hauthoring, abort_of_other hauthoring]
                  exact ⟨.error fault, hw₂⟩

/-- The declaration passes and the reading fails as they do with a comment and a
skipped reading between them. -/
theorem mixed_inert :
    Listener.ReportsOnly (silent : Listener Sample.Object) ∧
    executionsOf listImplementation silent mixedSpecification.tested (World.ofStore listStore) =
      executionsOf listImplementation silent mixedSpecification (World.ofStore listStore) ∧
    ∃ w', runFrom (runSpecification listImplementation silent mixedSpecification.tested)
        (World.ofStore listStore) =
      (.ok ⟨"p", [⟨listDeclaration, .passed, .str "p", none⟩, goneResult], 2, 0, none, some 0⟩,
        w') := by
  obtain ⟨w₁, hrun⟩ := mixedSpecification_runs
  obtain ⟨hexecuted, hresult, -⟩ := untested_features_are_inert listImplementation silent silent
    silent_reportsOnly silent_reportsOnly mixedSpecification (World.ofStore listStore)
  obtain ⟨r, htested, rfl⟩ := hresult.exists_of_ok (congrArg Prod.fst hrun)
  exact ⟨silent_reportsOnly, hexecuted, _, eq_of_fst htested⟩

end Run

end Conformance
