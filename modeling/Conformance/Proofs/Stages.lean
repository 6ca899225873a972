import Conformance.Proofs.Binding
import Conformance.Run.Specification

/-!
# Stages of a run

A feature is executed, its outcome bound, and then judged.  Execution never
faults, and `Executed` lists what it can come to; the other two stages may
fault.  `judge_stages` gives the result of a judgement from the comparison and
the detail of a failure, and `Judged` lists the results there are.  A
specification builds its scope and runs its features there, which
`runSpecification_stages` puts together.  Scalars are compared with nothing asked
of the implementation.
-/

namespace Conformance.Run

variable {ω : Type} {impl : Implementation ω}

/-! ## Executing -/

/-- A feature whose expected value does not resolve fails with the value as
authored. -/
theorem execute_unresolved {scope : ScopeId} {f : Feature} {w w₁ : World ω} {fault : Fault}
    (h : runFrom (Scope.resolve impl scope f.expected) w = (.error fault, w₁)) :
    runFrom (execute impl scope f) w = (.ok (.failed (.unresolved f.expected) fault), w₁) := by
  unfold execute
  rw [runFrom_bind, runFrom_attempt, h]
  rfl

/-- **The stages of an execution** whose expected value resolves. -/
theorem execute_resolved {scope : ScopeId} {f : Feature} {w w₁ : World ω} {e : Value}
    (h : runFrom (Scope.resolve impl scope f.expected) w = (.ok e, w₁)) :
    runFrom (execute impl scope f) w =
      match runFrom (operate impl scope f.action e) w₁ with
      | (.ok v, w₂) => (.ok (.done v e), w₂)
      | (.error fault, w₂) => (.ok (.failed (.resolved e) fault), w₂) := by
  unfold execute
  rw [runFrom_bind, runFrom_attempt, h]
  dsimp only
  rw [runFrom_bind, runFrom_attempt]
  rcases runFrom (operate impl scope f.action e) w₁ with ⟨fault | v, w₂⟩
  · rfl
  · rfl

variable (impl) in
/-- What executing a feature can come to: its expected value does not resolve, its
operation raises, or it gives a value. -/
inductive Executed (scope : ScopeId) (f : Feature) (w : World ω) : Outcome → World ω → Prop
  | unresolved {fault : Fault} {w₁ : World ω}
      (hexpected : runFrom (Scope.resolve impl scope f.expected) w = (.error fault, w₁)) :
      Executed scope f w (.failed (.unresolved f.expected) fault) w₁
  | raised {e : Value} {fault : Fault} {w₁ w₂ : World ω}
      (hexpected : runFrom (Scope.resolve impl scope f.expected) w = (.ok e, w₁))
      (hoperated : runFrom (operate impl scope f.action e) w₁ = (.error fault, w₂)) :
      Executed scope f w (.failed (.resolved e) fault) w₂
  | done {e v : Value} {w₁ w₂ : World ω}
      (hexpected : runFrom (Scope.resolve impl scope f.expected) w = (.ok e, w₁))
      (hoperated : runFrom (operate impl scope f.action e) w₁ = (.ok v, w₂)) :
      Executed scope f w (.done v e) w₂

variable (impl) in
/-- **Executing a feature never faults**, whatever the implementation does. -/
theorem execute_executed (scope : ScopeId) (f : Feature) (w : World ω) :
    ∃ outcome w', runFrom (execute impl scope f) w = (.ok outcome, w') ∧
      Executed impl scope f w outcome w' := by
  rcases hresolve : runFrom (Scope.resolve impl scope f.expected) w with ⟨fault | e, w₁⟩
  · exact ⟨_, _, execute_unresolved hresolve, .unresolved hresolve⟩
  · rw [execute_resolved hresolve]
    rcases hoperated : runFrom (operate impl scope f.action e) w₁ with ⟨fault | v, w₂⟩
    · exact ⟨_, _, rfl, .raised hresolve hoperated⟩
    · exact ⟨_, _, rfl, .done hresolve hoperated⟩

variable (impl) in
theorem execute_ok (scope : ScopeId) (f : Feature) (w : World ω) :
    ∃ outcome w', runFrom (execute impl scope f) w = (.ok outcome, w') := by
  obtain ⟨outcome, w', h, -⟩ := execute_executed impl scope f w
  exact ⟨outcome, w', h⟩

theorem executed_of_execute {scope : ScopeId} {f : Feature} {outcome : Outcome} {w w' : World ω}
    (h : runFrom (execute impl scope f) w = (.ok outcome, w')) :
    Executed impl scope f w outcome w' := by
  obtain ⟨outcome', w₁, hrun, hexecuted⟩ := execute_executed impl scope f w
  rw [hrun] at h
  cases h
  exact hexecuted

/-- Executing a read whose expected value resolves. -/
theorem execute_read {scope : ScopeId} {f : Feature} {assign : Option String} {property : String}
    {v : Literal} {e : Value} {w w₁ : World ω} (hf : f.action = .read assign property v)
    (hresolve : runFrom (Scope.resolve impl scope v) w = (.ok e, w₁)) :
    runFrom (execute impl scope f) w =
      match runFrom (readOperand impl scope property) w₁ with
      | (.ok u, w₂) => (.ok (.done u e), w₂)
      | (.error fault, w₂) => (.ok (.failed (.resolved e) fault), w₂) := by
  have hexpected : f.expected = v := by
    unfold Feature.expected
    rw [hf]
  rw [execute_resolved (by rw [hexpected, hresolve]), hf]
  rfl

variable (impl) in
/-- A read of a plain name gives the first of its spellings that is bound. -/
theorem runFrom_readOperand_plain {name : String} (hdots : '.' ∉ name.toList) (hname : name ≠ "")
    (scope : ScopeId) (w : World ω) :
    runFrom (readOperand impl scope name) w =
      match (Name.spellings name).findSome? (named? (w.bindings scope)) with
      | some u => (.ok u, w)
      | none => (.error (.unbound name), w) := by
  unfold readOperand
  rw [runFrom_bind_of_ok (Scope.runFrom_lookup_plain impl hdots hname scope w)]
  cases (Name.spellings name).findSome? (named? (w.bindings scope)) with
  | none => rfl
  | some u =>
      dsimp only
      rw [if_neg (Scope.classify_ne_missing impl w.store name u)]
      rfl

variable (impl) in
theorem readOperand_of_bound {scope : ScopeId} {name : String} {u : Value} {w : World ω}
    (hdots : '.' ∉ name.toList) (hname : name ≠ "") (h : named? (w.bindings scope) name = some u) :
    runFrom (readOperand impl scope name) w = (.ok u, w) := by
  rw [runFrom_readOperand_plain impl hdots hname, Scope.findSome?_spellings_of_bound h]

/-- Executing a read of a name that is bound, against the value at a path. -/
theorem execute_read_reference {scope : ScopeId} {f : Feature} {assign : Option String}
    {name path : String} {u e : Value} {w : World ω}
    (hf : f.action = .read assign name (.reference path)) (hdots : '.' ∉ name.toList)
    (hname : name ≠ "") (hbound : named? (w.bindings scope) name = some u)
    (hexpected : runFrom (Scope.get impl scope path) w = (.ok e, w)) :
    runFrom (execute impl scope f) w = (.ok (.done u e), w) := by
  have hresolve : runFrom (Scope.resolve impl scope (.reference path)) w = (.ok e, w) := by
    rw [Scope.resolve]
    exact hexpected
  rw [execute_read hf hresolve, readOperand_of_bound impl hdots hname hbound]

/-! ## Judging -/

/-- The datum of an expectation, as things are in a world. -/
def expectedDatum (impl : Implementation ω) (w : World ω) : Expectation → Datum
  | .resolved v => impl.datum w.names w.store v
  | .unresolved v => v.datum

/-- The datum of an expectation is always there, and taking it changes nothing. -/
@[simp] theorem runFrom_expectationDatum (impl : Implementation ω) (expectation : Expectation)
    (w : World ω) :
    runFrom (expectationDatum impl expectation) w =
      (.ok (expectedDatum impl w expectation), w) := by
  cases expectation with
  | resolved v => rfl
  | unresolved v => rfl

/-- A comparison that fails counts as a difference for the faults of values that
cannot be compared. -/
theorem runFrom_compare (actual expected : Datum) (store : Store ω) :
    runFrom (compare impl actual expected) store =
      if isOpen expected then (.ok !actual.isError, store)
      else match runFrom (canonicallyEqual impl actual expected) store with
        | (.error fault, s) => (if isIncomparable fault then .ok false else .error fault, s)
        | (.ok same, s) => (.ok same, s) := by
  unfold compare
  by_cases h : isOpen expected = true
  · rw [if_pos h, if_pos h]
    rfl
  · rw [if_neg h, if_neg h]
    rcases hrun : runFrom (canonicallyEqual impl actual expected) store with ⟨fault | same, s⟩
    all_goals
      unfold runFrom at hrun ⊢
      simp only [ExceptT.run, StateT.run, hrun]

/-- A comparison faults when the equality does, with a fault that does not count as
a difference. -/
theorem compare_error_iff {actual expected : Datum} {store : Store ω} {fault : Fault} :
    (runFrom (compare impl actual expected) store).1 = .error fault ↔
      isOpen expected = false ∧
        (runFrom (canonicallyEqual impl actual expected) store).1 = .error fault ∧
        isIncomparable fault = false := by
  rw [runFrom_compare]
  by_cases hopen : isOpen expected = true
  · rw [if_pos hopen]
    simp [hopen]
  · rw [if_neg hopen]
    rcases runFrom (canonicallyEqual impl actual expected) store with ⟨other | same, s⟩
    · dsimp only
      by_cases hcomparable : isIncomparable other = true
      · rw [if_pos hcomparable]
        constructor
        · intro h
          cases h
        · intro hboth
          obtain ⟨-, h, hnot⟩ := hboth
          cases h
          rw [hcomparable] at hnot
          cases hnot
      · rw [if_neg hcomparable]
        constructor
        · intro h
          cases h
          exact ⟨by simpa using hopen, rfl, by simpa using hcomparable⟩
        · exact fun h => h.2.1
    · simp

/-- **The stages of a judgement**, with the expected value given. -/
theorem judge_stages {f : Feature} {outcome : Outcome} {w : World ω} {expected : Datum}
    (hexpected : runFrom (expectationDatum impl outcome.expected) w = (.ok expected, w)) :
    runFrom (judge impl f outcome) w =
      match runFrom (compare impl (impl.datum w.names w.store outcome.value) expected) w.store with
      | (.error fault, store) => (.error fault, { w with store })
      | (.ok true, store) =>
        (.ok ⟨f, .passed, outcome.value, none⟩,
          { w with store := store, log := w.log.push ⟨.debug, .runner, "Passed " ++ f.text⟩ })
      | (.ok false, store) =>
        match runFrom (failureDetail impl outcome) { w with store } with
        | (.error fault, w₂) => (.error fault, w₂)
        | (.ok detail, w₂) =>
          (.ok ⟨f, .failed, outcome.value, some detail⟩,
            { w₂ with
              log := w₂.log.push ⟨.debug, .runner, "Failed " ++ f.text ++ " (" ++ detail ++ ")"⟩ }) := by
  unfold judge
  rw [runFrom_bind, runFrom_datumNow]
  dsimp only
  rw [runFrom_bind_of_ok hexpected, runFrom_bind, runFrom_code]
  rcases runFrom (compare impl (impl.datum w.names w.store outcome.value) expected) w.store with
    ⟨fault | same, store⟩
  · rfl
  · cases same with
    | true => rfl
    | false =>
        simp only [Bool.false_eq_true, if_false]
        rw [runFrom_bind]
        rcases runFrom (failureDetail impl outcome) { w with store } with ⟨fault | detail, w₂⟩
        · rfl
        · rfl

variable (impl) in
/-- The outcome meets its expectation, as things are in a world. -/
def Meets (outcome : Outcome) (w : World ω) : Prop :=
  (runFrom (compare impl (impl.datum w.names w.store outcome.value)
    (expectedDatum impl w outcome.expected)) w.store).1 = .ok true

variable (impl) in
/-- What judging an outcome can give: it passed and meets its expectation, or it did
not and has the detail of the failure. -/
inductive Judged (f : Feature) (outcome : Outcome) (w : World ω) : FeatureResult → Prop
  | passed (hmeets : Meets impl outcome w) :
      Judged f outcome w ⟨f, .passed, outcome.value, none⟩
  | failed {detail : String} {w₁ w₂ : World ω} (hmeets : ¬ Meets impl outcome w)
      (hshown : runFrom (failureDetail impl outcome) w₁ = (.ok detail, w₂)) :
      Judged f outcome w ⟨f, .failed, outcome.value, some detail⟩

/-- A judgement that gives a result judges the outcome. -/
theorem judge_judged {f : Feature} {outcome : Outcome} {w w' : World ω} {r : FeatureResult}
    (h : runFrom (judge impl f outcome) w = (.ok r, w')) : Judged impl f outcome w r := by
  rw [judge_stages (runFrom_expectationDatum impl outcome.expected w)] at h
  rcases hcompare : runFrom (compare impl (impl.datum w.names w.store outcome.value)
    (expectedDatum impl w outcome.expected)) w.store with ⟨fault | same, store⟩
  · rw [hcompare] at h
    cases h
  · rw [hcompare] at h
    cases same with
    | true =>
        cases h
        exact .passed (congrArg Prod.fst hcompare)
    | false =>
        have hmeets : ¬ Meets impl outcome w := by
          rw [Meets, hcompare]
          exact nofun
        dsimp only at h
        rcases hdetail : runFrom (failureDetail impl outcome) { w with store } with
          ⟨fault | detail, w₂⟩
        · rw [hdetail] at h
          cases h
        · rw [hdetail] at h
          cases h
          exact .failed hmeets hdetail

namespace Judged

variable {f : Feature} {outcome : Outcome} {w : World ω} {r : FeatureResult}

theorem feature (h : Judged impl f outcome w r) : r.feature = f := by
  cases h <;> rfl

theorem outcome_eq (h : Judged impl f outcome w r) : r.outcome = outcome.value := by
  cases h <;> rfl

theorem passed_iff (h : Judged impl f outcome w r) :
    r.status = .passed ↔ Meets impl outcome w := by
  cases h with
  | passed hmeets => exact iff_of_true rfl hmeets
  | failed hmeets _ => exact iff_of_false nofun hmeets

end Judged

/-! ## Running -/

/-- A feature that is neither a comment nor skipped is executed, bound and
judged. -/
theorem runFeature_of_tested {scope : ScopeId} {f : Feature}
    (htested : f.isComment = false ∧ f.skip = false) :
    runFeature impl scope f =
      (do
        let outcome ← execute impl scope f
        bindOutcome impl scope f outcome.value
        judge impl f outcome) := by
  unfold runFeature
  simp [htested]

/-- **The stages of a tested feature** that end well before it is judged. -/
theorem runFeature_of_bound {scope : ScopeId} {f : Feature} {outcome : Outcome}
    {w w₁ w₂ : World ω} (htested : f.isComment = false ∧ f.skip = false)
    (hexecuted : runFrom (execute impl scope f) w = (.ok outcome, w₁))
    (hbound : runFrom (bindOutcome impl scope f outcome.value) w₁ = (.ok (), w₂)) :
    runFrom (runFeature impl scope f) w = runFrom (judge impl f outcome) w₂ := by
  rw [runFeature_of_tested htested, runFrom_bind_of_ok hexecuted, runFrom_bind_of_ok hbound]

/-- A tested feature that has a result went through all three stages. -/
theorem runFeature_ok {scope : ScopeId} {f : Feature} {w w' : World ω} {r : FeatureResult}
    (htested : f.isComment = false ∧ f.skip = false)
    (h : runFrom (runFeature impl scope f) w = (.ok r, w')) :
    ∃ outcome w₁ w₂, runFrom (execute impl scope f) w = (.ok outcome, w₁) ∧
      runFrom (bindOutcome impl scope f outcome.value) w₁ = (.ok (), w₂) ∧
      runFrom (judge impl f outcome) w₂ = (.ok r, w') := by
  rw [runFeature_of_tested htested] at h
  obtain ⟨outcome, w₁, hexecuted, h⟩ := bind_eq_ok_iff.mp h
  obtain ⟨⟨⟩, w₂, hbound, hjudged⟩ := bind_eq_ok_iff.mp h
  exact ⟨outcome, w₁, w₂, hexecuted, hbound, hjudged⟩

variable (impl) in
/-- A comment or a skipped feature has its result at once, with a log record at most. -/
theorem runFeature_of_untested (scope : ScopeId) {f : Feature} (w : World ω)
    (h : ¬ (f.isComment = false ∧ f.skip = false)) :
    ∃ r log, runFrom (runFeature impl scope f) w = (.ok r, { w with log }) ∧ r.feature = f := by
  unfold runFeature
  by_cases hcomment : f.isComment = true
  · rw [if_pos hcomment]
    exact ⟨_, _, rfl, rfl⟩
  · have hskip : f.skip = true := by
      cases hs : f.skip with
      | true => rfl
      | false => exact absurd ⟨by simpa using hcomment, hs⟩ h
    rw [if_neg hcomment, if_pos hskip]
    exact ⟨_, _, rfl, rfl⟩

/-- The result of a feature names the feature. -/
theorem runFeature_feature {scope : ScopeId} {f : Feature} {w w' : World ω} {r : FeatureResult}
    (h : runFrom (runFeature impl scope f) w = (.ok r, w')) : r.feature = f := by
  by_cases htested : f.isComment = false ∧ f.skip = false
  · obtain ⟨outcome, w₁, w₂, -, -, hjudged⟩ := runFeature_ok htested h
    exact (judge_judged hjudged).feature
  · obtain ⟨r', w₁, hr, hfeature⟩ := runFeature_of_untested impl scope w htested
    rw [hr] at h
    cases h
    exact hfeature

/-- The first feature of a list and the others. -/
theorem runFeatures_cons {listener : Listener ω} {scope : ScopeId} {f : Feature}
    {fs : List Feature} {w w₁ w₂ w₃ : World ω} {r : FeatureResult} {rs : List FeatureResult}
    {stop : Option Fault} (hf : runFrom (runFeature impl scope f) w = (.ok r, w₁))
    (hheard : runFrom (listener r) w₁ = (.ok (), w₂))
    (hrest : runFrom (runFeatures impl listener scope fs) w₂ = (.ok (rs, stop), w₃)) :
    runFrom (runFeatures impl listener scope (f :: fs)) w = (.ok (r :: rs, stop), w₃) := by
  unfold runFeatures
  rw [runFrom_bind, runFrom_attempt, hf]
  dsimp only
  rw [runFrom_bind_of_ok hheard, runFrom_bind_of_ok hrest]
  rfl

/-- A fault of the first feature of a list stops the others. -/
theorem runFeatures_of_error {listener : Listener ω} {scope : ScopeId} {f : Feature}
    {fs : List Feature} {w w₁ : World ω} {fault : Fault}
    (hf : runFrom (runFeature impl scope f) w = (.error fault, w₁)) :
    runFrom (runFeatures impl listener scope (f :: fs)) w = (.ok ([], some fault), w₁) := by
  unfold runFeatures
  rw [runFrom_bind, runFrom_attempt, hf]
  rfl

/-- **Features that were run** are stopped by a fault of the first one, or the first one
has a result that is listened to, and the others were run behind it. -/
theorem runFeatures_cons_cases {listener : Listener ω} {scope : ScopeId} {f : Feature}
    {fs : List Feature} {rs : List FeatureResult} {stop : Option Fault} {w w' : World ω}
    (h : runFrom (runFeatures impl listener scope (f :: fs)) w = (.ok (rs, stop), w')) :
    (∃ fault, runFrom (runFeature impl scope f) w = (.error fault, w') ∧ rs = [] ∧
      stop = some fault) ∨
    ∃ r later w₁ w₂, runFrom (runFeature impl scope f) w = (.ok r, w₁) ∧
      runFrom (listener r) w₁ = (.ok (), w₂) ∧
      runFrom (runFeatures impl listener scope fs) w₂ = (.ok (later, stop), w') ∧
      rs = r :: later := by
  rcases hf : runFrom (runFeature impl scope f) w with ⟨fault | r, w₁⟩
  · rw [runFeatures_of_error hf] at h
    cases h
    exact Or.inl ⟨fault, rfl, rfl, rfl⟩
  · unfold runFeatures at h
    rw [runFrom_bind, runFrom_attempt, hf] at h
    obtain ⟨_, w₂, hheard, hrest⟩ := bind_eq_ok_iff.mp h
    obtain ⟨⟨later, stop'⟩, w₃, hlater, hend⟩ := bind_eq_ok_iff.mp hrest
    cases hend
    exact Or.inr ⟨r, later, w₁, w₂, rfl, hheard, hlater, rfl⟩

/-- **Features behind others** run from what those leave, unless those were stopped. -/
theorem runFeatures_append (listener : Listener ω) (scope : ScopeId) (fs gs : List Feature)
    (w : World ω) :
    runFrom (runFeatures impl listener scope (fs ++ gs)) w =
      match runFrom (runFeatures impl listener scope fs) w with
      | (.ok (rs, none), w₁) =>
        match runFrom (runFeatures impl listener scope gs) w₁ with
        | (.ok (later, stop), w₂) => (.ok (rs ++ later, stop), w₂)
        | (.error fault, w₂) => (.error fault, w₂)
      | stopped => stopped := by
  induction fs generalizing w with
  | nil =>
      rw [List.nil_append]
      dsimp only [runFeatures, runFrom_pure]
      rcases runFrom (runFeatures impl listener scope gs) w with ⟨fault | ⟨later, stop⟩, w₂⟩
      · rfl
      · rfl
  | cons f fs ih =>
      rw [List.cons_append, runFeatures, runFeatures, runFrom_bind, runFrom_bind, runFrom_attempt]
      rcases runFrom (runFeature impl scope f) w with ⟨fault | r, w₁⟩
      · rfl
      · dsimp only
        rw [runFrom_bind, runFrom_bind]
        rcases runFrom (listener r) w₁ with ⟨fault | heard, w₂⟩
        · rfl
        · dsimp only
          rw [runFrom_bind, runFrom_bind, ih]
          rcases runFrom (runFeatures impl listener scope fs) w₂ with
            ⟨fault | ⟨rs, stop | stop⟩, w₃⟩
          · rfl
          · dsimp only [runFrom_pure]
            rcases runFrom (runFeatures impl listener scope gs) w₃ with
              ⟨fault | ⟨later, stop⟩, w₄⟩
            · rfl
            · rfl
          · rfl

/-- Features in two parts that ran to their end: the first part did, and the second one
behind it. -/
theorem runFeatures_append_cases {listener : Listener ω} {scope : ScopeId} {fs gs : List Feature}
    {rs : List FeatureResult} {w w' : World ω}
    (h : runFrom (runFeatures impl listener scope (fs ++ gs)) w = (.ok (rs, none), w')) :
    ∃ earlier later w₁,
      runFrom (runFeatures impl listener scope fs) w = (.ok (earlier, none), w₁) ∧
      runFrom (runFeatures impl listener scope gs) w₁ = (.ok (later, none), w') ∧
      rs = earlier ++ later := by
  rw [runFeatures_append] at h
  rcases hfs : runFrom (runFeatures impl listener scope fs) w with
    ⟨fault | ⟨earlier, stop | stop⟩, w₁⟩
  · rw [hfs] at h
    cases h
  · rw [hfs] at h
    dsimp only at h
    rcases hgs : runFrom (runFeatures impl listener scope gs) w₁ with ⟨fault | ⟨later, stop⟩, w₂⟩
    · rw [hgs] at h
      cases h
    · rw [hgs] at h
      cases h
      exact ⟨earlier, later, w₁, rfl, hgs, rfl⟩
  · rw [hfs] at h
    cases h

/-- A mistake of the author is noted in the report. -/
theorem abort_of_authoring {result : SpecificationResult} {fault : Fault}
    (h : fault.isAuthoring = true) (w : World ω) :
    runFrom (abort result fault) w =
      (.ok { result with error := some fault.describe },
        { w with log := w.log.push ⟨.warning, .runner,
          "Specification " ++ result.package ++ " aborted: " ++ fault.message⟩ }) := by
  unfold abort
  rw [if_pos h]
  rfl

/-- Any other fault goes on. -/
theorem abort_of_other {result : SpecificationResult} {fault : Fault}
    (h : fault.isAuthoring = false) (w : World ω) :
    runFrom (abort result fault) w = (.error fault, w) := by
  unfold abort
  rw [if_neg (by simp [h])]
  rfl

/-- **The stages of a specification** that was read and has its scope. -/
theorem runSpecification_stages {listener : Listener ω} {spec : Specification ω} {scope : ScopeId}
    {w w₁ w₂ : World ω} {rs : List FeatureResult} {stop : Option Fault} (hread : spec.error = none)
    (hbuilt : runFrom (buildScope impl spec) w = (.ok scope, w₁))
    (hrun : runFrom (runFeatures impl listener scope spec.features) w₁ = (.ok (rs, stop), w₂)) :
    runFrom (runSpecification impl listener spec) w =
      match stop with
      | none => (.ok { startResult spec with results := rs, scope := some scope }, w₂)
      | some fault =>
        runFrom (abort { startResult spec with results := rs, scope := some scope } fault) w₂ := by
  unfold runSpecification runLoaded
  rw [hread]
  dsimp only
  rw [runFrom_bind, runFrom_attempt, hbuilt]
  dsimp only
  rw [runFrom_bind_of_ok hrun]
  cases stop with
  | none => rfl
  | some fault => rfl

/-- A fault that a report is given of is noted in it, and nothing but the log changes. -/
theorem abort_ok {result r : SpecificationResult} {fault : Fault} {w w' : World ω}
    (h : runFrom (abort result fault) w = (.ok r, w')) :
    r = { result with error := some fault.describe } ∧ ∃ log, w' = { w with log } := by
  cases hauthoring : fault.isAuthoring with
  | true =>
      rw [abort_of_authoring hauthoring] at h
      cases h
      exact ⟨rfl, _, rfl⟩
  | false =>
      rw [abort_of_other hauthoring] at h
      cases h

variable (impl) in
/-- How a specification can come to its report: it was not read, its scope could not be
built, or its features ran there. -/
inductive Reported (listener : Listener ω) (spec : Specification ω) (w : World ω) :
    SpecificationResult → World ω → Prop
  | unread {fault : Fault} {log : Array Record} (hread : spec.error = some fault) :
      Reported listener spec w { startResult spec with error := some fault.describe }
        { w with log }
  | unbuilt {fault : Fault} {w₁ : World ω} {log : Array Record} (hread : spec.error = none)
      (hbuilt : runFrom (buildScope impl spec) w = (.error fault, w₁)) :
      Reported listener spec w { startResult spec with error := some fault.describe }
        { w₁ with log }
  | ran {scope : ScopeId} {rs : List FeatureResult} {stop : Option Fault} {w₁ w₂ : World ω}
      {log : Array Record} (hread : spec.error = none)
      (hbuilt : runFrom (buildScope impl spec) w = (.ok scope, w₁))
      (hrun : runFrom (runFeatures impl listener scope spec.features) w₁ = (.ok (rs, stop), w₂)) :
      Reported listener spec w
        { startResult spec with
          results := rs, error := stop.map Fault.describe, scope := some scope }
        { w₂ with log }

/-- A specification that has a report came to it in one of these ways. -/
theorem runSpecification_reported {listener : Listener ω} {spec : Specification ω}
    {r : SpecificationResult} {w w' : World ω}
    (h : runFrom (runSpecification impl listener spec) w = (.ok r, w')) :
    Reported impl listener spec w r w' := by
  cases hread : spec.error with
  | some fault =>
      unfold runSpecification at h
      rw [hread] at h
      cases h
      exact .unread hread
  | none =>
      rcases hbuilt : runFrom (buildScope impl spec) w with ⟨fault | scope, w₁⟩
      · unfold runSpecification runLoaded at h
        rw [hread] at h
        dsimp only at h
        rw [runFrom_bind, runFrom_attempt, hbuilt] at h
        obtain ⟨rfl, log, rfl⟩ := abort_ok h
        exact .unbuilt hread hbuilt
      · rcases hrun : runFrom (runFeatures impl listener scope spec.features) w₁ with
          ⟨fault | ⟨rs, stop⟩, w₂⟩
        · unfold runSpecification runLoaded at h
          rw [hread] at h
          dsimp only at h
          rw [runFrom_bind, runFrom_attempt, hbuilt] at h
          dsimp only at h
          rw [runFrom_bind_of_error hrun] at h
          cases h
        · rw [runSpecification_stages hread hbuilt hrun] at h
          cases stop with
          | none =>
              cases h
              exact .ran hread hbuilt hrun
          | some fault =>
              obtain ⟨rfl, log, rfl⟩ := abort_ok h
              exact .ran hread hbuilt hrun

/-- The first specification of a list and the others. -/
theorem runAll_cons {listener : Listener ω} {spec : Specification ω}
    {specs : List (Specification ω)} {w w₁ w₂ : World ω} {r : SpecificationResult} {rs : RunResult}
    (hspec : runFrom (runSpecification impl listener spec) w = (.ok r, w₁))
    (hrest : runFrom (runAll impl listener specs) w₁ = (.ok rs, w₂)) :
    runFrom (runAll impl listener (spec :: specs)) w = (.ok (r :: rs), w₂) := by
  unfold runAll
  rw [runFrom_bind_of_ok hspec, runFrom_bind_of_ok hrest]
  rfl

/-- Specifications that all have a report: the first one has, and the others behind it. -/
theorem runAll_cons_cases {listener : Listener ω} {spec : Specification ω}
    {specs : List (Specification ω)} {w w' : World ω} {rs : RunResult}
    (h : runFrom (runAll impl listener (spec :: specs)) w = (.ok rs, w')) :
    ∃ r later w₁, runFrom (runSpecification impl listener spec) w = (.ok r, w₁) ∧
      runFrom (runAll impl listener specs) w₁ = (.ok later, w') ∧ rs = r :: later := by
  unfold runAll at h
  obtain ⟨r, w₁, hspec, hrest⟩ := bind_eq_ok_iff.mp h
  obtain ⟨later, w₂, hlater, hend⟩ := bind_eq_ok_iff.mp hrest
  cases hend
  exact ⟨r, later, w₁, hspec, hlater, rfl⟩

/-! ## Scalars -/

/-- The canonical form of the scalar is a scalar and no boolean. -/
structure HasForm (s c : Scalar) : Prop where
  canonical : s.canonical = .ok c
  strict : (Datum.scalar c).strict = .scalar c

theorem hasForm_str (text : String) : HasForm (.str text) (.str text) := ⟨rfl, rfl⟩

theorem hasForm_int (n : Int) : HasForm (.int n) (.int n) := ⟨rfl, rfl⟩

theorem hasForm_sentinel (marker : Sentinel) : HasForm (.sentinel marker) (.str marker.name) :=
  ⟨rfl, rfl⟩

theorem HasForm.datum_canonical {s c : Scalar} (h : HasForm s c) :
    (Datum.scalar s).canonical = .ok (.scalar c) := by
  rw [Datum.canonical, h.canonical]
  rfl

/-- Scalars are equal in canonical form if their forms are, with nothing asked of
the implementation. -/
theorem canonicallyEqual_scalars {s t c d : Scalar} (hs : HasForm s c) (ht : HasForm t d)
    (store : Store ω) :
    runFrom (canonicallyEqual impl (.scalar s) (.scalar t)) store = (.ok (c.equal d), store) := by
  unfold canonicallyEqual
  rw [hs.datum_canonical, ht.datum_canonical]
  change runFrom (impl.equal (Datum.scalar c).strict (Datum.scalar d).strict) store = _
  rw [hs.strict, ht.strict, Implementation.equal]
  change runFrom (impl.equalPlain (.scalar c) (.scalar d)) store = _
  rw [Implementation.equalPlain]
  rfl

/-- A comparison of scalars with an expected value that is not open. -/
theorem compare_scalars {s t c d : Scalar} (hs : HasForm s c) (ht : HasForm t d)
    (hopen : isOpen (.scalar t) = false) (store : Store ω) :
    runFrom (compare impl (.scalar s) (.scalar t)) store = (.ok (c.equal d), store) := by
  rw [runFrom_compare, hopen, canonicallyEqual_scalars hs ht]
  rfl

/-- A scalar passes against one with an equal form. -/
theorem judge_passed (f : Feature) {s t c d : Scalar} (hs : HasForm s c) (ht : HasForm t d)
    (hsame : c.equal d = true) (hopen : isOpen (.scalar t) = false) (w : World ω) :
    runFrom (judge impl f (.done (.scalar s) (.scalar t))) w =
      (.ok ⟨f, .passed, .scalar s, none⟩,
        { w with log := w.log.push ⟨.debug, .runner, "Passed " ++ f.text⟩ }) := by
  have hexpected : runFrom (expectationDatum impl (Expectation.resolved (.scalar t))) w =
      (.ok (.scalar t), w) := rfl
  have hcompare : runFrom (compare impl (.scalar s) (.scalar t)) w.store = (.ok true, w.store) := by
    rw [compare_scalars hs ht hopen, hsame]
  rw [judge_stages hexpected]
  change (match runFrom (compare impl (.scalar s) (.scalar t)) w.store with
    | (.error _, _) => _ | (.ok true, _) => _ | (.ok false, _) => _) = _
  rw [hcompare]
  rfl

/-- A failure does not pass against a scalar with another form. -/
theorem judge_failed (f : Feature) {t d : Scalar} (ht : HasForm t d)
    (hother : (Scalar.str Sentinel.error.name).equal d = false)
    (hopen : isOpen (.scalar t) = false) (fault : Fault) (w : World ω) :
    runFrom (judge impl f (.failed (.resolved (.scalar t)) fault)) w =
      (.ok ⟨f, .failed, .error, some ("Exception: " ++ (fault.kind ++ ": " ++ fault.message))⟩,
        { w with log := w.log.push ⟨.debug, .runner,
          "Failed " ++ f.text ++ " (" ++ ("Exception: " ++ (fault.kind ++ ": " ++ fault.message)) ++
            ")"⟩ }) := by
  have hexpected : runFrom (expectationDatum impl (Expectation.resolved (.scalar t))) w =
      (.ok (.scalar t), w) := rfl
  have hcompare : runFrom (compare impl (.scalar (.sentinel .error)) (.scalar t)) w.store =
      (.ok false, w.store) := by
    rw [compare_scalars (hasForm_sentinel .error) ht hopen, hother]
  rw [judge_stages hexpected]
  change (match runFrom (compare impl (.scalar (.sentinel .error)) (.scalar t)) w.store with
    | (.error _, _) => _ | (.ok true, _) => _ | (.ok false, _) => _) = _
  rw [hcompare]
  rfl

/-- **Binding a scalar** at a path whose assignment ends well: the feature
passes. -/
theorem runFeature_bind_scalar {scope : ScopeId} {path : String} {s c : Scalar} {w w₁ : World ω}
    (hbound : runFrom (Scope.assign impl scope path (.scalar s)) w = (.ok (), w₁))
    (h : HasForm s c) (hsame : c.equal c = true) (hopen : isOpen (.scalar s) = false) :
    ∃ log, runFrom (runFeature impl scope (.ofAction false (.bind path (.scalar s)))) w =
      (.ok ⟨.ofAction false (.bind path (.scalar s)), .passed, .scalar s, none⟩, { w₁ with log }) := by
  have hexecuted : runFrom (execute impl scope (.ofAction false (.bind path (.scalar s)))) w =
      (.ok (.done (.scalar s) (.scalar s)), w) := rfl
  have hassigned : runFrom (bindOutcome impl scope (.ofAction false (.bind path (.scalar s)))
      (Outcome.done (.scalar s) (.scalar s)).value) w = _ := hbound
  rw [runFeature_of_bound ⟨rfl, rfl⟩ hexecuted hassigned]
  exact ⟨_, judge_passed _ h h hsame hopen _⟩

end Conformance.Run
