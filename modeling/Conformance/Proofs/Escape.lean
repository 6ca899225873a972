import Conformance.Proofs.FaultOrigin
import Conformance.Proofs.Stages
import Conformance.Sample.Implementation
import Mathlib.Data.List.Defs

/-!
# Faults that escape a run

A run promises a report of every specification.  It keeps the promise for all
that a feature does while it executes: there a fault becomes its outcome.  It
keeps it for loading a package and for the mistakes of an author, which end one
specification.  It does not keep it for the two things that follow execution,
binding the outcome and judging it: a fault there that is no mistake of the
author ends the run, and the specifications behind it have no report.

`RunEscapes` says that this happens, and where: at the first feature that binds
or judges with such a fault.  `runAll_reports_unless_escaped` states that a run
reports every specification in order exactly when it does not.
-/

namespace Conformance.Run

variable {ω : Type} (impl : Implementation ω)

/-! ## What escapes a feature -/

/-- Binding a value at a path ends with a fault that is no mistake of the
author. -/
inductive BindEscapes (scope : ScopeId) (path : String) (v : Value) (w : World ω) : Fault → Prop
  /-- A member on the way to the owner cannot be read. -/
  | walk {fault : Fault}
      (h : (runFrom (Scope.locate impl scope path) w).1 = .error fault)
      (hlookup : fault.family ≠ .lookup) (hother : fault.isAuthoring = false) :
      BindEscapes scope path v w fault
  /-- What a constant is bound to cannot be read. -/
  | check {owner : Owner} {name : String} {w₁ : World ω} {fault : Fault}
      (hwalk : runFrom (Scope.locate impl scope path) w = (.ok (owner, name), w₁))
      (hconstant : Name.isConstant name = true)
      (h : (runFrom (Scope.memberAs impl owner name) w₁).1 = .error fault)
      (hother : fault.isAuthoring = false) :
      BindEscapes scope path v w fault
  /-- The owner fails in a way that does not count as refusing the value. -/
  | set {owner : Owner} {name : String} {w₁ w₂ : World ω} {fault : Fault}
      (hwalk : runFrom (Scope.locate impl scope path) w = (.ok (owner, name), w₁))
      (hfree : runFrom (Scope.isBoundConstant impl owner name) w₁ = (.ok false, w₂))
      (h : (runFrom (Scope.write impl owner name v) w₂).1 = .error fault)
      (hrefusal : Scope.isRefusal fault = false) (hother : fault.isAuthoring = false) :
      BindEscapes scope path v w fault

/-- Judging an outcome ends with a fault that is no mistake of the author. -/
inductive JudgeEscapes (outcome : Outcome) (w : World ω) : Fault → Prop
  /-- The comparison fails in a way that does not count as a difference. -/
  | comparison {expected : Datum} {fault : Fault}
      (hexpected : (runFrom (expectationDatum impl outcome.expected) w).1 = .ok expected)
      (hopen : isOpen expected = false)
      (h : (runFrom (canonicallyEqual impl (impl.datum w.names w.store outcome.value) expected)
        w.store).1 = .error fault)
      (hcomparable : isIncomparable fault = false) (hother : fault.isAuthoring = false) :
      JudgeEscapes outcome w fault
  /-- After a comparison with a difference, one of the two values cannot be
  shown. -/
  | detail {expected : Datum} {store : Store ω} {fault : Fault}
      (hexpected : (runFrom (expectationDatum impl outcome.expected) w).1 = .ok expected)
      (hdiffers : runFrom (compare impl (impl.datum w.names w.store outcome.value) expected) w.store =
        (.ok false, store))
      (h : (runFrom (failureDetail impl outcome) { w with store }).1 = .error fault) :
      JudgeEscapes outcome w fault

/-- Running a feature ends with a fault that is no mistake of the author. -/
inductive FeatureEscapes (scope : ScopeId) (f : Feature) (w : World ω) : Fault → Prop
  | bind {outcome : Outcome} {w₁ : World ω} {path : String} {fault : Fault}
      (htested : f.isComment = false ∧ f.skip = false)
      (hexecuted : runFrom (execute impl scope f) w = (.ok outcome, w₁))
      (hassign : f.assign? = some path)
      (h : BindEscapes impl scope path outcome.value w₁ fault) :
      FeatureEscapes scope f w fault
  | judge {outcome : Outcome} {w₁ w₂ : World ω} {fault : Fault}
      (htested : f.isComment = false ∧ f.skip = false)
      (hexecuted : runFrom (execute impl scope f) w = (.ok outcome, w₁))
      (hbound : runFrom (bindOutcome impl scope f outcome.value) w₁ = (.ok (), w₂))
      (h : JudgeEscapes impl outcome w₂ fault) :
      FeatureEscapes scope f w fault

variable (listener : Listener ω)

/-- The first feature from whose run a fault escapes is reached. -/
inductive FeaturesEscape (scope : ScopeId) : List Feature → World ω → Fault → Prop
  | here {f : Feature} {fs : List Feature} {w : World ω} {fault : Fault}
      (h : FeatureEscapes impl scope f w fault) :
      FeaturesEscape scope (f :: fs) w fault
  | later {f : Feature} {fs : List Feature} {r : FeatureResult} {w w₁ w₂ : World ω} {fault : Fault}
      (hrun : runFrom (runFeature impl scope f) w = (.ok r, w₁))
      (hheard : runFrom (listener r) w₁ = (.ok (), w₂))
      (h : FeaturesEscape scope fs w₂ fault) :
      FeaturesEscape scope (f :: fs) w fault

/-- The specification was read and its scope is built, and then a fault escapes
from one of its features. -/
def SpecificationEscapes (spec : Specification ω) (w : World ω) (fault : Fault) : Prop :=
  spec.error = none ∧ ∃ scope w₁, runFrom (buildScope impl spec) w = (.ok scope, w₁) ∧
    FeaturesEscape impl listener scope spec.features w₁ fault

/-- The first specification from which a fault escapes is reached. -/
inductive RunEscapes : List (Specification ω) → World ω → Fault → Prop
  | here {spec : Specification ω} {specs : List (Specification ω)} {w : World ω} {fault : Fault}
      (h : SpecificationEscapes impl listener spec w fault) :
      RunEscapes (spec :: specs) w fault
  | later {spec : Specification ω} {specs : List (Specification ω)} {r : SpecificationResult}
      {w w₁ : World ω} {fault : Fault}
      (hrun : runFrom (runSpecification impl listener spec) w = (.ok r, w₁))
      (h : RunEscapes specs w₁ fault) :
      RunEscapes (spec :: specs) w fault

/-! ## Binding -/

variable {impl}

/-- A fault of the walk to a target stays what it is unless it is a lookup
fault, which becomes a mistake of the author. -/
private theorem targetFault_other {path : String} {fault other : Fault}
    (hother : other.isAuthoring = false) :
    Scope.targetFault path fault = other ↔ fault = other ∧ fault.family ≠ .lookup := by
  unfold Scope.targetFault
  by_cases h : fault.family = .lookup
  · rw [if_pos h]
    constructor
    · intro heq
      obtain rfl := heq
      cases hother
    · intro h
      obtain ⟨-, hne⟩ := h
      exact absurd h hne
  · rw [if_neg h]
    exact ⟨fun heq => ⟨heq, h⟩, fun hpair => hpair.1⟩

/-- A fault of an owner stays what it is unless it refuses the value, which
becomes a mistake of the author. -/
private theorem ownerFault_other {path : String} {fault other : Fault}
    (hother : other.isAuthoring = false) :
    Scope.ownerFault path fault = other ↔ fault = other ∧ Scope.isRefusal fault = false := by
  unfold Scope.ownerFault
  by_cases h : Scope.isRefusal fault = true
  · rw [if_pos h]
    constructor
    · intro heq
      obtain rfl := heq
      cases hother
    · intro h
      obtain ⟨-, hfalse⟩ := h
      rw [h] at hfalse
      cases hfalse
  · rw [if_neg h]
    exact ⟨fun heq => ⟨heq, by simpa using h⟩, fun hpair => hpair.1⟩

/-- An assignment ends with a fault that is no mistake of the author exactly
when one of its stages lets it through. -/
theorem assign_escapes_iff {scope : ScopeId} {path : String} {v : Value} {w : World ω}
    {fault : Fault} (hother : fault.isAuthoring = false) :
    (runFrom (Scope.assign impl scope path v) w).1 = .error fault ↔
      BindEscapes impl scope path v w fault := by
  rw [Scope.assign_stages]
  constructor
  · intro h
    rcases hwalk : runFrom (Scope.locate impl scope path) w with ⟨walkFault | ⟨owner, name⟩, w₁⟩
    · rw [hwalk] at h
      obtain ⟨rfl, hlookup⟩ := (targetFault_other hother).mp (Except.error.inj h)
      exact .walk (by rw [hwalk]) hlookup hother
    · rw [hwalk] at h
      dsimp only at h
      rcases hcheck : runFrom (Scope.isBoundConstant impl owner name) w₁ with
        ⟨checkFault | bound, w₂⟩
      · rw [hcheck] at h
        cases Except.error.inj h
        obtain ⟨hconstant, hmember⟩ :=
          (Scope.isBoundConstant_error_iff impl).mp (congrArg Prod.fst hcheck)
        exact .check hwalk hconstant hmember hother
      · rw [hcheck] at h
        cases bound with
        | true =>
            cases h
            cases hother
        | false =>
            dsimp only at h
            rcases hwrite : runFrom (Scope.write impl owner name v) w₂ with ⟨writeFault | ⟨⟩, w₃⟩
            · rw [hwrite] at h
              obtain ⟨rfl, hrefusal⟩ := (ownerFault_other hother).mp (Except.error.inj h)
              exact .set hwalk hcheck (by rw [hwrite]) hrefusal hother
            · rw [hwrite] at h
              cases h
  · intro h
    cases h with
    | walk hwalk hlookup _ =>
        rw [eq_of_fst hwalk]
        exact congrArg Except.error ((targetFault_other hother).mpr ⟨rfl, hlookup⟩)
    | @check owner name w₁ _ hwalk hconstant hmember _ =>
        have hcheck := (Scope.isBoundConstant_error_iff impl).mpr ⟨hconstant, hmember⟩
        rw [hwalk]
        dsimp only
        rw [eq_of_fst hcheck]
    | @set owner name w₁ w₂ _ hwalk hfree hwrite hrefusal _ =>
        rw [hwalk]
        dsimp only
        rw [hfree]
        dsimp only
        rw [eq_of_fst hwrite]
        exact congrArg Except.error ((ownerFault_other hother).mpr ⟨rfl, hrefusal⟩)

/-! ## Judging -/

/-- Showing a failure faults only for what has no canonical form of its own. -/
theorem failureDetail_faults (outcome : Outcome) :
    FaultsOnly (fun fault => fault = .dateRange ∨ fault = .endless)
      (failureDetail impl outcome) := by
  unfold failureDetail
  split
  · exact FaultsOnly.pure _
  · refine FaultsOnly.bind (FaultsOnly.datumNow impl _) fun actual => ?_
    refine FaultsOnly.bind ?_ fun expected => ?_
    · intro w fault h
      rw [runFrom_expectationDatum] at h
      cases h
    · refine FaultsOnly.bind (FaultsOnly.mk_pure fun _ h => detail_fault h) fun _ => ?_
      exact FaultsOnly.bind (FaultsOnly.mk_pure fun _ h => detail_fault h) fun _ =>
        FaultsOnly.pure _

/-- A judgement ends with a fault that is no mistake of the author exactly when
the comparison or the detail lets it through. -/
theorem judge_escapes_iff {f : Feature} {outcome : Outcome} {w : World ω} {fault : Fault} :
    (runFrom (judge impl f outcome) w).1 = .error fault ∧ fault.isAuthoring = false ↔
      JudgeEscapes impl outcome w fault := by
  have hexpected := runFrom_expectationDatum impl outcome.expected w
  generalize expectedDatum impl w outcome.expected = expected at hexpected
  rw [judge_stages hexpected]
  constructor
  · intro hboth
    obtain ⟨h, hother⟩ := hboth
    rcases hcompare : runFrom (compare impl (impl.datum w.names w.store outcome.value) expected) w.store
      with ⟨compareFault | same, store⟩
    · rw [hcompare] at h
      cases Except.error.inj h
      obtain ⟨hopen, hequal, hcomparable⟩ := compare_error_iff.mp (congrArg Prod.fst hcompare)
      exact .comparison (by rw [hexpected]) hopen hequal hcomparable hother
    · rw [hcompare] at h
      cases same with
      | true => cases h
      | false =>
          dsimp only at h
          rcases hdetail : runFrom (failureDetail impl outcome) { w with store } with
            ⟨detailFault | detail, w₂⟩
          · rw [hdetail] at h
            cases Except.error.inj h
            exact .detail (by rw [hexpected]) hcompare (by rw [hdetail])
          · rw [hdetail] at h
            cases h
  · intro h
    cases h with
    | @comparison other _ hother hopen hequal hcomparable hnot =>
        rw [hexpected] at hother
        cases hother
        rw [eq_of_fst (compare_error_iff.mpr ⟨hopen, hequal, hcomparable⟩)]
        exact ⟨rfl, hnot⟩
    | @detail other store _ hother hdiffers hdetail =>
        rw [hexpected] at hother
        cases hother
        rw [hdiffers]
        dsimp only
        rw [eq_of_fst hdetail]
        refine ⟨rfl, ?_⟩
        rcases failureDetail_faults outcome _ _ hdetail with rfl | rfl
        · rfl
        · rfl

/-! ## Features -/

/-- **One feature.**  Its run ends with a fault that is no mistake of the author
exactly when binding or judging lets one through. -/
theorem runFeature_escapes_iff {scope : ScopeId} {f : Feature} {w : World ω} {fault : Fault} :
    (runFrom (runFeature impl scope f) w).1 = .error fault ∧ fault.isAuthoring = false ↔
      FeatureEscapes impl scope f w fault := by
  constructor
  · intro hboth
    obtain ⟨h, hother⟩ := hboth
    by_cases htested : f.isComment = false ∧ f.skip = false
    · rw [runFeature_of_tested htested] at h
      obtain ⟨outcome, w₁, hexecuted⟩ := execute_ok impl scope f w
      rw [runFrom_bind_of_ok hexecuted, runFrom_bind] at h
      rcases hbound : runFrom (bindOutcome impl scope f outcome.value) w₁ with ⟨e | ⟨⟩, w₂⟩
      · rw [hbound] at h
        cases h
        unfold bindOutcome at hbound
        cases hassign : f.assign? with
        | none =>
            rw [hassign] at hbound
            cases hbound
        | some path =>
            rw [hassign] at hbound
            exact .bind htested hexecuted hassign
              ((assign_escapes_iff hother).mp (congrArg Prod.fst hbound))
      · rw [hbound] at h
        exact .judge htested hexecuted hbound (judge_escapes_iff.mp ⟨h, hother⟩)
    · obtain ⟨r, w₁, hr, -⟩ := runFeature_of_untested impl scope w htested
      rw [hr] at h
      cases h
  · intro h
    cases h with
    | @bind outcome w₁ path _ htested hexecuted hassign h =>
        have hother : fault.isAuthoring = false := by cases h <;> assumption
        refine ⟨?_, hother⟩
        have hassigned := (assign_escapes_iff hother).mpr h
        rw [runFeature_of_tested htested, runFrom_bind_of_ok hexecuted, runFrom_bind]
        unfold bindOutcome
        rw [hassign]
        dsimp only
        rw [eq_of_fst hassigned]
    | @judge outcome w₁ w₂ _ htested hexecuted hbound h =>
        have hjudged : (runFrom (judge impl f outcome) w₂).1 = .error fault ∧
            fault.isAuthoring = false := judge_escapes_iff.mpr h
        rw [runFeature_of_bound htested hexecuted hbound]
        exact hjudged

/-! ## Runs -/

/-- Of a list whose first feature ends with a fault, that fault alone escapes,
unless it is a mistake of the author. -/
theorem featuresEscape_of_error {listener : Listener ω} {scope : ScopeId} {f : Feature}
    {fs : List Feature} {w w₁ : World ω} {stopped fault : Fault}
    (hrun : runFrom (runFeature impl scope f) w = (.error stopped, w₁)) :
    FeaturesEscape impl listener scope (f :: fs) w fault ↔
      stopped = fault ∧ fault.isAuthoring = false := by
  constructor
  · intro h
    cases h with
    | here h =>
        obtain ⟨hfault, hother⟩ := runFeature_escapes_iff.mpr h
        rw [hrun] at hfault
        cases hfault
        exact ⟨rfl, hother⟩
    | later hlater _ _ =>
        rw [hrun] at hlater
        cases hlater
  · intro h
    obtain ⟨rfl, hother⟩ := h
    exact .here (runFeature_escapes_iff.mp ⟨by rw [hrun], hother⟩)

/-- Of a list whose first feature has a result, what escapes from the others
escapes. -/
theorem featuresEscape_of_ok {listener : Listener ω} {scope : ScopeId} {f : Feature}
    {fs : List Feature} {w w₁ w₂ : World ω} {r : FeatureResult} {fault : Fault}
    (hrun : runFrom (runFeature impl scope f) w = (.ok r, w₁))
    (hheard : runFrom (listener r) w₁ = (.ok (), w₂)) :
    FeaturesEscape impl listener scope (f :: fs) w fault ↔
      FeaturesEscape impl listener scope fs w₂ fault := by
  constructor
  · intro h
    cases h with
    | here h =>
        obtain ⟨hfault, -⟩ := runFeature_escapes_iff.mpr h
        rw [hrun] at hfault
        cases hfault
    | later hlater hheard' h =>
        rw [hrun] at hlater
        cases hlater
        rw [hheard] at hheard'
        cases hheard'
        exact h
  · exact fun h => .later hrun hheard h

/-- A listener that hears every result without a fault. -/
def Listener.NeverFaults (listener : Listener ω) : Prop :=
  ∀ r w, ∃ w', runFrom (listener r) w = (.ok (), w')

/-- What is known of the features run so far: their results stand in order, and
all features have one unless a fault stopped them. -/
structure ReportsFeatures (fs : List Feature) (rs : List FeatureResult) (stop : Option Fault) :
    Prop where
  inOrder : rs.map (·.feature) <+: fs
  complete : stop = none → rs.map (·.feature) = fs

variable {listener : Listener ω}

variable (impl) in
/-- Running features always ends with the results so far and, if they were
stopped, a fault; that fault is no mistake of the author exactly when it
escapes. -/
theorem runFeatures_ok (hlistener : listener.NeverFaults) (scope : ScopeId) (fs : List Feature) :
    ∀ w, ∃ rs stop w', runFrom (runFeatures impl listener scope fs) w = (.ok (rs, stop), w') ∧
      ReportsFeatures fs rs stop ∧
      ∀ fault, (stop = some fault ∧ fault.isAuthoring = false) ↔
        FeaturesEscape impl listener scope fs w fault := by
  induction fs with
  | nil =>
      intro w
      refine ⟨[], none, w, rfl, ⟨List.prefix_refl _, fun _ => rfl⟩, fun fault => ⟨?_, ?_⟩⟩
      · intro hboth
        obtain ⟨h, -⟩ := hboth
        cases h
      · intro h
        cases h
  | cons f fs ih =>
      intro w
      rcases hrun : runFrom (runFeature impl scope f) w with ⟨stopped | r, w₁⟩
      · refine ⟨[], some stopped, w₁, runFeatures_of_error hrun,
          ⟨List.nil_prefix, fun h => by cases h⟩, fun fault => ?_⟩
        rw [featuresEscape_of_error hrun, Option.some.injEq]
      · obtain ⟨w₂, hheard⟩ := hlistener r w₁
        obtain ⟨rs, stop, w₃, hrest, hreports, hescape⟩ := ih w₂
        refine ⟨r :: rs, stop, w₃, runFeatures_cons hrun hheard hrest, ?_, fun fault => ?_⟩
        · have hfeature := runFeature_feature hrun
          constructor
          · simpa [hfeature] using hreports.inOrder
          · intro hnone
            simp [hfeature, hreports.complete hnone]
        · rw [featuresEscape_of_ok hrun hheard]
          exact hescape fault

/-- A scope cannot be built only if the package cannot be loaded, which is a
mistake of the author. -/
theorem buildScope_faults (spec : Specification ω) :
    FaultsOnly (fun fault => fault.isAuthoring = true) (buildScope impl spec) := by
  have hinstall : ∀ (scope : ScopeId) (hooks : List (String × ω)),
      FaultsOnly (fun fault => fault.isAuthoring = true) (Scope.installHooks scope hooks) := by
    intro scope hooks
    induction hooks with
    | nil => exact FaultsOnly.pure _
    | cons hook hooks ih =>
        unfold Scope.installHooks
        refine FaultsOnly.bind ?_ fun _ => ih
        intro w fault h
        cases h
  unfold buildScope loadMembers
  refine FaultsOnly.bind ?_ fun members => ?_
  · refine FaultsOnly.bind (FaultsOnly.attempt _) fun loaded => ?_
    split
    · exact FaultsOnly.pure _
    · exact FaultsOnly.throw rfl
  · refine FaultsOnly.bind ?_ fun scope => ?_
    · intro w fault h
      cases h
    · exact FaultsOnly.bind (hinstall scope _) fun _ => FaultsOnly.pure _

/-- A report is that of its specification: it has its name and its counts, and
the results of its features in order, of all of them unless it names an error. -/
structure Reports (spec : Specification ω) (r : SpecificationResult) : Prop where
  package : r.package = spec.package
  total : r.total = spec.stats.tests
  skipped : r.skipped = spec.stats.skipped
  inOrder : r.results.map (·.feature) <+: spec.features
  complete : r.error = none → r.results.map (·.feature) = spec.features

variable (impl) in
/-- **One specification.**  It is reported, and no fault escapes from it, or it
ends with the fault that does. -/
theorem runSpecification_reports_or_escapes (hlistener : listener.NeverFaults)
    (spec : Specification ω) (w : World ω) :
    (∃ r w', runFrom (runSpecification impl listener spec) w = (.ok r, w') ∧ Reports spec r ∧
      ∀ fault, ¬ SpecificationEscapes impl listener spec w fault) ∨
    ∃ fault w', runFrom (runSpecification impl listener spec) w = (.error fault, w') ∧
      ∀ other, SpecificationEscapes impl listener spec w other ↔ other = fault := by
  cases hread : spec.error with
  | some fault =>
      unfold runSpecification
      rw [hread]
      refine Or.inl ⟨_, _, rfl, ⟨rfl, rfl, rfl, List.nil_prefix, fun h => by cases h⟩, ?_⟩
      intro other hother
      obtain ⟨hnone, -⟩ := hother
      rw [hread] at hnone
      cases hnone
  | none =>
      rcases hbuilt : runFrom (buildScope impl spec) w with ⟨unbuilt | scope, w₁⟩
      · have hauthoring := buildScope_faults spec w unbuilt (by rw [hbuilt])
        unfold runSpecification runLoaded
        rw [hread]
        dsimp only
        rw [runFrom_bind, runFrom_attempt, hbuilt]
        dsimp only
        rw [abort_of_authoring hauthoring]
        refine Or.inl ⟨_, _, rfl, ⟨rfl, rfl, rfl, List.nil_prefix, fun h => by cases h⟩, ?_⟩
        intro other hother
        obtain ⟨-, scope, w₂, hother, -⟩ := hother
        rw [hbuilt] at hother
        cases hother
      · obtain ⟨rs, stop, w₂, hrun, hreports, hescape⟩ :=
          runFeatures_ok impl hlistener scope spec.features w₁
        have hspec : ∀ fault, SpecificationEscapes impl listener spec w fault ↔
            (stop = some fault ∧ fault.isAuthoring = false) := by
          intro fault
          rw [hescape fault]
          constructor
          · intro hboth
            obtain ⟨-, scope', w', hbuilt', h⟩ := hboth
            rw [hbuilt] at hbuilt'
            cases hbuilt'
            exact h
          · exact fun h => ⟨hread, scope, w₁, hbuilt, h⟩
        rw [runSpecification_stages hread hbuilt hrun]
        cases stop with
        | none =>
            refine Or.inl ⟨_, _, rfl, ⟨rfl, rfl, rfl, hreports.inOrder, fun _ => ?_⟩, ?_⟩
            · exact hreports.complete rfl
            · intro fault h
              cases ((hspec fault).mp h).1
        | some fault =>
            dsimp only
            cases hauthoring : fault.isAuthoring with
            | true =>
                rw [abort_of_authoring hauthoring]
                refine Or.inl ⟨_, _, rfl, ⟨rfl, rfl, rfl, hreports.inOrder, fun h => by cases h⟩, ?_⟩
                intro other h
                obtain ⟨hcause, hother⟩ := (hspec other).mp h
                cases hcause
                rw [hauthoring] at hother
                cases hother
            | false =>
                rw [abort_of_other hauthoring]
                refine Or.inr ⟨fault, w₂, rfl, fun other => ?_⟩
                rw [hspec other]
                constructor
                · intro hboth
                  obtain ⟨h, -⟩ := hboth
                  exact (Option.some.inj h).symm
                · intro heq
                  obtain rfl := heq
                  exact ⟨rfl, hauthoring⟩

/-! ## Where escaping faults come from -/

/-- What an escaping fault can be: one of the three faults of the runner's own,
or what an attribute, a setter or an equality of the implementation raised
outside the families that the runner expects of it. -/
def EscapeOrigin (impl : Implementation ω) (fault : Fault) : Prop :=
  DigitsFault fault ∨ fault = .dateRange ∨ fault = .endless ∨ ReaderFault impl fault ∨
    (Scope.SetterFault impl fault ∧ Scope.isRefusal fault = false) ∨
    (EqualityFault impl fault ∧ isIncomparable fault = false)

theorem BindEscapes.origin {scope : ScopeId} {path : String} {v : Value} {w : World ω}
    {fault : Fault} (h : BindEscapes impl scope path v w fault) : EscapeOrigin impl fault := by
  cases h with
  | walk h hlookup _ =>
      rcases Scope.locate_faults scope path w _ h with hfamily | hdigits | hreader
      · exact absurd hfamily hlookup
      · exact Or.inl hdigits
      · exact Or.inr (Or.inr (Or.inr (Or.inl hreader)))
  | check _ _ h _ =>
      rcases Scope.memberAs_faults _ _ _ _ h with hdigits | hreader
      · exact Or.inl hdigits
      · exact Or.inr (Or.inr (Or.inr (Or.inl hreader)))
  | set _ _ h hrefusal _ =>
      rcases Scope.write_faults _ _ v _ _ h with hrefused | hdigits | hsetter
      · rw [hrefused] at hrefusal
        cases hrefusal
      · exact Or.inl hdigits
      · exact Or.inr (Or.inr (Or.inr (Or.inr (Or.inl ⟨hsetter, hrefusal⟩))))

theorem JudgeEscapes.origin {outcome : Outcome} {w : World ω} {fault : Fault}
    (h : JudgeEscapes impl outcome w fault) : EscapeOrigin impl fault := by
  cases h with
  | comparison _ _ h hcomparable _ =>
      rcases canonicallyEqual_faults _ _ _ _ h with (hdate | hendless | htype) | hequality
      · exact Or.inr (Or.inl hdate)
      · exact Or.inr (Or.inr (Or.inl hendless))
      · simp [isIncomparable, htype] at hcomparable
      · exact Or.inr (Or.inr (Or.inr (Or.inr (Or.inr ⟨hequality, hcomparable⟩))))
  | detail _ _ h =>
      rcases failureDetail_faults outcome _ _ h with hdate | hendless
      · exact Or.inr (Or.inl hdate)
      · exact Or.inr (Or.inr (Or.inl hendless))

theorem FeaturesEscape.origin {scope : ScopeId} {fs : List Feature} {w : World ω} {fault : Fault}
    (h : FeaturesEscape impl listener scope fs w fault) : EscapeOrigin impl fault := by
  induction h with
  | here h =>
      cases h with
      | bind _ _ _ h => exact h.origin
      | judge _ _ _ h => exact h.origin
  | later _ _ _ ih => exact ih

/-- An escaping fault of a run escapes from some feature of it. -/
theorem RunEscapes.origin {specs : List (Specification ω)} {w : World ω} {fault : Fault}
    (h : RunEscapes impl listener specs w fault) : EscapeOrigin impl fault := by
  induction h with
  | here h =>
      obtain ⟨-, scope, w₁, -, h⟩ := h
      exact h.origin
  | later _ _ ih => exact ih

variable (impl) in
/-- A run gives one report for each specification in order, and no fault escapes
from it, or it ends with the fault that does. -/
theorem runAll_reports_or_escapes (hlistener : listener.NeverFaults)
    (specs : List (Specification ω)) (w : World ω) :
    (∃ rs w', runFrom (runAll impl listener specs) w = (.ok rs, w') ∧
      List.Forall₂ Reports specs rs ∧ ∀ fault, ¬ RunEscapes impl listener specs w fault) ∨
    ∃ fault w', runFrom (runAll impl listener specs) w = (.error fault, w') ∧
      ∀ other, RunEscapes impl listener specs w other ↔ other = fault := by
  induction specs generalizing w with
  | nil => exact Or.inl ⟨[], w, rfl, .nil, fun fault h => by cases h⟩
  | cons spec specs ih =>
      unfold runAll
      rcases runSpecification_reports_or_escapes impl hlistener spec w with
        ⟨r, w₁, hspec, hreports, hnone⟩ | ⟨fault, w₁, hspec, honly⟩
      · rw [runFrom_bind_of_ok hspec]
        have hlater : ∀ fault, RunEscapes impl listener (spec :: specs) w fault ↔
            RunEscapes impl listener specs w₁ fault := by
          intro fault
          constructor
          · intro h
            cases h with
            | here h => exact absurd h (hnone fault)
            | later hother h =>
                rw [hspec] at hother
                cases hother
                exact h
          · exact fun h => .later hspec h
        rcases ih w₁ with ⟨rs, w₂, hrest, hall, hquiet⟩ | ⟨fault, w₂, hrest, honly⟩
        · refine Or.inl ⟨r :: rs, w₂, ?_, .cons hreports hall, fun fault h => ?_⟩
          · rw [runFrom_bind_of_ok hrest]
            rfl
          · exact hquiet fault ((hlater fault).mp h)
        · refine Or.inr ⟨fault, w₂, ?_, fun other => ?_⟩
          · rw [runFrom_bind_of_error hrest]
          · rw [hlater other, honly other]
      · refine Or.inr ⟨fault, w₁, ?_, fun other => ⟨fun h => ?_, ?_⟩⟩
        · rw [runFrom_bind_of_error hspec]
        · cases h with
          | here h => exact (honly other).mp h
          | later hother _ =>
              rw [hspec] at hother
              cases hother
        · exact fun h => .here ((honly other).mpr h)

/-- **Every specification is reported unless a fault escapes.**  A run gives one
report for each specification in order exactly when no fault escapes from any of
them; when one does, the run ends with it, and it has one of the known
origins. -/
theorem runAll_reports_unless_escaped (impl : Implementation ω) (listener : Listener ω)
    (hlistener : listener.NeverFaults) (specs : List (Specification ω)) (w : World ω) :
    ((∃ rs w', runFrom (runAll impl listener specs) w = (.ok rs, w') ∧
        List.Forall₂ Reports specs rs) ↔
      ∀ fault, ¬ RunEscapes impl listener specs w fault) ∧
    ∀ fault, RunEscapes impl listener specs w fault →
      (runFrom (runAll impl listener specs) w).1 = .error fault ∧ EscapeOrigin impl fault := by
  have hrun := runAll_reports_or_escapes impl hlistener specs w
  constructor
  · constructor
    · intro hreported fault h
      obtain ⟨rs, w₁, hok, -⟩ := hreported
      rcases hrun with ⟨_, _, _, _, hquiet⟩ | ⟨_, _, herror, -⟩
      · exact hquiet fault h
      · rw [hok] at herror
        cases herror
    · intro hquiet
      rcases hrun with ⟨rs, w₁, hok, hall, -⟩ | ⟨fault, w₁, -, honly⟩
      · exact ⟨rs, w₁, hok, hall⟩
      · exact absurd ((honly fault).mpr rfl) (hquiet fault)
  · intro fault h
    refine ⟨?_, h.origin⟩
    rcases hrun with ⟨_, _, _, _, hquiet⟩ | ⟨other, w₁, herror, honly⟩
    · exact absurd h (hquiet fault)
    · rw [herror, (honly fault).mp h]

/-! ## A run that stops -/

/-- A store with a list and two packages: a mapping that holds the list, and one
that holds nothing. -/
def listStore : Store Sample.Object :=
  { Sample.initialStore with
    cells := Sample.initialStore.cells ++
      #[.list [.int 1], .map [(Key.str "l", .list 5)], .map []] }

/-- The sample implementation with the two packages of `listStore`. -/
def listImplementation : Implementation Sample.Object :=
  Sample.implementation [⟨"p", .ok (.map 6), false⟩, ⟨"q", .ok (.map 7), false⟩]

/-- The declaration of the package `p`. -/
def listDeclaration : Feature := .ofAction false (.bind "PACKAGE" (.str "p"))

/-- Sets item `²` of the list, which are digits without a decimal value. -/
def superscriptFeature : Feature := .ofAction false (.bind "l.²" (.scalar (.int 1)))

/-- The first specification sets the item that the list cannot have; the second
declares its package and nothing else. -/
def superscriptSpecifications : List (Specification Sample.Object) :=
  [⟨"p", [listDeclaration, superscriptFeature], [], [], none⟩,
    ⟨"q", [.ofAction false (.bind "PACKAGE" (.str "q"))], [], [], none⟩]

/-- The worlds of the scope of `p`, before and after its declaration. -/
def listWorld (bindings : Bindings) (log : Array Record) : World Sample.Object :=
  ⟨listStore, #[("l", .list 5) :: ("$import", .object Sample.importerLocation) :: bindings], log,
    #[]⟩

/-- The declaration binds the name of the package and passes. -/
theorem listDeclaration_passes : ∃ log,
    runFrom (runFeature listImplementation 0 listDeclaration) (listWorld [] #[]) =
      (.ok ⟨listDeclaration, .passed, .str "p", none⟩, listWorld [("PACKAGE", .str "p")] log) := by
  obtain ⟨bound, hbound⟩ := @Scope.assign_plain _ listImplementation "PACKAGE" 0 (listWorld [] #[])
    (by decide) (by decide) (fun _ => rfl) (.str "p")
  exact runFeature_bind_scalar hbound (hasForm_str "p") (by decide) rfl

/-- Item `²` of the list cannot be set, and not for a reason that makes the
assignment invalid. -/
theorem superscriptFeature_escapes (log : Array Record) :
    FeatureEscapes listImplementation 0 superscriptFeature
      (listWorld [("PACKAGE", .str "p")] log) (.notInteger 10 "²") := by
  have hexecuted : runFrom (execute listImplementation 0 superscriptFeature)
      (listWorld [("PACKAGE", .str "p")] log) =
        (.ok (.done (.int 1) (.int 1)), listWorld [("PACKAGE", .str "p")] log) := rfl
  have hwalk : runFrom (Scope.locate listImplementation 0 "l.²")
      (listWorld [("PACKAGE", .str "p")] log) =
        (.ok (.value (.list 5), "²"), listWorld [("PACKAGE", .str "p")] log) := rfl
  have hconstant : Name.isConstant "²" = false := by decide +kernel
  have hindex : Name.isIndex "²" = true := by decide +kernel
  have hfree : runFrom (Scope.isBoundConstant listImplementation (.value (.list 5)) "²")
      (listWorld [("PACKAGE", .str "p")] log) =
        (.ok false, listWorld [("PACKAGE", .str "p")] log) := by
    rw [Scope.runFrom_isBoundConstant, if_neg (by simp [hconstant])]
  refine .bind ⟨rfl, rfl⟩ hexecuted rfl (.set hwalk hfree ?_ rfl rfl)
  unfold Scope.write
  dsimp only
  rw [if_pos hindex]
  rfl

/-- The fault of digits without a decimal value escapes from the first
specification. -/
theorem superscript_escapes :
    RunEscapes listImplementation (fun _ => pure ()) superscriptSpecifications
      (World.ofStore listStore) (.notInteger 10 "²") := by
  obtain ⟨log, hdeclared⟩ := listDeclaration_passes
  have hbuilt : runFrom (buildScope listImplementation
      ⟨"p", [listDeclaration, superscriptFeature], [], [], none⟩) (World.ofStore listStore) =
        (.ok 0, listWorld [] #[]) := rfl
  exact .here ⟨rfl, 0, _, hbuilt,
    .later hdeclared rfl (.here (superscriptFeature_escapes log))⟩

/-- Not every run reports every specification. -/
theorem runAll_not_always_reports :
    ¬ ∀ (ω : Type) (impl : Implementation ω) (specs : List (Specification ω)) (w : World ω),
      ∃ rs w', runFrom (runAll impl (fun _ => pure ()) specs) w = (.ok rs, w') ∧
        rs.length = specs.length := by
  intro h
  obtain ⟨rs, w', hrun, -⟩ :=
    h _ listImplementation superscriptSpecifications (World.ofStore listStore)
  have hlistener : Listener.NeverFaults (fun _ => pure () : Listener Sample.Object) :=
    fun _ w => ⟨w, rfl⟩
  rcases runAll_reports_or_escapes listImplementation hlistener superscriptSpecifications
      (World.ofStore listStore) with
    ⟨_, _, _, _, hquiet⟩ | ⟨_, _, herror, -⟩
  · exact hquiet _ superscript_escapes
  · rw [hrun] at herror
    cases herror

/-- The run of the two specifications, by the general statement. -/
theorem superscript_run_faults :
    Listener.NeverFaults (fun _ => pure () : Listener Sample.Object) ∧
      (runFrom (runAll listImplementation (fun _ => pure ()) superscriptSpecifications)
        (World.ofStore listStore)).1 = .error (.notInteger 10 "²") ∧
      EscapeOrigin listImplementation (.notInteger 10 "²") := by
  have hlistener : Listener.NeverFaults (fun _ => pure () : Listener Sample.Object) :=
    fun _ w => ⟨w, rfl⟩
  exact ⟨hlistener, (runAll_reports_unless_escaped listImplementation _ hlistener
    superscriptSpecifications (World.ofStore listStore)).2 _ superscript_escapes⟩

end Conformance.Run
