import Conformance.Proofs.Comparison
import Conformance.Proofs.Resemblance
import Conformance.Proofs.Verdict

/-!
# Verdicts and the binding

The outcome of a feature is bound before it is judged, and an expected value that was
written as a reference is a live value, so a binding can reach what the outcome is compared
with.  It does so in one way only.  `judge_same_verdict` judges an outcome in two worlds whose
stores have the same contents within the outcome and the expected value, and comes to one
verdict; and an assignment changes the contents of the one list or mapping that its path
leads into.  So the binding leaves the verdict alone, unless that list or mapping is a part
of what is compared (`binding_keeps_verdict`).
-/

namespace Conformance

variable {ω : Type} {impl : Implementation ω}

/-! ## Features without a target -/

/-- The operation without its target.  A value has nothing without one. -/
def Action.unassigned : Action → Action
  | .read _ property expected => .read none property expected
  | .call _ property args kwargs expected => .call none property args kwargs expected
  | action => action

/-- The feature without its target. -/
def Feature.unassigned (f : Feature) : Feature := .ofAction f.skip f.action.unassigned

namespace Feature

variable (f : Feature)

/-- The feature without its target expects the same. -/
theorem expected_unassigned : f.unassigned.expected = f.expected := by
  obtain ⟨text, skip, action⟩ := f
  cases action <;> rfl

theorem isComment_unassigned : f.unassigned.isComment = f.isComment := by
  obtain ⟨text, skip, action⟩ := f
  cases action <;> rfl

/-- It has no target left, if there is something else to it. -/
theorem assign?_unassigned (h : f.kind ≠ .value) : f.unassigned.assign? = none := by
  obtain ⟨text, skip, action⟩ := f
  cases action with
  | bind target value => exact absurd rfl h
  | _ => rfl

end Feature

namespace Run

variable {scope : ScopeId}

/-- Without its target a feature does the same. -/
theorem execute_unassigned (f : Feature) :
    execute impl scope f.unassigned = execute impl scope f := by
  have hoperate : ∀ e, operate impl scope f.unassigned.action e = operate impl scope f.action e := by
    intro e
    obtain ⟨text, skip, action⟩ := f
    cases action <;> rfl
  unfold execute
  simp only [f.expected_unassigned, hoperate]

variable (impl) in
/-- Executes and judges a feature, and binds nothing. -/
def runUnbound (scope : ScopeId) (f : Feature) : Exec ω FeatureResult := do
  judge impl f (← execute impl scope f)

/-! ## Judging in two worlds -/

/-- The stores of the worlds are related. -/
def OnStores (K : Store ω → Store ω → Prop) (w w' : World ω) : Prop := K w.store w'.store

section Judge

variable {α β : Type} {K : Store ω → Store ω → Prop} {s s' : Store ω}

/-- Code follows code on related stores. -/
theorem OnStores.code {R : α → β → Prop} {c : Code ω α} {c' : Code ω β} (h : Follows K R c c') :
    Follows (OnStores K) R (Exec.code c) (Exec.code c') := by
  intro w w' hK
  rw [runFrom_code, runFrom_code]
  exact h w.store w'.store hK

theorem OnStores.log (level : Level) (channel : Channel) (message message' : String) :
    Follows (OnStores K) Eq (Exec.log level channel message) (Exec.log level channel message') :=
  fun _ _ hK => ⟨.ok rfl, hK⟩

variable (h : impl.AsksAlike s s' K)
include h

/-- The data of a value whose lists and mappings have the same contents on both sides. -/
theorem datumNow_resembles {v : Value} (hv : s.SameWithin s' v) :
    Follows (OnStores K) Datum.Resembles (impl.datumNow v) (impl.datumNow v) := by
  intro w w' hK
  obtain ⟨hs, hs'⟩ := h.contents _ _ hK
  exact ⟨.ok (datum_resembles (hv.move hs hs')), hK⟩

/-- The data of one expectation resemble each other on both sides. -/
theorem expectationDatum_resembles {expectation : Expectation}
    (hexpected : ∀ v, expectation = .resolved v → s.SameWithin s' v) :
    Follows (OnStores K) Datum.Resembles (expectationDatum impl expectation)
      (expectationDatum impl expectation) := by
  cases expectation with
  | resolved v => exact datumNow_resembles h (hexpected v rfl)
  | unresolved v => exact Follows.pure (.refl _)

/-- Comparing resembling data comes to the same verdict, or to the same fault. -/
theorem compare_resembles {a a' e e' : Datum} (ha : a.Resembles a') (he : e.Resembles e') :
    Follows K Eq (compare impl a e) (compare impl a' e') := by
  have hequal : Follows K Eq (canonicallyEqual impl a e) (canonicallyEqual impl a' e') := by
    refine Follows.bind (Follows.mk_pure ha.canonical) fun c c' hc => ?_
    refine Follows.bind (Follows.mk_pure he.canonical) fun d d' hd => ?_
    exact h.equal _ _ _ _ hc.strict hd.strict
  intro t t' hK
  rw [runFrom_compare, runFrom_compare, he.isOpen_eq, ha.isError_eq]
  obtain ⟨hresult, hstores⟩ := hequal t t' hK
  rcases hrun : runFrom (canonicallyEqual impl a e) t with ⟨r, u⟩
  rcases hrun' : runFrom (canonicallyEqual impl a' e') t' with ⟨r', u'⟩
  rw [hrun, hrun'] at hresult hstores
  split
  · exact ⟨.ok rfl, hK⟩
  · cases hresult with
    | ok hsame =>
        obtain rfl := hsame
        exact ⟨.ok rfl, hstores⟩
    | error fault =>
        dsimp only
        split
        · exact ⟨.ok rfl, hstores⟩
        · exact ⟨.error fault, hstores⟩

section Outcome

variable {outcome : Outcome} (hvalue : s.SameWithin s' outcome.value)
  (hexpected : ∀ v, outcome.expected = .resolved v → s.SameWithin s' v)
include hvalue hexpected

/-- There is a detail of the failure on both sides, or the same fault. -/
theorem failureDetail_resembles :
    Follows (OnStores K) (fun _ _ => True) (failureDetail impl outcome)
      (failureDetail impl outcome) := by
  unfold failureDetail
  split
  · exact Follows.pure trivial
  · refine Follows.bind (datumNow_resembles h hvalue) fun a a' ha => ?_
    refine Follows.bind (expectationDatum_resembles h hexpected) fun e e' he => ?_
    refine Follows.bind (Follows.mk_pure ha.detail) fun _ _ _ => ?_
    refine Follows.bind (Follows.mk_pure he.detail) fun _ _ _ => ?_
    exact Follows.pure trivial

/-- **One verdict in two worlds** that have the same contents within what is compared. -/
theorem judge_same_verdict (f f' : Feature) :
    Follows (OnStores K) (fun r r' => r.status = r'.status) (judge impl f outcome)
      (judge impl f' outcome) := by
  unfold judge
  refine Follows.bind (datumNow_resembles h hvalue) fun a a' ha => ?_
  refine Follows.bind (expectationDatum_resembles h hexpected) fun e e' he => ?_
  refine Follows.bind (OnStores.code (compare_resembles h ha he)) fun same _ hsame => ?_
  obtain rfl := hsame
  refine Follows.ite ?_ ?_
  · exact Follows.bind (OnStores.log _ _ _ _) fun _ _ _ => Follows.pure rfl
  · refine Follows.bind (failureDetail_resembles h hvalue hexpected) fun _ _ _ => ?_
    exact Follows.bind (OnStores.log _ _ _ _) fun _ _ _ => Follows.pure rfl

end Outcome

end Judge

theorem map_status_eq {r r' : Except Fault FeatureResult}
    (h : ResultRel (fun r r' => r.status = r'.status) r r') :
    r.map (·.status) = r'.map (·.status) := by
  cases h with
  | ok h => exact congrArg Except.ok h
  | error fault => rfl

/-- The status is that of a feature that passed exactly if the outcome meets its
expectation. -/
theorem judge_passed_iff_meets (f : Feature) {outcome : Outcome} {w : World ω} :
    (runFrom (judge impl f outcome) w).1.map (·.status) = .ok .passed ↔
      Meets impl outcome w := by
  constructor
  · intro h
    obtain ⟨r, hr, hpassed⟩ := ok_of_map_ok h
    exact (judge_judged (Prod.ext hr rfl)).passed_iff.mp hpassed
  · intro h
    unfold Meets at h
    rw [judge_stages (runFrom_expectationDatum impl outcome.expected w)]
    rcases hcompare : runFrom (compare impl (impl.datum w.names w.store outcome.value)
      (expectedDatum impl w outcome.expected)) w.store with ⟨result, store⟩
    rw [hcompare] at h
    obtain rfl := h
    rfl

/-! ## Binding and judging -/

/-- Without its target, the outcome is judged as executing the feature left the world. -/
theorem runFeature_unassigned {f : Feature} {outcome : Outcome} {w w₁ : World ω}
    (htested : f.isComment = false ∧ f.skip = false) (hkind : f.kind ≠ .value)
    (hexecuted : runFrom (execute impl scope f) w = (.ok outcome, w₁)) :
    runFrom (runFeature impl scope f.unassigned) w =
      runFrom (judge impl f.unassigned outcome) w₁ := by
  have hexecuted' : runFrom (execute impl scope f.unassigned) w = (.ok outcome, w₁) := by
    rw [execute_unassigned, hexecuted]
  have hbound : runFrom (bindOutcome impl scope f.unassigned outcome.value) w₁ = (.ok (), w₁) := by
    unfold bindOutcome
    rw [f.assign?_unassigned hkind]
    rfl
  exact runFeature_of_bound ⟨f.isComment_unassigned.trans htested.1, htested.2⟩ hexecuted' hbound

/-- A skipped feature is neither executed nor bound. -/
theorem runFeature_skipped {f : Feature} (hcomment : f.isComment = false) (hskip : f.skip = true)
    (w : World ω) : (runFrom (runFeature impl scope f) w).1.map (·.status) = .ok .skipped := by
  unfold runFeature
  rw [if_neg (by simp [hcomment]), if_pos hskip]
  rfl

/-- **The binding leaves the verdict alone.**  A feature with a target whose outcome is bound
has the status that it has without the binding, and if it has an operand, the status of the
same feature without a target, if the list or mapping that its target is written into is no
part of the outcome, which it would make contain itself, and no part of the expected value.
The implementation's own equalities do not tell apart what was written from what was
there. -/
theorem binding_keeps_verdict {f : Feature} {path : String} {outcome : Outcome}
    {w w₁ w₂ : World ω} {K : Store ω → Store ω → Prop} (hkeeps : impl.KeepsContents)
    (htarget : f.assign? = some path)
    (hexecuted : runFrom (execute impl scope f) w = (.ok outcome, w₁))
    (hbound : runFrom (Scope.assign impl scope path outcome.value) w₁ = (.ok (), w₂))
    (hasks : impl.AsksAlike w₁.store w₂.store K)
    (hself : ∀ location, Scope.LeadsInto impl w₁ scope path location →
      ¬ w₁.store.Contains location outcome.value)
    (hapart : ∀ location, Scope.LeadsInto impl w₁ scope path location →
      ∀ v, outcome.expected = .resolved v → ¬ w₁.store.Contains location v) :
    (f.skip = false →
      (runFrom (runFeature impl scope f) w).1.map (·.status) =
        (runFrom (runUnbound impl scope f) w).1.map (·.status)) ∧
    (f.kind ≠ .value →
      (runFrom (runFeature impl scope f) w).1.map (·.status) =
        (runFrom (runFeature impl scope f.unassigned) w).1.map (·.status)) := by
  have hunchanged : ∀ v, (∀ location, Scope.LeadsInto impl w₁ scope path location →
      ¬ w₁.store.Contains location v) → w₁.store.SameWithin w₂.store v := by
    intro v hv location hpart
    exact Scope.assign_sameAt hkeeps hbound fun hleads => hv location hleads hpart
  have hvalue := hunchanged outcome.value hself
  have hexpected : ∀ v, outcome.expected = .resolved v → w₁.store.SameWithin w₂.store v :=
    fun v hv => hunchanged v fun location hleads => hapart location hleads v hv
  -- The outcome is judged in `w₂` if it was bound, and in `w₁` otherwise.
  have hverdict : ∀ g : Feature, (runFrom (judge impl f outcome) w₂).1.map (·.status) =
      (runFrom (judge impl g outcome) w₁).1.map (·.status) := fun g =>
    (map_status_eq (judge_same_verdict hasks hvalue hexpected g f w₁ w₂ hasks.start).1).symm
  have hcomment : f.isComment = false := by
    obtain ⟨text, skip, action⟩ := f
    cases action with
    | comment text => cases htarget
    | _ => rfl
  have hbinding : runFrom (bindOutcome impl scope f outcome.value) w₁ = (.ok (), w₂) := by
    unfold bindOutcome
    rw [htarget]
    exact hbound
  constructor
  · intro hskip
    unfold runUnbound
    rw [runFeature_of_bound ⟨hcomment, hskip⟩ hexecuted hbinding, runFrom_bind_of_ok hexecuted]
    exact hverdict f
  · intro hkind
    cases hskip : f.skip with
    | true =>
        have hcomment' := f.isComment_unassigned.trans hcomment
        rw [runFeature_skipped hcomment hskip, runFeature_skipped hcomment' hskip]
    | false =>
        rw [runFeature_of_bound ⟨hcomment, hskip⟩ hexecuted hbinding,
          runFeature_unassigned ⟨hcomment, hskip⟩ hkind hexecuted]
        exact hverdict f.unassigned

/-! ### A list that is expected and written -/

/-- The lists `b`, `c` and `d`, of one item each. -/
def listsWorld (item : Value) (log : Array Record) : World Sample.Object :=
  ⟨⟨#[.list [.int 1], .list [item], .list [.int 1]], fun _ => []⟩,
    #[[("b", .list 0), ("c", .list 1), ("d", .list 2)]], log, #[]⟩

/-- Reads `b`, writes it into `c` and expects what is bound at a path. -/
def itemFeature (path : String) : Feature :=
  .ofAction false (.read (some "c.0") "b" (.reference path))

/-- The outcome is the list `b`. -/
theorem execute_itemFeature (path : String) {v : Value} (hdots : '.' ∉ path.toList)
    (hname : path ≠ "") (h : named? ((listsWorld (.int 1) #[]).bindings 0) path = some v) :
    runFrom (execute (Sample.implementation []) 0 (itemFeature path)) (listsWorld (.int 1) #[]) =
      (.ok (.done (.list 0) v), listsWorld (.int 1) #[]) := by
  have hexpected := Scope.get_of_bound (Sample.implementation []) hdots hname h
  exact execute_read_reference rfl (by decide) (by decide) rfl hexpected

theorem itemFeature_located :
    runFrom (Scope.locate (Sample.implementation []) 0 "c.0") (listsWorld (.int 1) #[]) =
      (.ok (.value (.list 1), "0"), listsWorld (.int 1) #[]) := rfl

/-- The target is an item of the list `c`. -/
theorem eq_of_itemFeature_leadsInto {location : Loc}
    (h : Scope.LeadsInto (Sample.implementation []) (listsWorld (.int 1) #[]) 0 "c.0" location) :
    location = 1 := by
  obtain ⟨owner, name, hfound, howner⟩ := h
  rw [itemFeature_located] at hfound
  cases hfound
  cases howner
  rfl

theorem itemFeature_assigned : ∃ log,
    runFrom (Scope.assign (Sample.implementation []) 0 "c.0" (.list 0)) (listsWorld (.int 1) #[]) =
      (.ok (), listsWorld (.list 0) log) := by
  have hconstant : Name.isConstant "0" = false := by decide +kernel
  have hindex : Name.isIndex "0" = true := by decide +kernel
  have hfree : runFrom (Scope.isBoundConstant (Sample.implementation []) (.value (.list 1)) "0")
      (listsWorld (.int 1) #[]) = (.ok false, listsWorld (.int 1) #[]) := by
    rw [Scope.runFrom_isBoundConstant, if_neg (by simp [hconstant])]
  have hwritten : runFrom (Scope.write (Sample.implementation []) (.value (.list 1)) "0" (.list 0))
      (listsWorld (.int 1) #[]) = (.ok (), listsWorld (.list 0) #[]) := by
    unfold Scope.write
    dsimp only
    rw [if_pos hindex]
    rfl
  rw [Scope.assign_stages, itemFeature_located]
  dsimp only
  rw [hfree]
  dsimp only
  rw [hwritten]
  exact ⟨_, rfl⟩

/-- No list or mapping is a part of another of the three lists. -/
theorem listsWorld_contains {location other : Loc} {log : Array Record} (hne : location ≠ other) :
    ¬ (listsWorld (.int 1) log).store.Contains location (.list other) := by
  intro h
  cases h with
  | list => exact hne rfl
  | item hmem h =>
      have hitem : ∀ v ∈ (listsWorld (.int 1) log).store.items other, v = .int 1 := by
        intro v hv
        match other with
        | 0 | 1 | 2 => exact List.mem_singleton.mp hv
        | _ + 3 => cases hv
      rw [hitem _ hmem] at h
      cases h

theorem listsWorld_asksAlike (log : Array Record) :
    (Sample.implementation []).AsksAlike (listsWorld (.int 1) #[]).store
      (listsWorld (.list 0) log).store fun t t' =>
        t = (listsWorld (.int 1) #[]).store ∧ t' = (listsWorld (.list 0) log).store := by
  have hnone : ∀ item log location, (listsWorld item log).store.object? location = none := by
    intro item log location
    match location with
    | 0 | 1 | 2 | _ + 3 => rfl
  refine Implementation.asksAlike_of_none ?_ ?_ <;> simp [hnone]

/-- A list of the number one equals a list of one item exactly if the items are alike. -/
theorem compare_one_list (item : Datum) (hitem : item.IsPlain) (store : Store Sample.Object) :
    (runFrom (compare (Sample.implementation []) (.list [.scalar (.int 1)]) (.list [item])) store).1 =
      .ok true ↔ (Datum.scalar (.int 1)).Alike item := by
  have hone : (Datum.list [.scalar (.int 1)]).IsPlain :=
    .list (List.forall_mem_singleton.mpr (.scalar trivial))
  obtain ⟨same, hrun, hsame⟩ := compare_iff_alike (Sample.implementation []) hone
    (.list (List.forall_mem_singleton.mpr hitem)) nofun nofun store
  have hitems : (Datum.list [.scalar (.int 1)]).Alike (.list [item]) ↔
      (Datum.scalar (.int 1)).Alike item := by
    constructor
    · rintro ⟨items, ⟨⟩, halike, -⟩
      exact halike
    · exact fun halike => ⟨_, rfl, halike, trivial⟩
  rw [hrun, ← hitems, ← hsame]
  simp

/-- **A list that is expected and written** may change the verdict: before `b` was written
into `c` the two were equal. -/
theorem binding_not_always_keeps_verdict :
    ¬ ∀ (ω : Type) (impl : Implementation ω) (scope : ScopeId) (f : Feature) (path : String)
      (outcome : Outcome) (w w₁ w₂ : World ω) (K : Store ω → Store ω → Prop),
      impl.KeepsContents → f.skip = false → f.assign? = some path → f.kind ≠ .value →
      runFrom (execute impl scope f) w = (.ok outcome, w₁) →
      runFrom (Scope.assign impl scope path outcome.value) w₁ = (.ok (), w₂) →
      impl.AsksAlike w₁.store w₂.store K →
      (∀ location, Scope.LeadsInto impl w₁ scope path location →
        ¬ w₁.store.Contains location outcome.value) →
      (runFrom (runFeature impl scope f) w).1.map (·.status) =
        (runFrom (runFeature impl scope f.unassigned) w).1.map (·.status) := by
  intro hall
  obtain ⟨log, hassigned⟩ := itemFeature_assigned
  have hexecuted := execute_itemFeature "c" (by decide) (by decide) rfl
  have hself : ∀ location, Scope.LeadsInto (Sample.implementation []) (listsWorld (.int 1) #[]) 0
      "c.0" location → ¬ (listsWorld (.int 1) #[]).store.Contains location (.list 0) := by
    intro location hleads
    obtain rfl := eq_of_itemFeature_leadsInto hleads
    exact listsWorld_contains (by decide)
  have hsame := hall _ _ 0 (itemFeature "c") "c.0" _ _ _ _ _
    (Sample.implementation_keepsContents []) rfl rfl (by decide) hexecuted hassigned
    (listsWorld_asksAlike log) hself
  rw [runFeature_of_bound ⟨rfl, rfl⟩ hexecuted hassigned,
    runFeature_unassigned ⟨rfl, rfl⟩ (by decide) hexecuted] at hsame
  have hbefore : Meets (Sample.implementation []) (.done (.list 0) (.list 1))
      (listsWorld (.int 1) #[]) :=
    (compare_one_list (.scalar (.int 1)) (.scalar trivial) _).mpr (.int 1)
  have hafter : Meets (Sample.implementation []) (.done (.list 0) (.list 1))
      (listsWorld (.list 0) log) := by
    rw [← judge_passed_iff_meets (itemFeature "c"), hsame, judge_passed_iff_meets]
    exact hbefore
  have hone : (Datum.list [.scalar (.int 1)]).IsPlain :=
    .list (List.forall_mem_singleton.mpr (.scalar trivial))
  exact (compare_one_list (.list [.scalar (.int 1)]) hone _).mp hafter

/-- A list that is not written may be expected: `b` is written into `c` and equals `d`
after it as before. -/
theorem third_list_compared :
    (runFrom (runFeature (Sample.implementation []) 0 (itemFeature "d"))
        (listsWorld (.int 1) #[])).1.map (·.status) = .ok .passed ∧
      (runFrom (runFeature (Sample.implementation []) 0 (itemFeature "d").unassigned)
        (listsWorld (.int 1) #[])).1.map (·.status) = .ok .passed := by
  obtain ⟨log, hassigned⟩ := itemFeature_assigned
  have hexecuted := execute_itemFeature "d" (by decide) (by decide) rfl
  have hself : ∀ other ≠ 1, ∀ location, Scope.LeadsInto (Sample.implementation [])
      (listsWorld (.int 1) #[]) 0 "c.0" location →
        ¬ (listsWorld (.int 1) #[]).store.Contains location (.list other) := by
    intro other hne location hleads
    obtain rfl := eq_of_itemFeature_leadsInto hleads
    exact listsWorld_contains hne.symm
  have hapart : ∀ location, Scope.LeadsInto (Sample.implementation []) (listsWorld (.int 1) #[]) 0
      "c.0" location → ∀ v, Expectation.resolved (.list 2) = .resolved v →
        ¬ (listsWorld (.int 1) #[]).store.Contains location v := by
    rintro location hleads _ ⟨⟩
    exact hself 2 (by decide) location hleads
  have hverdict := binding_keeps_verdict (f := itemFeature "d")
    (Sample.implementation_keepsContents []) rfl hexecuted hassigned (listsWorld_asksAlike log)
    (hself 0 (by decide)) hapart
  have hpassed : (runFrom (runFeature (Sample.implementation []) 0 (itemFeature "d").unassigned)
      (listsWorld (.int 1) #[])).1.map (·.status) = .ok .passed := by
    rw [runFeature_unassigned ⟨rfl, rfl⟩ (by decide) hexecuted, judge_passed_iff_meets]
    exact (compare_one_list (.scalar (.int 1)) (.scalar trivial) _).mpr (.int 1)
  exact ⟨(hverdict.2 (by decide)).trans hpassed, hpassed⟩

end Run

end Conformance
