import Conformance.Proofs.Inert
import Conformance.Proofs.Interference
import Conformance.Proofs.Unhooked

/-!
# Reads see the last write

Each feature that is executed sets one name of its scope at the most: the name it
assigns, if that has no dots, to its outcome (`runFeature_binds`).  Nothing else of the
scope changes, as no hook is bound to it.  So the bindings behind a run are those before
it with the outcomes of the results set one after the other (`runFeatures_binds`), and a
name has the last outcome it was set to, or else what it had before the run
(`named?_foldl_bindIn`).
-/

namespace Conformance

variable {ω : Type}

/-! ## Outcomes that are bound -/

namespace FeatureResult

/-- The name of the scope that is set to the outcome, if one is. -/
def boundName? (r : FeatureResult) : Option String :=
  if r.feature.isTested then r.feature.assign?.filter (fun path => !path.toList.contains '.')
  else none

/-- Bindings with the outcome set. -/
def bindIn (b : Bindings) (r : FeatureResult) : Bindings :=
  match r.boundName? with
  | some name => setNamed b name r.outcome
  | none => b

/-- The outcome of the last result that sets a name. -/
def lastOutcome? (name : String) : List FeatureResult → Option Value
  | [] => none
  | r :: rs =>
    (lastOutcome? name rs).or (if r.boundName? = some name then some r.outcome else none)

/-- The result of a tested feature sets the name without dots that it assigns. -/
theorem boundName?_eq_some_iff {r : FeatureResult} {name : String} :
    r.boundName? = some name ↔
      r.feature.isTested = true ∧ r.feature.assign? = some name ∧ '.' ∉ name.toList := by
  unfold boundName?
  by_cases h : r.feature.isTested = true
  · rw [if_pos h, Option.filter_eq_some_iff]
    simp [h]
  · simp [h]

/-- The result of a feature that is not tested sets nothing. -/
theorem bindIn_of_untested {r : FeatureResult} (h : r.feature.isTested ≠ true) (b : Bindings) :
    r.bindIn b = b := by
  have hnone : r.boundName? = none := by
    unfold boundName?
    rw [if_neg h]
  unfold bindIn
  rw [hnone]

theorem named?_bindIn (b : Bindings) (r : FeatureResult) (name : String) :
    named? (r.bindIn b) name =
      (if r.boundName? = some name then some r.outcome else none).or (named? b name) := by
  unfold bindIn
  cases hbound : r.boundName? with
  | none => rfl
  | some other =>
      by_cases heq : other = name
      · subst heq
        rw [if_pos rfl]
        exact named?_setNamed_self b other r.outcome
      · rw [if_neg fun h => heq (Option.some.inj h)]
        exact named?_setNamed_of_ne b r.outcome heq

/-- **A name has the last outcome it was set to**, or else what it had before. -/
theorem named?_foldl_bindIn (rs : List FeatureResult) (name : String) : ∀ b : Bindings,
    named? (rs.foldl bindIn b) name = (lastOutcome? name rs).or (named? b name) := by
  induction rs with
  | nil => exact fun b => rfl
  | cons r rs ih =>
      intro b
      rw [List.foldl_cons, ih, named?_bindIn, lastOutcome?, Option.or_assoc]

theorem lastOutcome?_append (name : String) (rs later : List FeatureResult) :
    lastOutcome? name (rs ++ later) = (lastOutcome? name later).or (lastOutcome? name rs) := by
  induction rs with
  | nil => exact (Option.or_none).symm
  | cons r rs ih => rw [List.cons_append, lastOutcome?, lastOutcome?, ih, Option.or_assoc]

/-- There is no last outcome of a name that no result sets. -/
theorem lastOutcome?_eq_none {name : String} {rs : List FeatureResult}
    (h : ∀ r ∈ rs, r.boundName? ≠ some name) : lastOutcome? name rs = none := by
  induction rs with
  | nil => rfl
  | cons r rs ih =>
      rw [lastOutcome?, ih fun r' hr' => h r' (List.mem_cons_of_mem _ hr'),
        if_neg (h r List.mem_cons_self)]
      rfl

/-- The last outcome of a name that a result sets and no later one does. -/
theorem lastOutcome?_of_last {name : String} {r : FeatureResult}
    {earlier later : List FeatureResult} (hr : r.boundName? = some name)
    (hlater : ∀ r' ∈ later, r'.boundName? ≠ some name) :
    lastOutcome? name (earlier ++ r :: later) = some r.outcome := by
  rw [lastOutcome?_append, lastOutcome?, lastOutcome?_eq_none hlater, if_pos hr]
  rfl

end FeatureResult

/-! ## Reading -/

namespace Scope

variable (impl : Implementation ω) {scope : ScopeId} {name : String} {w w' : World ω}

/-- A name without dots reads the same where all its spellings are bound to the same. -/
theorem get_of_same (hdots : '.' ∉ name.toList)
    (h : ∀ spelling ∈ Name.spellings name,
      named? (w'.bindings scope) spelling = named? (w.bindings scope) spelling) :
    runFrom (get impl scope name) w' = ((runFrom (get impl scope name) w).1, w') := by
  by_cases hname : name = ""
  · subst hname
    rfl
  · have hsame : (Name.spellings name).findSome? (named? (w'.bindings scope)) =
        (Name.spellings name).findSome? (named? (w.bindings scope)) := by
      rw [← List.head?_filterMap, ← List.head?_filterMap, List.filterMap_congr h]
    rw [runFrom_get_plain impl hdots hname, runFrom_get_plain impl hdots hname, hsame]
    cases (Name.spellings name).findSome? (named? (w.bindings scope)) with
    | none => rfl
    | some v => rfl

end Scope

/-! ## Running -/

namespace Run

variable {impl : Implementation ω} {listener : Listener ω} {scope : ScopeId} {w w' : World ω}

/-- The outcome of a failure is the failure marker. -/
theorem Executed.value_of_fault {f : Feature} {outcome : Outcome}
    (hexecuted : Executed impl scope f w outcome w') (hfault : outcome.fault ≠ none) :
    outcome.value = .error := by
  cases hexecuted with
  | unresolved _ => rfl
  | raised _ _ => rfl
  | done _ _ => exact absurd rfl hfault

/-- A name that was assigned is not empty. -/
theorem ne_empty_of_assign {name : String} {v : Value} (hdots : '.' ∉ name.toList)
    (hassigned : runFrom (Scope.assign impl scope name v) w = (.ok (), w')) : name ≠ "" := by
  obtain ⟨owner, last, w₁, w₂, w₃, log, hfound, -⟩ := Scope.assign_ok impl hassigned
  rcases Scope.locate_cases impl hfound with ⟨-, hname, -⟩ | ⟨hmem, -⟩
  · exact hname
  · exact absurd hmem hdots

section Binding

variable (h : impl.BindsNone)
include h

/-- Binding the outcome of a feature that is tested sets what its result sets. -/
theorem bindOutcome_binds {r : FeatureResult} (htested : r.feature.isTested = true)
    (hw : w.store.Unhooked scope) (hscope : scope < w.scopes.size)
    (hbound : runFrom (bindOutcome impl scope r.feature r.outcome) w = (.ok (), w')) :
    w'.store.Unhooked scope ∧ w'.scopes.size = w.scopes.size ∧
      w'.bindings scope = r.bindIn (w.bindings scope) := by
  unfold bindOutcome at hbound
  unfold FeatureResult.bindIn FeatureResult.boundName?
  rw [if_pos htested]
  cases hassign : r.feature.assign? with
  | none =>
      rw [hassign] at hbound
      cases hbound
      exact ⟨hw, rfl, rfl⟩
  | some path =>
      rw [hassign] at hbound
      obtain ⟨hunhooked, hsize, hbindings⟩ := Scope.assign_binds h hw hscope hbound
      refine ⟨hunhooked, hsize, hbindings.trans ?_⟩
      by_cases hdots : '.' ∈ path.toList
      · simp [Option.filter, hdots]
      · simp [Option.filter, hdots]

/-- **A feature with a result** sets the name it assigns to its outcome, and nothing
else of a scope without hooks. -/
theorem runFeature_binds {f : Feature} {r : FeatureResult} (hw : w.store.Unhooked scope)
    (hscope : scope < w.scopes.size)
    (hrun : runFrom (runFeature impl scope f) w = (.ok r, w')) :
    w'.store.Unhooked scope ∧ w'.scopes.size = w.scopes.size ∧
      w'.bindings scope = r.bindIn (w.bindings scope) := by
  obtain rfl : r.feature = f := runFeature_feature hrun
  by_cases htested : r.feature.isTested = true
  · have hkeeps := LeavesAlone.keeps h scope
    obtain ⟨outcome, w₁, w₂, hexecuted, hbound, hjudged⟩ :=
      runFeature_ok (Feature.isTested_iff.mp htested) hrun
    have hexecute := execute_kept hkeeps (Scope.call_leavesAlone h) scope r.feature w
    have hjudge := judge_kept hkeeps r.feature outcome w₂
    rw [hexecuted] at hexecute
    rw [hjudged] at hjudge
    have hbefore : Undisturbed scope w w₁ := hexecute hw
    rw [← (judge_judged hjudged).outcome_eq] at hbound
    obtain ⟨hunhooked, hsize, hbindings⟩ :=
      bindOutcome_binds h htested hbefore.unhooked (hbefore.size ▸ hscope) hbound
    have hafter : Undisturbed scope w₂ w' := hjudge hunhooked
    exact ⟨hafter.unhooked, hafter.size.trans (hsize.trans hbefore.size),
      hafter.bindings.trans (hbindings.trans (congrArg r.bindIn hbefore.bindings))⟩
  · obtain ⟨r', log, hskipped, -⟩ :=
      runFeature_of_untested impl scope w fun hboth => htested (Feature.isTested_iff.mpr hboth)
    rw [hskipped] at hrun
    cases hrun
    exact ⟨hw, rfl, (FeatureResult.bindIn_of_untested htested _).symm⟩

/-- **Features that ran to their end** set their outcomes one after the other. -/
theorem runFeatures_binds (hlistener : listener.ReportsOnly) {fs : List Feature} :
    ∀ {w : World ω} {rs : List FeatureResult},
      runFrom (runFeatures impl listener scope fs) w = (.ok (rs, none), w') →
      w.store.Unhooked scope → scope < w.scopes.size →
      w'.bindings scope = rs.foldl FeatureResult.bindIn (w.bindings scope) := by
  induction fs with
  | nil =>
      intro w rs hrun _ _
      cases hrun
      rfl
  | cons f fs ih =>
      intro w rs hrun hw hscope
      rcases runFeatures_cons_cases hrun with
        ⟨fault, -, -, hstop⟩ | ⟨r, later, w₁, w₂, hf, hheard, hlater, rfl⟩
      · cases hstop
      · obtain ⟨hunhooked, hsize, hbindings⟩ := runFeature_binds h hw hscope hf
        obtain ⟨log, output, hreported⟩ := hlistener r w₁
        rw [hreported] at hheard
        cases hheard
        rw [List.foldl_cons, ← hbindings]
        have hmade : scope < w₁.scopes.size := hsize ▸ hscope
        exact (ih hlater hunhooked hmade :)

/-- A scope that is built without hooks is there and has none. -/
theorem buildScope_unhooked {spec : Specification ω} (hhooks : spec.hooks = [])
    (hw : w.store.Unhooked w.scopes.size)
    (hbuilt : runFrom (buildScope impl spec) w = (.ok scope, w')) :
    w'.store.Unhooked scope ∧ scope < w'.scopes.size := by
  have hload := loadMembers_kept (LeavesAlone.keeps h w.scopes.size) spec.package w
  rcases hloaded : runFrom (loadMembers impl spec.package) w with ⟨fault | members, w₁⟩
  · unfold buildScope at hbuilt
    rw [runFrom_bind_of_error hloaded] at hbuilt
    cases hbuilt
  · rw [hloaded] at hload
    have hleft : Undisturbed w.scopes.size w w₁ := hload hw
    rw [buildScope_stages hloaded, hhooks] at hbuilt
    cases hbuilt
    refine ⟨?_, ?_⟩
    · rw [hleft.size]
      exact hleft.unhooked
    · exact lt_of_lt_of_eq (Nat.lt_succ_self _) (Array.size_push _).symm

end Binding

/-- The run of a specification comes to the feature behind the features `pre`, which
have the results `rs`: it was read, its scope was built, and these ran to their end.
`start` is the world in which the scope is as it was built, and `here` the one just
before that feature. -/
structure ComesTo (impl : Implementation ω) (listener : Listener ω) (spec : Specification ω)
    (w : World ω) (scope : ScopeId) (pre : List Feature) (rs : List FeatureResult)
    (start here : World ω) : Prop where
  read : spec.error = none
  built : runFrom (buildScope impl spec) w = (.ok scope, start)
  features : pre <+: spec.features
  ran : runFrom (runFeatures impl listener scope pre) start = (.ok (rs, none), here)

/-- **Reads see the last write.**  In the run of a specification without hooks, a name
without dots reads the outcome of the last feature executed so far that assigned it,
which is the failure marker if that feature failed.  If none assigned a spelling of it,
it reads what it did when the scope was built, whatever else was assigned or called.
Code of the implementation has no scope to bind a hook to, and no hook is bound to a
scope that is not there yet. -/
theorem reads_see_last_write (impl : Implementation ω) (h : impl.BindsNone)
    (listener : Listener ω) (hlistener : listener.ReportsOnly) (spec : Specification ω)
    (hhooks : spec.hooks = []) (w : World ω) (hw : w.store.Unhooked w.scopes.size)
    {scope : ScopeId} {pre : List Feature} {rs : List FeatureResult} {start here : World ω}
    (hcomes : ComesTo impl listener spec w scope pre rs start here) (name : String)
    (hdots : '.' ∉ name.toList) :
    (∀ before f after, pre = before ++ f :: after → f.isTested = true → f.assign? = some name →
      (∀ g ∈ after, g.isTested = true → g.assign? ≠ some name) →
      ∃ earlier r later outcome w₁ w₂,
        runFrom (runFeatures impl listener scope before) start = (.ok (earlier, none), w₁) ∧
        runFrom (execute impl scope f) w₁ = (.ok outcome, w₂) ∧
        (outcome.fault ≠ none → outcome.value = .error) ∧
        rs = earlier ++ r :: later ∧ r.feature = f ∧ r.outcome = outcome.value ∧
        runFrom (Scope.get impl scope name) here = (.ok outcome.value, here)) ∧
    ((∀ f ∈ pre, f.isTested = true → ∀ spelling ∈ Name.spellings name,
        f.assign? ≠ some spelling) →
      runFrom (Scope.get impl scope name) here =
        ((runFrom (Scope.get impl scope name) start).1, here)) := by
  obtain ⟨hunhooked, hmade⟩ := buildScope_unhooked h hhooks hw hcomes.built
  have hnamed : ∀ n, named? (here.bindings scope) n =
      (FeatureResult.lastOutcome? n rs).or (named? (start.bindings scope) n) := by
    intro n
    rw [runFeatures_binds h hlistener hcomes.ran hunhooked hmade,
      FeatureResult.named?_foldl_bindIn]
  refine ⟨?_, ?_⟩
  · rintro before f after rfl htested hassign hafter
    obtain ⟨earlier, behind, w₁, hearlier, hbehind, rfl⟩ := runFeatures_append_cases hcomes.ran
    rcases runFeatures_cons_cases hbehind with
      ⟨fault, -, -, hstop⟩ | ⟨r, later, w₃, w₄, hf, -, hlater, rfl⟩
    · cases hstop
    · have hfeature : r.feature = f := runFeature_feature hf
      have hlast : FeatureResult.lastOutcome? name (earlier ++ r :: later) = some r.outcome := by
        refine FeatureResult.lastOutcome?_of_last ?_ fun r' hr' hbound => ?_
        · rw [FeatureResult.boundName?_eq_some_iff, hfeature]
          exact ⟨htested, hassign, hdots⟩
        · obtain ⟨htested', hassign', -⟩ := FeatureResult.boundName?_eq_some_iff.mp hbound
          have hfeatures : later.map (·.feature) = after :=
            (runFeatures_tally hlater).1.complete rfl
          exact hafter r'.feature (hfeatures ▸ List.mem_map_of_mem hr') htested' hassign'
      obtain ⟨outcome, w₂, w₅, hexecuted, hbound, hjudged⟩ :=
        runFeature_ok (Feature.isTested_iff.mp htested) hf
      unfold bindOutcome at hbound
      rw [hassign] at hbound
      have houtcome : r.outcome = outcome.value := (judge_judged hjudged).outcome_eq
      have hvalue : named? (here.bindings scope) name = some outcome.value := by
        rw [hnamed, hlast, houtcome]
        rfl
      exact ⟨earlier, r, later, outcome, w₁, w₂, hearlier, hexecuted,
        (executed_of_execute hexecuted).value_of_fault, rfl, hfeature, houtcome,
        Scope.get_of_bound impl hdots (ne_empty_of_assign hdots hbound) hvalue⟩
  · intro hnone
    refine Scope.get_of_same impl hdots fun spelling hspelling => ?_
    rw [hnamed, FeatureResult.lastOutcome?_eq_none]
    · rfl
    · intro r hr hbound
      obtain ⟨htested, hassign, -⟩ := FeatureResult.boundName?_eq_some_iff.mp hbound
      have hfeatures : rs.map (·.feature) = pre := (runFeatures_tally hcomes.ran).1.complete rfl
      exact hnone r.feature (hfeatures ▸ List.mem_map_of_mem hr) htested spelling hspelling hassign

/-! ## A write that fails -/

namespace Shelf

/-- The code of the implementation makes lists, objects and mappings only. -/
theorem implementation_bindsNone : implementation.BindsNone where
  load := by
    intro _ scope s hs
    have hlist : (s.alloc (.list [])).2.Unhooked scope := hs.alloc nofun
    have hobject : ((s.alloc (.list [])).2.alloc (.object Tool.append)).2.Unhooked scope :=
      hlist.alloc fun _ _ heq => nomatch heq
    exact hobject.alloc nofun
  call := by
    intro _ _ args scope s hs
    change (runFrom (call args) s).2.Unhooked scope
    unfold call
    split
    · exact hs.put _ nofun
    · exact hs
  invoke := fun _ _ _ _ _ _ hs => hs
  await? := nofun
  read := fun _ _ _ _ _ hs => hs
  write := fun _ _ _ _ _ _ hs => hs
  equality? := nofun
  script := fun _ _ => trivial

/-- Assigns what cannot be read. -/
def losing : Feature := .ofAction false (.read (some "y") "gone" .null)

/-- A specification that assigns once and then changes a list in place. -/
def losingSpecification : Specification Tool := ⟨"a", [losing, appending], [], [], none⟩

/-- The result of the assignment. -/
def lost : FeatureResult :=
  ⟨losing, .failed, .error, some ("Exception: " ++ (Fault.unbound "gone").describe)⟩

theorem losing_runs : ∃ log,
    runFrom (runFeature implementation 0 losing) (startWorld (World.ofStore Store.empty)) =
      (.ok lost, { startWorld (World.ofStore Store.empty) with
        scopes := #[[("items", .list 0), ("append", .object 1), ("$import", .null), ("y", .error)]]
        log }) := by
  have hspellings : Name.spellings "gone" = ["gone"] := by decide +kernel
  have hvariable : Name.isConstant "y" = false := by decide +kernel
  have hexecuted : runFrom (execute implementation 0 losing)
      (startWorld (World.ofStore Store.empty)) =
        (.ok (.failed (.resolved .null) (.unbound "gone")),
          startWorld (World.ofStore Store.empty)) := by
    rw [execute_read rfl rfl, runFrom_readOperand_plain _ (by decide) (by decide), hspellings]
    rfl
  obtain ⟨log, hbound⟩ := @Scope.assign_plain _ implementation "y" 0
    (startWorld (World.ofStore Store.empty)) (by decide) (by decide)
    (fun h => absurd h (by simp [hvariable])) .error
  have hassigned : runFrom (bindOutcome implementation 0 losing .error)
      (startWorld (World.ofStore Store.empty)) = _ := hbound
  rw [runFeature_of_tested ⟨rfl, rfl⟩, runFrom_bind_of_ok hexecuted]
  exact ⟨_, (runFrom_bind_of_ok hassigned).trans rfl⟩

theorem losing_comes : ∃ here,
    ComesTo implementation silent losingSpecification (World.ofStore Store.empty) 0
      [losing, appending] [lost, ⟨appending, .passed, .null, none⟩]
      (startWorld (World.ofStore Store.empty)) here := by
  obtain ⟨log, hlosing⟩ := losing_runs
  exact ⟨_, rfl, rfl, List.prefix_rfl,
    runFeatures_cons hlosing rfl (runFeatures_cons rfl rfl rfl)⟩

/-- The name is bound to the failure marker, and the list that was changed in place is
the one the package has. -/
theorem lost_write_read :
    implementation.BindsNone ∧ Listener.ReportsOnly (silent : Listener Tool) ∧
    losingSpecification.hooks = [] ∧ (Store.empty : Store Tool).Unhooked 0 ∧
    ∃ here,
      ComesTo implementation silent losingSpecification (World.ofStore Store.empty) 0
        [losing, appending] [lost, ⟨appending, .passed, .null, none⟩]
        (startWorld (World.ofStore Store.empty)) here ∧
      runFrom (Scope.get implementation 0 "y") here = (.ok .error, here) ∧
      runFrom (Scope.get implementation 0 "items") here = (.ok (.list 0), here) := by
  obtain ⟨here, hcomes⟩ := losing_comes
  have hread := fun name => reads_see_last_write implementation implementation_bindsNone silent
    silent_reportsOnly losingSpecification rfl (World.ofStore Store.empty)
    (Store.unhooked_empty 0) hcomes name
  refine ⟨implementation_bindsNone, silent_reportsOnly, rfl, Store.unhooked_empty 0, here, hcomes,
    ?_, ?_⟩
  · obtain ⟨earlier, r, later, outcome, w₁, w₂, hearlier, -, -, hresults, -, houtcome, hget⟩ :=
      (hread "y" (by decide)).1 [] losing [appending] rfl rfl rfl (by
        intro g hg _
        rw [List.mem_singleton.mp hg]
        exact nofun)
    cases hearlier
    obtain ⟨rfl, -⟩ := List.cons.inj hresults
    rw [← houtcome] at hget
    exact hget
  · have hspellings : Name.spellings "items" = ["items"] := by decide +kernel
    refine ((hread "items" (by decide)).2 ?_).trans rfl
    intro f hf _ spelling hspelling
    rw [hspellings] at hspelling
    obtain rfl := List.mem_singleton.mp hspelling
    rcases List.mem_cons.mp hf with rfl | hf
    · decide
    · rw [List.mem_singleton.mp hf]
      exact nofun

end Shelf

end Run

end Conformance
