import Conformance.Proofs.Stages
import Conformance.Proofs.Preservation
import Conformance.Sample.Implementation
import Mathlib.Data.List.Basic

/-!
# Constants are bound once

A run passes through a sequence of worlds: one after each step of a hook, after
each stage of a feature, and after each hook that is installed.  `runTrace` lists
them, from the moment the scope of the specification exists to the end.

The key fact is about the one primitive that changes bindings: `assign` checks
the last name of its path before it writes, so that a constant which is bound
keeps its value (`assign_keeps`).  Everything else a feature does goes through
it.  Installing a hook does not: it binds its name whatever stands there, so a
member of the package that has the name of a hook is replaced.  `pending` holds
the names for which that may still happen.
-/

namespace Conformance

/-- Every constant that is bound in some scope keeps its value there; the pending
names are left out. -/
def KeepsConstants {ω : Type} (pending : List String) (w w' : World ω) : Prop :=
  ∀ scope name v, Name.isConstant name = true → name ∉ pending →
    named? (w.bindings scope) name = some v → named? (w'.bindings scope) name = some v

namespace KeepsConstants

variable {ω : Type} {pending more : List String} {w w' w'' : World ω}

instance : Std.Refl (KeepsConstants (ω := ω) pending) where
  refl _ _ _ _ _ _ h := h

instance : IsTrans (World ω) (KeepsConstants pending) where
  trans _ _ _ h h' scope name v hconstant hname hbound :=
    h' scope name v hconstant hname (h scope name v hconstant hname hbound)

/-- Fewer names are kept when more are pending. -/
theorem mono (h : KeepsConstants more w w') (hsub : ∀ name ∈ more, name ∈ pending) :
    KeepsConstants pending w w' :=
  fun scope name v hconstant hname => h scope name v hconstant fun hmem => hname (hsub name hmem)

/-- Worlds with the same scopes have the same constants. -/
theorem of_sameScopes (h : SameScopes w w') : KeepsConstants pending w w' := by
  intro scope name v _ _ hbound
  rw [h.bindings_eq]
  exact hbound

end KeepsConstants

/-! ## Assignments -/

namespace Scope

variable {ω : Type} {impl : Implementation ω} {pending : List String}

/-- A write keeps constants if it is not to a constant of a scope that is bound
there. -/
theorem write_keeps (owner : Owner) (name : String) (v : Value) (w : World ω)
    (hfree : ∀ id, owner = .scope id → Name.isConstant name = true →
      named? (w.bindings id) name = none) :
    KeepsConstants pending w (runFrom (write impl owner name v) w).2 := by
  cases owner with
  | value u => exact KeepsConstants.of_sameScopes (write_value_kept SameScopes.composes.keeps u name v w)
  | scope id =>
      intro scope other u hconstant _ hbound
      have hset : (runFrom (write impl (.scope id) name v) w).2.bindings scope = _ :=
        World.bindings_set w id scope (setNamed (w.bindings id) name v)
      rw [hset]
      split
      · next h =>
          obtain ⟨rfl, -⟩ := h
          by_cases hname : name = other
          · subst hname
            rw [hfree id rfl hconstant] at hbound
            cases hbound
          · rw [named?_setNamed_of_ne _ v hname]
            exact hbound
      · exact hbound

/-- A constant that the check finds free is not bound in its scope. -/
theorem unbound_of_free {id : ScopeId} {name : String} {w w' : World ω}
    (hconstant : Name.isConstant name = true)
    (hfree : runFrom (isBoundConstant impl (.scope id) name) w = (.ok false, w')) :
    named? (w'.bindings id) name = none := by
  rw [runFrom_isBoundConstant, if_pos hconstant] at hfree
  change (Except.ok (named? (w.bindings id) name).isSome, w) = (.ok false, w') at hfree
  obtain ⟨hsome, rfl⟩ := Prod.mk.inj hfree
  exact Option.isSome_eq_false_iff.mp (Except.ok.inj hsome) |> Option.isNone_iff_eq_none.mp

/-- **An assignment keeps every constant**, in whatever scope it is made and
whatever its path leads through. -/
theorem assign_keeps (scope : ScopeId) (path : String) (v : Value) :
    Moves (KeepsConstants pending) (assign impl scope path v) := by
  intro w
  refine assign_moves impl (fun w log => KeepsConstants.of_sameScopes (SameScopes.log w log))
    (fun w => KeepsConstants.of_sameScopes (locate_kept SameScopes.composes.keeps.looks scope path w))
    (fun owner name w => KeepsConstants.of_sameScopes
      (isBoundConstant_kept SameScopes.composes.keeps.looks owner name w)) ?_
  intro owner name w₁ w₂ _ hbound
  refine write_keeps owner name v w₂ ?_
  intro id hid hconstant
  obtain rfl := hid
  exact unbound_of_free hconstant hbound

end Scope

/-! ## Passing through states -/

/-- From one state through a list of others to a last one, each related to the
next. -/
def Passes {σ : Type} (R : σ → σ → Prop) : σ → List σ → σ → Prop
  | s, [], s' => R s s'
  | s, s₁ :: rest, s' => R s s₁ ∧ Passes R s₁ rest s'

namespace Passes

variable {σ : Type} {R : σ → σ → Prop} [IsTrans σ R] {s s₁ s' : σ} {states more : List σ}

/-- A first step before the states passed through. -/
theorem step (h : R s s₁) (hrest : Passes R s₁ states s') : Passes R s states s' := by
  cases states with
  | nil => exact IsTrans.trans _ _ _ h hrest
  | cons s₂ rest => exact ⟨IsTrans.trans _ _ _ h hrest.1, hrest.2⟩

/-- A last step behind the states passed through. -/
theorem extend (h : Passes R s states s₁) (hlast : R s₁ s') : Passes R s states s' := by
  induction states generalizing s with
  | nil => exact IsTrans.trans _ _ _ h hlast
  | cons s₂ rest ih => exact ⟨h.1, ih h.2⟩

/-- One way after another. -/
theorem append (h : Passes R s states s₁) (hmore : Passes R s₁ more s') :
    Passes R s (states ++ more) s' := by
  induction states generalizing s with
  | nil => exact hmore.step h
  | cons s₂ rest ih => exact ⟨h.1, ih h.2⟩

/-- Each state is related to those it comes before. -/
theorem related (h : Passes R s states s') : ∀ t ∈ states, R s t := by
  induction states generalizing s with
  | nil => intro t ht; cases ht
  | cons s₂ rest ih =>
      intro t ht
      rcases List.mem_cons.mp ht with rfl | hrest
      · exact h.1
      · exact IsTrans.trans _ _ _ h.1 (ih h.2 t hrest)

/-- Each state is related to the last one. -/
theorem related_last (h : Passes R s states s') : ∀ t ∈ states, R t s' := by
  have hlast : ∀ {s states}, Passes R s states s' → R s s' := by
    intro s states h
    induction states generalizing s with
    | nil => exact h
    | cons s₂ rest ih => exact IsTrans.trans _ _ _ h.1 (ih h.2)
  induction states generalizing s with
  | nil => intro t ht; cases ht
  | cons s₂ rest ih =>
      intro t ht
      rcases List.mem_cons.mp ht with rfl | hrest
      · exact hlast h.2
      · exact ih h.2 t hrest

/-- Of any two states passed through the earlier is related to the later. -/
theorem pairwise (h : Passes R s states s') : states.Pairwise R := by
  induction states generalizing s with
  | nil => exact .nil
  | cons s₂ rest ih => exact .cons h.2.related (ih h.2)

end Passes

/-! ## The worlds of a run -/

namespace Run

variable {ω : Type} (impl : Implementation ω)

/-- The worlds a hook passes through: one after each of its steps. -/
def scriptTrace (scope : ScopeId) : Script ω → World ω → List (World ω)
  | .done _, _ => []
  | .get path next, w =>
    let (found, w₁) := runFrom (Scope.get impl scope path) w
    w₁ :: scriptTrace scope (next found) w₁
  | .assign path v next, w =>
    let (bound, w₁) := runFrom (Scope.assign impl scope path v) w
    w₁ :: scriptTrace scope (next bound) w₁
  | .names next, w => w :: scriptTrace scope (next ((w.bindings scope).map (·.1))) w
  | .code step next, w =>
    let (result, w₁) := runFrom (Exec.code step) w
    w₁ :: scriptTrace scope (next result) w₁

/-- The worlds within a call: those of the hook, if a hook is called. -/
def callTrace (v : Value) (args : List Value) (w : World ω) : List (World ω) :=
  match v with
  | .object location =>
    match w.store.get? location with
    | some (.hook scope function _) => scriptTrace impl scope (impl.script function args) w
    | _ => []
  | _ => []

/-- The worlds of an operation: before the call, and those within it. -/
def operateTrace (scope : ScopeId) (action : Action) (w : World ω) : List (World ω) :=
  match action with
  | .call _ property args kwargs _ =>
    match runFrom (prepareCall impl scope property args kwargs) w with
    | (.ok (v, all), w₁) => w₁ :: callTrace impl v all w₁
    | (.error _, w₁) => [w₁]
  | _ => []

/-- The worlds of a feature: after its expected value is resolved, those of its
operation, after it is executed, after its outcome is bound, and at its end. -/
def featureTrace (scope : ScopeId) (f : Feature) (w : World ω) : List (World ω) :=
  if f.isComment = false ∧ f.skip = false then
    let (expected, w₁) := runFrom (Scope.resolve impl scope f.expected) w
    let operation := if expected.isOk then operateTrace impl scope f.action w₁ else []
    let (outcome, w₂) := runFrom (execute impl scope f) w
    let bound := match outcome with
      | .ok outcome => [(runFrom (bindOutcome impl scope f outcome.value) w₂).2]
      | .error _ => []
    w₁ :: operation ++ w₂ :: bound ++ [(runFrom (runFeature impl scope f) w).2]
  else [(runFrom (runFeature impl scope f) w).2]

/-- The worlds of features run in order, with the listener's after each. -/
def featuresTrace (listener : Listener ω) (scope : ScopeId) :
    List Feature → World ω → List (World ω)
  | [], _ => []
  | f :: fs, w =>
    featureTrace impl scope f w ++
      match runFrom (runFeature impl scope f) w with
      | (.error _, _) => []
      | (.ok r, w₁) =>
        match runFrom (listener r) w₁ with
        | (.error _, w₂) => [w₂]
        | (.ok _, w₂) => w₂ :: featuresTrace listener scope fs w₂

/-- A world of a run, with the names of the hooks that are still to be
installed. -/
structure Moment (ω : Type) where
  pending : List String
  world : World ω

/-- From an earlier moment to a later one: no hook becomes pending, and every
constant that is not the name of a pending hook is kept. -/
def Moment.Before {ω : Type} (m m' : Moment ω) : Prop :=
  m'.pending ⊆ m.pending ∧ KeepsConstants m.pending m.world m'.world

/-- The names under which hooks are bound. -/
def hookNames (hooks : List (String × ω)) : List String :=
  hooks.map fun hook => Scope.hookName hook.1

/-- The moments at which hooks are installed: one after each. -/
def installTrace (scope : ScopeId) : List (String × ω) → World ω → List (Moment ω)
  | [], _ => []
  | (name, function) :: hooks, w =>
    let (_, w₁) := runFrom (Scope.installHook scope name function) w
    ⟨hookNames hooks, w₁⟩ :: installTrace scope hooks w₁

/-- The moments of a run of a specification, from when its scope exists: those at
which its hooks are installed, and those of its features. -/
def runTrace (listener : Listener ω) (spec : Specification ω) (w : World ω) : List (Moment ω) :=
  match spec.error, runFrom (loadMembers impl spec.package) w with
  | none, (.ok members, w₁) =>
    let (_, w₂) := runFrom (Exec.newScope (setNamed members importName impl.importer)) w₁
    let w₃ := (runFrom (Scope.installHooks w₁.scopes.size spec.hooks) w₂).2
    ⟨hookNames spec.hooks, w₂⟩ :: installTrace w₁.scopes.size spec.hooks w₂ ++
      (featuresTrace impl listener w₁.scopes.size spec.features w₃).map (⟨[], ·⟩)
  | _, _ => []

/-! ## Constants along a run -/

variable {impl}

private theorem keeps_store (w : World ω) (store : Store ω) :
    KeepsConstants [] w { w with store } :=
  KeepsConstants.of_sameScopes (SameScopes.store w store)

private theorem keeps_log (w : World ω) (log : Array Record) :
    KeepsConstants [] w { w with log } :=
  KeepsConstants.of_sameScopes (SameScopes.log w log)

private theorem keeps_composes :
    Composes (fun step : Exec ω _ => Moves (KeepsConstants []) step) :=
  Composes.moves keeps_store keeps_log

/-- A hook passes through its worlds with every constant kept. -/
theorem scriptTrace_passes (scope : ScopeId) (script : Script ω) :
    ∀ w, Passes (KeepsConstants []) w (scriptTrace impl scope script w)
      (runFrom (Scope.runScript impl scope script) w).2 := by
  induction script with
  | done result => exact fun w => Std.Refl.refl w
  | get path next ih =>
      intro w
      exact ⟨Scope.get_kept keeps_composes.keeps.looks scope path w, ih _ _⟩
  | assign path v next ih =>
      intro w
      exact ⟨Scope.assign_keeps scope path v w, ih _ _⟩
  | names next ih =>
      intro w
      exact ⟨Std.Refl.refl w, ih _ _⟩
  | code step next ih =>
      intro w
      exact ⟨keeps_composes.code step w, ih _ _⟩

theorem callTrace_passes (v : Value) (args : List Value) (w : World ω) :
    Passes (KeepsConstants []) w (callTrace impl v args w)
      (runFrom (Scope.call impl v args) w).2 := by
  have hcall : KeepsConstants [] w (runFrom (Scope.call impl v args) w).2 :=
    Scope.call_kept keeps_composes.keeps Scope.assign_keeps v args w
  unfold callTrace
  split
  · next location =>
      split
      · next scope function attributes hcell =>
          have heq : runFrom (Scope.call impl (.object location) args) w =
              runFrom (Scope.runScript impl scope (impl.script function args)) w := by
            unfold Scope.call
            rw [runFrom_bind, runFrom_world]
            dsimp only
            rw [hcell]
          rw [heq]
          exact scriptTrace_passes scope (impl.script function args) w
      · exact hcall
  · exact hcall

theorem operateTrace_passes (scope : ScopeId) (action : Action) (expected : Value) (w : World ω) :
    Passes (KeepsConstants []) w (operateTrace impl scope action w)
      (runFrom (operate impl scope action expected) w).2 := by
  cases action with
  | comment text => exact Std.Refl.refl w
  | bind target value => exact Std.Refl.refl w
  | read assign property value => exact readOperand_kept keeps_composes.keeps scope property w
  | call assign property args kwargs value =>
      have hprepare : KeepsConstants [] w
          (runFrom (prepareCall impl scope property args kwargs) w).2 :=
        prepareCall_kept keeps_composes.keeps scope property args kwargs w
      unfold operateTrace operate callOperand
      dsimp only
      rw [runFrom_bind]
      rcases hpair : runFrom (prepareCall impl scope property args kwargs) w with
        ⟨fault | ⟨callee, all⟩, w₁⟩
      · rw [hpair] at hprepare
        exact ⟨hprepare, Std.Refl.refl w₁⟩
      · rw [hpair] at hprepare
        refine ⟨hprepare, ?_⟩
        dsimp only
        rw [← List.append_nil (callTrace impl callee all w₁)]
        refine (callTrace_passes callee all w₁).append ?_
        rw [runFrom_bind]
        rcases runFrom (Scope.call impl callee all) w₁ with ⟨fault | v, w₂⟩
        · exact Std.Refl.refl w₂
        · exact Scope.awaited_kept keeps_composes.keeps v w₂

/-- Executing passes from the expected value through the operation. -/
theorem execute_passes (scope : ScopeId) (f : Feature) (w : World ω) :
    Passes (KeepsConstants []) (runFrom (Scope.resolve impl scope f.expected) w).2
      (if (runFrom (Scope.resolve impl scope f.expected) w).1.isOk then
        operateTrace impl scope f.action (runFrom (Scope.resolve impl scope f.expected) w).2
      else [])
      (runFrom (execute impl scope f) w).2 := by
  unfold execute
  rw [runFrom_bind, runFrom_attempt]
  rcases runFrom (Scope.resolve impl scope f.expected) w with ⟨fault | expected, w₁⟩
  · exact Std.Refl.refl w₁
  · dsimp only
    rw [if_pos (show (Except.ok expected : Except Fault Value).isOk = true from rfl),
      runFrom_bind, runFrom_attempt]
    have hoperate : Passes (KeepsConstants []) w₁ (operateTrace impl scope f.action w₁)
        (runFrom (operate impl scope f.action expected) w₁).2 :=
      operateTrace_passes scope f.action expected w₁
    rcases hresult : runFrom (operate impl scope f.action expected) w₁ with ⟨fault | v, w₂⟩
    · rw [hresult] at hoperate
      exact hoperate
    · rw [hresult] at hoperate
      exact hoperate

/-- **A feature passes through its worlds with every constant kept.** -/
theorem featureTrace_passes (scope : ScopeId) (f : Feature) (w : World ω) :
    Passes (KeepsConstants []) w (featureTrace impl scope f w)
      (runFrom (runFeature impl scope f) w).2 := by
  unfold featureTrace
  split
  · next htested =>
      have hresolve : KeepsConstants [] w (runFrom (Scope.resolve impl scope f.expected) w).2 :=
        Scope.resolve_kept keeps_composes.keeps scope f.expected w
      obtain ⟨outcome, w₂, hexecuted⟩ := execute_ok impl scope f w
      have hexecute : Passes (KeepsConstants []) _ _ (runFrom (execute impl scope f) w).2 :=
        execute_passes scope f w
      have hrun : runFrom (runFeature impl scope f) w =
          runFrom (bindOutcome impl scope f outcome.value >>= fun _ => judge impl f outcome) w₂ := by
        rw [runFeature_of_tested htested, runFrom_bind_of_ok hexecuted]
      have hbind : KeepsConstants [] w₂ (runFrom (bindOutcome impl scope f outcome.value) w₂).2 :=
        bindOutcome_kept keeps_composes.keeps Scope.assign_keeps scope f outcome.value w₂
      have hjudge : KeepsConstants [] (runFrom (bindOutcome impl scope f outcome.value) w₂).2
          (runFrom (runFeature impl scope f) w).2 := by
        rw [hrun, runFrom_bind]
        rcases runFrom (bindOutcome impl scope f outcome.value) w₂ with ⟨fault | ⟨⟩, w₃⟩
        · exact Std.Refl.refl w₃
        · exact judge_kept keeps_composes.keeps f outcome w₃
      rw [hexecuted] at hexecute ⊢
      have hbound : Passes (KeepsConstants []) _
          (_ ++ [w₂, (runFrom (bindOutcome impl scope f outcome.value) w₂).2]) _ :=
        hexecute.append ⟨Std.Refl.refl w₂, hbind, Std.Refl.refl _⟩
      exact ⟨hresolve, hbound.append ⟨hjudge, Std.Refl.refl _⟩⟩
  · exact ⟨runFeature_kept keeps_composes.keeps Scope.assign_keeps scope f w, Std.Refl.refl _⟩

/-- A listener that leaves the scopes alone. -/
def Listener.LeavesScopes (listener : Listener ω) : Prop :=
  ∀ r, Moves SameScopes (listener r)

variable {listener : Listener ω}

/-- Features pass through their worlds with every constant kept, up to the world
in which they end. -/
theorem featuresTrace_passes (hlistener : listener.LeavesScopes) (scope : ScopeId)
    (fs : List Feature) :
    ∀ w, Passes (KeepsConstants []) w (featuresTrace impl listener scope fs w)
      (runFrom (runFeatures impl listener scope fs) w).2 := by
  induction fs with
  | nil => exact fun w => Std.Refl.refl w
  | cons f fs ih =>
      intro w
      have hfeature : Passes (KeepsConstants []) w (featureTrace impl scope f w)
          (runFrom (runFeature impl scope f) w).2 := featureTrace_passes scope f w
      unfold featuresTrace runFeatures
      rw [runFrom_bind, runFrom_attempt]
      rcases hrun : runFrom (runFeature impl scope f) w with ⟨fault | r, w₁⟩
      · rw [hrun] at hfeature
        exact hfeature.append (Std.Refl.refl w₁)
      · rw [hrun] at hfeature
        refine hfeature.append ?_
        dsimp only
        have hheard : KeepsConstants [] w₁ (runFrom (listener r) w₁).2 :=
          KeepsConstants.of_sameScopes (hlistener r w₁)
        rw [runFrom_bind]
        rcases hlisten : runFrom (listener r) w₁ with ⟨fault | ⟨⟩, w₂⟩
        · rw [hlisten] at hheard
          exact ⟨hheard, Std.Refl.refl w₂⟩
        · rw [hlisten] at hheard
          refine ⟨hheard, ?_⟩
          have hrest := ih w₂
          dsimp only
          rw [runFrom_bind]
          rcases hfs : runFrom (runFeatures impl listener scope fs) w₂ with ⟨fault | ⟨rs, stop⟩, w₃⟩
          · rw [hfs] at hrest
            exact hrest
          · rw [hfs] at hrest
            exact hrest

/-! ## Installing hooks -/

instance : Std.Refl (Moment.Before (ω := ω)) where
  refl m := ⟨List.Subset.refl _, Std.Refl.refl m.world⟩

instance : IsTrans (Moment ω) Moment.Before where
  trans m m' m'' h h' := by
    refine ⟨List.Subset.trans h'.1 h.1, ?_⟩
    exact IsTrans.trans _ _ _ h.2 (h'.2.mono fun name hname => h.1 hname)

/-- Worlds passed through with every constant kept are moments without pending
names. -/
theorem moments_passes {w w' : World ω} {worlds : List (World ω)}
    (h : Passes (KeepsConstants []) w worlds w') :
    Passes Moment.Before ⟨[], w⟩ (worlds.map (⟨[], ·⟩)) ⟨[], w'⟩ := by
  induction worlds generalizing w with
  | nil => exact ⟨List.Subset.refl _, h⟩
  | cons w₁ rest ih => exact ⟨⟨List.Subset.refl _, h.1⟩, ih h.2⟩

/-- Installing a hook keeps every constant that has not its name. -/
theorem installHook_before (scope : ScopeId) (hook : String × ω) (hooks : List (String × ω))
    (w : World ω) :
    Moment.Before ⟨hookNames (hook :: hooks), w⟩
      ⟨hookNames hooks, (runFrom (Scope.installHook scope hook.1 hook.2) w).2⟩ := by
  obtain ⟨name, function⟩ := hook
  refine ⟨List.subset_cons_self _ _, ?_⟩
  intro other n v _ hname hbound
  have hne : Scope.hookName name ≠ n := by
    intro heq
    obtain rfl := heq
    exact hname List.mem_cons_self
  let w₁ : World ω := { w with store := (w.store.alloc (.hook scope function [])).2 }
  have hset : (runFrom (Scope.installHook scope name function) w).2.bindings other = _ :=
    World.bindings_set w₁ scope other (setNamed (w₁.bindings scope) (Scope.hookName name)
      (.object (w.store.alloc (.hook scope function [])).1))
  rw [hset]
  split
  · next h =>
      obtain ⟨rfl, -⟩ := h
      rw [named?_setNamed_of_ne _ _ hne]
      exact hbound
  · exact hbound

/-- Hooks are installed one after another, each at a moment of its own. -/
theorem installTrace_passes (scope : ScopeId) (hooks : List (String × ω)) :
    ∀ w, Passes Moment.Before ⟨hookNames hooks, w⟩ (installTrace scope hooks w)
      ⟨[], (runFrom (Scope.installHooks scope hooks) w).2⟩ := by
  induction hooks with
  | nil => exact fun w => Std.Refl.refl _
  | cons hook hooks ih =>
      intro w
      exact ⟨installHook_before scope hook hooks w, ih _⟩

/-! ## The run of a specification -/

/-- Building a scope is loading, making the scope and installing the hooks. -/
theorem buildScope_stages {spec : Specification ω} {members : Bindings} {w w₁ : World ω}
    (hloaded : runFrom (loadMembers impl spec.package) w = (.ok members, w₁)) :
    runFrom (buildScope impl spec) w =
      (.ok w₁.scopes.size, (runFrom (Scope.installHooks w₁.scopes.size spec.hooks)
        (runFrom (Exec.newScope (setNamed members importName impl.importer)) w₁).2).2) := by
  have hinstall : ∀ (scope : ScopeId) (hooks : List (String × ω)) (w : World ω),
      runFrom (Scope.installHooks scope hooks) w =
        (.ok (), (runFrom (Scope.installHooks scope hooks) w).2) := by
    intro scope hooks
    induction hooks with
    | nil => exact fun w => rfl
    | cons hook hooks ih => exact fun w => ih _
  unfold buildScope
  rw [runFrom_bind_of_ok hloaded, runFrom_bind, runFrom_newScope]
  dsimp only
  rw [runFrom_bind_of_ok (hinstall _ _ _)]
  rfl

/-- The run of a specification whose scope is built ends with the scopes that its
features leave. -/
theorem runSpecification_sameScopes {spec : Specification ω} {scope : ScopeId} {w w₁ : World ω}
    (hread : spec.error = none) (hbuilt : runFrom (buildScope impl spec) w = (.ok scope, w₁)) :
    SameScopes (runFrom (runFeatures impl listener scope spec.features) w₁).2
      (runFrom (runSpecification impl listener spec) w).2 := by
  unfold runSpecification runLoaded
  rw [hread]
  dsimp only
  rw [runFrom_bind, runFrom_attempt, hbuilt]
  dsimp only
  rw [runFrom_bind]
  rcases runFrom (runFeatures impl listener scope spec.features) w₁ with ⟨fault | ⟨rs, stop⟩, w₂⟩
  · exact Std.Refl.refl w₂
  · cases stop with
    | none => exact Std.Refl.refl w₂
    | some fault =>
        dsimp only
        unfold abort
        split
        · exact SameScopes.log w₂ _
        · exact Std.Refl.refl w₂

variable (impl) in
/-- A run passes through its moments, each constant kept that has not the name
of a pending hook, up to the world in which it ends. -/
theorem runTrace_passes (hlistener : listener.LeavesScopes) (spec : Specification ω) (w : World ω) :
    runTrace impl listener spec w = [] ∨
      ∃ m, Passes Moment.Before m (runTrace impl listener spec w)
        ⟨[], (runFrom (runSpecification impl listener spec) w).2⟩ := by
  unfold runTrace
  cases hread : spec.error with
  | some fault => exact Or.inl rfl
  | none =>
      rcases hloaded : runFrom (loadMembers impl spec.package) w with ⟨fault | members, w₁⟩
      · exact Or.inl rfl
      · refine Or.inr ⟨_, ⟨Std.Refl.refl _, ?_⟩⟩
        refine (installTrace_passes _ spec.hooks _).append ?_
        have hend : SameScopes _ (runFrom (runSpecification impl listener spec) w).2 :=
          runSpecification_sameScopes hread (buildScope_stages hloaded)
        exact moments_passes ((featuresTrace_passes hlistener _ _ _).extend
          (KeepsConstants.of_sameScopes hend))

/-- Features behind others that ran to their end: a fault of the first of them
stops the run, with the results of the others. -/
theorem runFeatures_stopped {scope : ScopeId} {pre post : List Feature} {f : Feature}
    {rs : List FeatureResult} {fault : Fault} {w w₂ w₃ : World ω}
    (hf : runFrom (runFeature impl scope f) w₂ = (.error fault, w₃))
    (hpre : runFrom (runFeatures impl listener scope pre) w = (.ok (rs, none), w₂)) :
    runFrom (runFeatures impl listener scope (pre ++ f :: post)) w = (.ok (rs, some fault), w₃) := by
  rw [runFeatures_append, hpre]
  dsimp only
  rw [runFeatures_of_error hf]
  dsimp only
  rw [List.append_nil]

/-- The text under which a reassignment ends a run. -/
theorem describe_constantReassigned (name : String) :
    (Fault.constantReassigned name).describe =
      "ConstantReassignment: Can't update the constant " ++ name := by
  change "ConstantReassignment" ++ ": " ++ ("Can't update the constant " ++ name) = _
  rw [← String.append_assoc]
  rfl

/-- A reassignment ends the run of a specification with a warning and its text. -/
theorem abort_constantReassigned (result : SpecificationResult) (name : String) (w : World ω) :
    runFrom (abort result (.constantReassigned name)) w =
      (.ok { result with error := some ("ConstantReassignment: Can't update the constant " ++ name) },
        { w with log := w.log.push ⟨.warning, .runner,
          "Specification " ++ result.package ++ " aborted: Can't update the constant " ++ name⟩ }) := by
  have htext : "Specification " ++ result.package ++ " aborted: " ++
      ("Can't update the constant " ++ name) =
        "Specification " ++ result.package ++ " aborted: Can't update the constant " ++ name := by
    rw [← String.append_assoc]
    refine congrArg (· ++ name) ?_
    rw [String.append_assoc]
    rfl
  rw [abort_of_authoring rfl, describe_constantReassigned, ← htext]
  rfl

/-- The run of a specification comes to a feature that is to bind a name which is
bound already, at the latest by the execution of that feature.  `rs` are the
results of the features before it, and `w'` is the world after its execution. -/
inductive ComesToRebind (impl : Implementation ω) (listener : Listener ω)
    (spec : Specification ω) (w : World ω) (scope : ScopeId) (name : String)
    (rs : List FeatureResult) (w' : World ω) : Prop
  | intro {pre post : List Feature} {f : Feature} {outcome : Outcome} {w₁ w₂ : World ω}
      (hread : spec.error = none)
      (hbuilt : runFrom (buildScope impl spec) w = (.ok scope, w₁))
      (hfeatures : spec.features = pre ++ f :: post)
      (hpre : runFrom (runFeatures impl listener scope pre) w₁ = (.ok (rs, none), w₂))
      (htested : f.isComment = false ∧ f.skip = false)
      (hexecuted : runFrom (execute impl scope f) w₂ = (.ok outcome, w'))
      (hassign : f.assign? = some name)
      (hbound : (named? (w₂.bindings scope) name).isSome ∨ (named? (w'.bindings scope) name).isSome)

/-- **Constants are bound once.**  Of any two moments of a run, the later has
every constant of the earlier with the value it had, and so has the end; only
the names of hooks still to be installed are left out.  A feature that is to
bind a constant which is bound already is the last one executed: the run ends
with the results of the features before it and the text of the reassignment, and
nothing but a warning follows the execution. -/
theorem constants_bound_once (impl : Implementation ω) (listener : Listener ω)
    (hlistener : listener.LeavesScopes) (spec : Specification ω) (w : World ω) :
    (runTrace impl listener spec w).Pairwise Moment.Before ∧
    (∀ m ∈ runTrace impl listener spec w,
      KeepsConstants m.pending m.world (runFrom (runSpecification impl listener spec) w).2) ∧
    ∀ scope name rs w', ComesToRebind impl listener spec w scope name rs w' →
      Name.isConstant name = true → '.' ∉ name.toList →
      runFrom (runSpecification impl listener spec) w =
        (.ok { startResult spec with
            results := rs, scope := some scope,
            error := some ("ConstantReassignment: Can't update the constant " ++ name) },
          { w' with log := w'.log.push ⟨.warning, .runner,
            "Specification " ++ spec.package ++ " aborted: Can't update the constant " ++ name⟩ }) := by
  refine ⟨?_, ?_, ?_⟩
  · rcases runTrace_passes impl hlistener spec w with hnil | ⟨m, hpasses⟩
    · rw [hnil]
      exact .nil
    · exact hpasses.pairwise
  · intro m hm
    rcases runTrace_passes impl hlistener spec w with hnil | ⟨m₀, hpasses⟩
    · rw [hnil] at hm
      cases hm
    · exact (hpasses.related_last m hm).2
  · intro scope name rs w' h hconstant hdots
    obtain @⟨pre, post, f, outcome, w₁, w₂, hread, hbuilt, hfeatures, hpre, htested, hexecuted,
      hassign, hbound⟩ := h
    have hbound' : (named? (w'.bindings scope) name).isSome = true := by
      rcases hbound with hbefore | hafter
      · obtain ⟨v, hv⟩ := Option.isSome_iff_exists.mp hbefore
        have hkeeps : KeepsConstants [] w₂ (runFrom (execute impl scope f) w₂).2 :=
          execute_moves keeps_store keeps_log Scope.assign_keeps scope f w₂
        rw [hexecuted] at hkeeps
        rw [hkeeps scope name v hconstant List.not_mem_nil hv]
        rfl
      · exact hafter
    have hf : runFrom (runFeature impl scope f) w₂ = (.error (.constantReassigned name), w') := by
      rw [runFeature_of_tested htested, runFrom_bind_of_ok hexecuted]
      refine runFrom_bind_of_error ?_
      unfold bindOutcome
      rw [hassign]
      exact Scope.assign_bound_constant impl hconstant hdots hbound' outcome.value
    have hrun : runFrom (runFeatures impl listener scope spec.features) w₁ =
        (.ok (rs, some (.constantReassigned name)), w') := by
      rw [hfeatures]
      exact runFeatures_stopped hf hpre
    rw [runSpecification_stages hread hbuilt hrun]
    exact abort_constantReassigned _ name w'

/-! ## Two packages with a constant -/

/-- A store with a package that has a constant of the given name. -/
def constantStore (name : String) : Store Sample.Object :=
  { Sample.initialStore with
    cells := Sample.initialStore.cells.push (.map [(Key.str name, .int 1)]) }

/-- The sample implementation with the package of `constantStore`. -/
def constantImplementation : Implementation Sample.Object :=
  Sample.implementation [⟨"p", .ok (.map 5), false⟩]

/-- A specification that binds the constant of its package again. -/
def limitSpecification : Specification Sample.Object :=
  ⟨"p", [.ofAction false (.bind "Limit" (.str "more"))], [], [], none⟩

/-- The constant of the package is not bound again: the run ends before any
result. -/
theorem limit_bound_once :
    Listener.LeavesScopes (fun _ => pure () : Listener Sample.Object) ∧
      (runFrom (runSpecification constantImplementation (fun _ => pure ()) limitSpecification)
        (World.ofStore (constantStore "Limit"))).1 =
          .ok { startResult limitSpecification with
            scope := some 0,
            error := some "ConstantReassignment: Can't update the constant Limit" } := by
  have hlistener : Listener.LeavesScopes (fun _ => pure () : Listener Sample.Object) :=
    fun _ => Moves.pure _
  refine ⟨hlistener, ?_⟩
  have hbuilt : runFrom (buildScope constantImplementation limitSpecification)
      (World.ofStore (constantStore "Limit")) = (.ok 0, ⟨constantStore "Limit",
        #[[("Limit", .int 1), ("$import", .object Sample.importerLocation)]], #[], #[]⟩) := rfl
  have habort := (constants_bound_once constantImplementation (fun _ => pure ()) hlistener
    limitSpecification (World.ofStore (constantStore "Limit"))).2.2 0 "Limit" [] _
    (.intro rfl hbuilt (List.nil_append _).symm rfl ⟨rfl, rfl⟩ rfl rfl (Or.inl rfl))
    rfl (by decide)
  rw [habort]
  rfl

/-- A specification with a hook that has the name of a member of its package. -/
def hookSpecification : Specification Sample.Object :=
  ⟨"p", [.ofAction false (.read none "$Make" (.scalar (.int 1)))],
    [("Make", .hook .make)], [], none⟩

/-- A hook replaces the constant of the package that has its name, so that not
every constant keeps its value from the moment the scope exists. -/
theorem constants_not_always_kept :
    ¬ ∀ (ω : Type) (impl : Implementation ω) (listener : Listener ω) (spec : Specification ω)
        (w : World ω),
      (runTrace impl listener spec w).Pairwise fun m m' => KeepsConstants [] m.world m'.world := by
  intro h
  have hpairwise := h _ constantImplementation (fun _ => pure ()) hookSpecification
    (World.ofStore (constantStore "$Make"))
  obtain ⟨m₀, m₁, rest, htrace, hbefore, hafter⟩ : ∃ m₀ m₁ rest,
      runTrace constantImplementation (fun _ => pure ()) hookSpecification
        (World.ofStore (constantStore "$Make")) = m₀ :: m₁ :: rest ∧
      named? (m₀.world.bindings 0) "$Make" = some (.int 1) ∧
      named? (m₁.world.bindings 0) "$Make" = some (.object 6) := ⟨_, _, _, rfl, rfl, rfl⟩
  rw [htrace] at hpairwise
  have hkept := (List.pairwise_cons.mp hpairwise).1 m₁ List.mem_cons_self 0 "$Make" (.int 1) rfl
    List.not_mem_nil hbefore
  rw [hafter] at hkept
  cases hkept

end Run

end Conformance
