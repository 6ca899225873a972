import Conformance.Live.World
import Mathlib.Order.Defs.Unbundled

/-!
# Steps and what they leave behind

A step gives a result or a fault, and either way a state.  `runFrom` names the
pair, so that a run of several steps is taken apart one step at a time: a
sequence ends well exactly when both of its parts do, and it ends with a fault
exactly when the first part does or the second one after it.

`Moves R` says that a step relates the state it starts in to the one it leaves,
whatever its result.  For a reflexive and transitive `R` this is kept by every
way of putting steps together, which is how an invariant of the primitive steps
becomes one of a whole run.
-/

namespace Conformance

/-! ## Results -/

section Result

variable {ε α β : Type} {result : Except ε α} {b : β}

/-- A changed result ends well if the result does. -/
theorem ok_of_map_ok {f : α → β} (h : result.map f = .ok b) : ∃ a, result = .ok a ∧ f a = b := by
  cases result with
  | error fault => cases h
  | ok a => exact ⟨a, rfl, Except.ok.inj h⟩

/-- A sequence of results ends well if both parts do. -/
theorem ok_of_bind_ok {next : α → Except ε β} (h : (result >>= next) = .ok b) :
    ∃ a, result = .ok a ∧ next a = .ok b := by
  cases result with
  | error fault => cases h
  | ok a => exact ⟨a, rfl, h⟩

variable {fault : ε}

/-- A changed result faults as the result does. -/
theorem map_eq_error_iff {f : α → β} : result.map f = .error fault ↔ result = .error fault := by
  cases result with
  | error other => simp [Except.map]
  | ok a => simp [Except.map]

theorem exists_map_eq_ok_iff {f : α → β} :
    (∃ b, result.map f = .ok b) ↔ ∃ a, result = .ok a := by
  cases result with
  | error other => simp [Except.map]
  | ok a => simp [Except.map]

/-- A sequence of results faults if one of its parts does. -/
theorem error_of_bind_iff {next : α → Except ε β} :
    result >>= next = .error fault ↔
      result = .error fault ∨ ∃ a, result = .ok a ∧ next a = .error fault := by
  cases result with
  | error other => simp [bind, Except.bind]
  | ok a => simp [bind, Except.bind]

theorem exists_bind_eq_ok_iff {next : α → Except ε β} :
    (∃ b, result >>= next = .ok b) ↔ ∃ a, result = .ok a ∧ ∃ b, next a = .ok b := by
  cases result with
  | error other => simp [bind, Except.bind]
  | ok a => simp [bind, Except.bind]

end Result

/-! ## Steps -/

/-- Result and final state of a step. -/
def runFrom {σ α : Type} (step : ExceptT Fault (StateM σ) α) (s : σ) : Except Fault α × σ := step s

section Sequence

variable {σ α β : Type} {step : ExceptT Fault (StateM σ) α}
  {next : α → ExceptT Fault (StateM σ) β} {s s' : σ}

@[simp] theorem runFrom_pure (a : α) (s : σ) :
    runFrom (pure a : ExceptT Fault (StateM σ) α) s = (.ok a, s) := rfl

@[simp] theorem runFrom_throw (fault : Fault) (s : σ) :
    runFrom (throw fault : ExceptT Fault (StateM σ) α) s = (.error fault, s) := rfl

@[simp] theorem runFrom_mk_pure (result : Except Fault α) (s : σ) :
    runFrom (ExceptT.mk (pure result) : ExceptT Fault (StateM σ) α) s = (result, s) := rfl

/-- A sequence runs its second part on what the first one gives and leaves. -/
theorem runFrom_bind (step : ExceptT Fault (StateM σ) α)
    (next : α → ExceptT Fault (StateM σ) β) (s : σ) :
    runFrom (step >>= next) s =
      match runFrom step s with
      | (.ok a, s₁) => runFrom (next a) s₁
      | (.error fault, s₁) => (.error fault, s₁) := by
  change (match step s with | (r, s₁) => ExceptT.bindCont next r s₁) = _
  unfold runFrom
  rcases step s with ⟨_ | _, _⟩ <;> rfl

/-- The rest of a sequence whose first part ends well. -/
theorem runFrom_bind_of_ok {a : α} {s₁ : σ} (h : runFrom step s = (.ok a, s₁)) :
    runFrom (step >>= next) s = runFrom (next a) s₁ := by
  rw [runFrom_bind, h]

/-- A sequence whose first part ends with a fault. -/
theorem runFrom_bind_of_error {fault : Fault} {s₁ : σ}
    (h : runFrom step s = (.error fault, s₁)) :
    runFrom (step >>= next) s = (.error fault, s₁) := by
  rw [runFrom_bind, h]

/-- A run is its result and the state it leaves. -/
theorem eq_of_fst {result : Except Fault α} {run : Except Fault α × σ} (h : run.1 = result) :
    run = (result, run.2) :=
  Prod.ext h rfl

/-- A sequence ends well when both parts do. -/
theorem bind_eq_ok_iff {b : β} :
    runFrom (step >>= next) s = (.ok b, s') ↔
      ∃ a s₁, runFrom step s = (.ok a, s₁) ∧ runFrom (next a) s₁ = (.ok b, s') := by
  rw [runFrom_bind]
  rcases hstep : runFrom step s with ⟨_ | a, s₁⟩
  · simp
  · simp only [Prod.mk.injEq, Except.ok.injEq]
    constructor
    · intro h
      exact ⟨a, s₁, ⟨rfl, rfl⟩, h⟩
    · intro hboth
      obtain ⟨_, _, ⟨rfl, rfl⟩, h⟩ := hboth
      exact h

/-- A sequence ends with a fault when the first part does, or the second one
after it. -/
theorem bind_eq_error_iff {fault : Fault} :
    runFrom (step >>= next) s = (.error fault, s') ↔
      runFrom step s = (.error fault, s') ∨
      ∃ a s₁, runFrom step s = (.ok a, s₁) ∧ runFrom (next a) s₁ = (.error fault, s') := by
  rw [runFrom_bind]
  rcases hstep : runFrom step s with ⟨e | a, s₁⟩
  · simp
  · simp only [Prod.mk.injEq, Except.ok.injEq, reduceCtorEq, false_and, false_or]
    constructor
    · intro h
      exact ⟨a, s₁, ⟨rfl, rfl⟩, h⟩
    · intro hboth
      obtain ⟨_, _, ⟨rfl, rfl⟩, h⟩ := hboth
      exact h

/-- The faults of a sequence are those of its first part, and those of the second
one after it. -/
theorem bind_fault_iff {fault : Fault} :
    (runFrom (step >>= next) s).1 = .error fault ↔
      (runFrom step s).1 = .error fault ∨
      ∃ a s₁, runFrom step s = (.ok a, s₁) ∧ (runFrom (next a) s₁).1 = .error fault := by
  rw [runFrom_bind]
  rcases hstep : runFrom step s with ⟨e | a, s₁⟩
  · simp
  · simp only [Prod.mk.injEq, Except.ok.injEq, reduceCtorEq, false_or]
    constructor
    · exact fun h => ⟨a, s₁, ⟨rfl, rfl⟩, h⟩
    · rintro ⟨_, _, ⟨rfl, rfl⟩, h⟩
      exact h

/-- The faults of steps behind a guard are that of the guard and those of the steps. -/
theorem guard_fault_iff {c : Prop} [Decidable c] {raised fault : Fault}
    {rest : Unit → ExceptT Fault (StateM σ) α} :
    (runFrom (if c then MonadExcept.throw raised >>= rest else rest ()) s).1 = .error fault ↔
      c ∧ raised = fault ∨ ¬ c ∧ (runFrom (rest ()) s).1 = .error fault := by
  by_cases hc : c
  · rw [if_pos hc, bind_fault_iff]
    simp [hc, runFrom_throw]
  · rw [if_neg hc]
    simp [hc]

end Sequence

/-! ## Steps on the world -/

section World

variable {ω α : Type} (w : World ω)

@[simp] theorem runFrom_world : runFrom (Exec.world : Exec ω (World ω)) w = (.ok w, w) := rfl

@[simp] theorem runFrom_bindings (scope : ScopeId) :
    runFrom (Exec.bindings scope) w = (.ok (w.bindings scope), w) := rfl

@[simp] theorem runFrom_setBindings (scope : ScopeId) (b : Bindings) :
    runFrom (Exec.setBindings scope b) w =
      (.ok (), { w with scopes := w.scopes.setIfInBounds scope b }) := rfl

@[simp] theorem runFrom_newScope (b : Bindings) :
    runFrom (Exec.newScope b) w = (.ok w.scopes.size, { w with scopes := w.scopes.push b }) := rfl

@[simp] theorem runFrom_log (level : Level) (channel : Channel) (message : String) :
    runFrom (Exec.log level channel message) w =
      (.ok (), { w with log := w.log.push ⟨level, channel, message⟩ }) := rfl

@[simp] theorem runFrom_print (text : String) (w : World ω) :
    runFrom (Exec.print text) w = (.ok (), { w with output := w.output.push text }) := rfl

@[simp] theorem runFrom_datumNow (impl : Implementation ω) (v : Value) :
    runFrom (impl.datumNow v) w = (.ok (impl.datum w.names w.store v), w) := rfl

/-- An attempted step never faults; its result is handed on. -/
@[simp] theorem runFrom_attempt (step : Exec ω α) :
    runFrom (Exec.attempt step) w = (.ok (runFrom step w).1, (runFrom step w).2) := rfl

/-- Code of an implementation changes the store alone. -/
@[simp] theorem runFrom_code (c : Code ω α) :
    runFrom (Exec.code c) w =
      ((runFrom c w.store).1, { w with store := (runFrom c w.store).2 }) := rfl

/-- A sequence of code is run in sequence. -/
theorem Exec.code_bind {β : Type} (c : Code ω α) (next : α → Code ω β) :
    Exec.code (c >>= next) = Exec.code c >>= fun a => Exec.code (next a) := by
  funext w
  change runFrom (Exec.code (c >>= next)) w = runFrom (Exec.code c >>= fun a => Exec.code (next a)) w
  rw [runFrom_code, runFrom_bind, runFrom_bind, runFrom_code]
  rcases runFrom c w.store with ⟨fault | a, store⟩
  · rfl
  · rfl

end World

/-! ## Relations that steps keep -/

/-- The step relates every state to the one it leaves, whatever its result. -/
def Moves {σ α : Type} (R : σ → σ → Prop) (step : ExceptT Fault (StateM σ) α) : Prop :=
  ∀ s, R s (runFrom step s).2

namespace Moves

variable {σ α β : Type} {R : σ → σ → Prop}

theorem pure [Std.Refl R] (a : α) : Moves R (Pure.pure a : ExceptT Fault (StateM σ) α) :=
  fun s => Std.Refl.refl s

theorem throw [Std.Refl R] (fault : Fault) : Moves R (throw fault : ExceptT Fault (StateM σ) α) :=
  fun s => Std.Refl.refl s

/-- A sequence of steps that keep a transitive relation keeps it. -/
theorem bind [IsTrans σ R] {step : ExceptT Fault (StateM σ) α}
    {next : α → ExceptT Fault (StateM σ) β} (hstep : Moves R step) (hnext : ∀ a, Moves R (next a)) :
    Moves R (step >>= next) := by
  intro s
  have h := hstep s
  rw [runFrom_bind]
  rcases hr : runFrom step s with ⟨_ | a, s₁⟩
  · rw [hr] at h
    exact h
  · rw [hr] at h
    exact IsTrans.trans _ _ _ h (hnext a s₁)

end Moves

section WorldMoves

variable {ω α : Type} {R : World ω → World ω → Prop}

/-- Code of an implementation keeps a relation that does not look at the store. -/
theorem Moves.code (hstore : ∀ (w : World ω) store, R w { w with store })
    (c : Code ω α) : Moves R (Exec.code c) :=
  fun w => hstore w _

end WorldMoves

end Conformance
