import Conformance.Proofs.Lookups

/-!
# Properties that features keep

A feature touches the world in three ways only: it runs code, which changes the
store; it writes log records; and it assigns, for its own outcome or in a hook.
It looks at the world in two: it reads the store and the bindings of a scope.

`Combines P` says that a property `P` of steps holds of looking and logging, and is
kept by putting steps together.  `Implementation.Keeps P` adds the code that is run:
that of the implementation, and the few changes of cells that the engine makes of its
own.  Such a property holds of every lookup (`Keeps.looks`), and if it holds of
assignments, of every call and every feature.  The lemmas follow the engine's functions
from resolving a value up to `runFeature_kept`; `assign_kept` and `buildScope_kept` add
what holds once setting bindings is allowed as well.

A property that all code has is kept by every implementation (`Composes.keeps`), and
`Composes.moves` makes an instance of every preorder of worlds that ignores the store
and the log.
-/

namespace Conformance

/-- A property of steps that holds of logging and of looking at bindings and at the
store, and that is kept by putting steps together. -/
structure Combines {ω : Type} (P : {α : Type} → Exec ω α → Prop) : Prop where
  pure : ∀ {α : Type} (a : α), P (Pure.pure a : Exec ω α)
  throw : ∀ {α : Type} (fault : Fault), P (MonadExcept.throw fault : Exec ω α)
  bind : ∀ {α β : Type} {step : Exec ω α} {next : α → Exec ω β},
    P step → (∀ a, P (next a)) → P (step >>= next)
  attempt : ∀ {α : Type} {step : Exec ω α}, P step → P (Exec.attempt step)
  bindings : ∀ scope : ScopeId, P (Exec.bindings scope)
  look : ∀ {α : Type} {next : World ω → Exec ω α},
    (∀ w w', w.store = w'.store → w.scopes = w'.scopes → next w = next w') → (∀ w, P (next w)) →
      P (Exec.world >>= next)
  log : ∀ (level : Level) (channel : Channel) (message : String),
    P (Exec.log level channel message)

/-- Such a property that holds of running any code. -/
structure Composes {ω : Type} (P : {α : Type} → Exec ω α → Prop) : Prop extends Combines P where
  code : ∀ {α : Type} (c : Code ω α), P (Exec.code c)

/-- The code that a hook runs is of a kind. -/
def Script.AllCode {ω : Type} (A : Code ω Value → Prop) : Script ω → Prop
  | .done _ => True
  | .get _ next => ∀ found, (next found).AllCode A
  | .assign _ _ next => ∀ bound, (next bound).AllCode A
  | .names next => ∀ all, (next all).AllCode A
  | .code step next => A step ∧ ∀ result, (next result).AllCode A

/-- The code of an implementation is of a kind. -/
structure Implementation.AllCode {ω : Type} (impl : Implementation ω)
    (A : {α : Type} → Code ω α → Prop) : Prop where
  load : ∀ package, A (impl.load package)
  call : ∀ location o args, A (impl.call location o args)
  invoke : ∀ location o name args, A (impl.invoke location o name args)
  await? : ∀ o pending, impl.await? o = some pending → A pending
  read : ∀ location o name, A (impl.read location o name)
  write : ∀ location o name v, A (impl.write location o name v)
  equality? : ∀ o decide, impl.equality? o = some decide → ∀ d, A (decide d)
  script : ∀ function args, (impl.script function args).AllCode A

/-- Such a property that holds of the code of an implementation and of what the engine
itself does to cells. -/
structure Implementation.Keeps {ω : Type} (impl : Implementation ω)
    (P : {α : Type} → Exec ω α → Prop) : Prop extends Combines P where
  own : impl.AllCode fun c => P (Exec.code c)
  list : ∀ items, P (Exec.code (Code.alloc (.list items)))
  map : ∀ entries, P (Exec.code (Code.alloc (.map entries)))
  putList : ∀ location items, P (Exec.code (Code.put location (.list items)))
  putMap : ∀ location entries, P (Exec.code (Code.put location (.map entries)))
  mark : ∀ marker name v, P (Exec.code (Code.mark marker name v))
  writeAttribute : ∀ location name v, P (Scope.writeAttribute impl location name v)

variable {ω : Type} {impl : Implementation ω} {P : {α : Type} → Exec ω α → Prop}

/-- Looking things up is part of what a feature does. -/
theorem Implementation.Keeps.looks (h : impl.Keeps P) : impl.Looks P where
  pure := h.pure
  throw := h.throw
  bind := h.bind
  attempt := h.attempt
  bindings := h.bindings
  look := h.look
  read := h.own.read

namespace Combines

theorem mk_pure (h : Combines P) {α : Type} (result : Except Fault α) :
    P (ExceptT.mk (Pure.pure result) : Exec ω α) := by
  cases result with
  | error fault => exact h.throw fault
  | ok a => exact h.pure a

/-- Looking at a value takes no step but looking at the world. -/
theorem datumNow (h : Combines P) (v : Value) : P (impl.datumNow v) := by
  have hlook : P (Exec.world >>= fun w : World ω => Pure.pure (impl.datum w.names w.store v)) :=
    h.look (fun w w' hstore hscopes => by
      have hnames : w.names = w'.names := by
        funext scope
        simp only [World.names, World.bindings, hscopes]
      rw [hstore, hnames]) fun _ => h.pure _
  exact hlook

theorem ite {α : Type} {c : Prop} [Decidable c] {first second : Exec ω α} (_ : Combines P)
    (hfirst : P first) (hsecond : P second) : P (if c then first else second) := by
  by_cases hc : c
  · rw [if_pos hc]
    exact hfirst
  · rw [if_neg hc]
    exact hsecond

/-- A guard keeps what the steps behind it keep. -/
theorem guard (h : Combines P) {α : Type} {c : Prop} [Decidable c] {fault : Fault}
    {next : Unit → Exec ω α} (hnext : P (next ())) :
    P (if c then MonadExcept.throw fault >>= next else next ()) := by
  by_cases hc : c
  · rw [if_pos hc]
    exact h.throw fault
  · rw [if_neg hc]
    exact hnext

/-- A sequence of code. -/
theorem code_bind (h : Combines P) {α β : Type} {c : Code ω α} {next : α → Code ω β}
    (hc : P (Exec.code c)) (hnext : ∀ a, P (Exec.code (next a))) : P (Exec.code (c >>= next)) := by
  rw [Exec.code_bind]
  exact h.bind hc hnext

theorem code_ite (h : Combines P) {α : Type} {c : Prop} [Decidable c] {first second : Code ω α}
    (hfirst : P (Exec.code first)) (hsecond : P (Exec.code second)) :
    P (Exec.code (if c then first else second)) := by
  rw [apply_ite Exec.code]
  exact h.ite hfirst hsecond

theorem code_mk_pure (h : Combines P) {α : Type} (result : Except Fault α) :
    P (Exec.code (ExceptT.mk (Pure.pure result) : Code ω α)) :=
  h.mk_pure result

/-- Code that looks at the store. -/
theorem code_store (h : Combines P) {α : Type} {next : Store ω → Code ω α}
    (hnext : ∀ store, P (Exec.code (next store))) : P (Exec.code (Code.store >>= next)) := by
  have hlook : P (Exec.world >>= fun w : World ω => Exec.code (next w.store)) :=
    h.look (fun _ _ hstore _ => by simp only [hstore]) fun w => hnext w.store
  exact hlook

end Combines

/-! ## Code -/

/-- What holds of all code holds of the code of a hook. -/
theorem Script.AllCode.of_forall {A : Code ω Value → Prop} (h : ∀ c, A c) (script : Script ω) :
    script.AllCode A := by
  induction script with
  | done result => trivial
  | get path next ih => exact ih
  | assign path v next ih => exact ih
  | names next ih => exact ih
  | code step next ih => exact ⟨h step, ih⟩

/-- What holds of the code of a hook may be weakened. -/
theorem Script.AllCode.mono {A B : Code ω Value → Prop} (hAB : ∀ c, A c → B c)
    {script : Script ω} (h : script.AllCode A) : script.AllCode B := by
  induction script with
  | done result => trivial
  | get path next ih => exact fun found => ih found (h found)
  | assign path v next ih => exact fun bound => ih bound (h bound)
  | names next ih => exact fun all => ih all (h all)
  | code step next ih => exact ⟨hAB step h.1, fun result => ih result (h.2 result)⟩

/-- Code of a kind is of every kind that includes it. -/
theorem Implementation.AllCode.mono {A B : {α : Type} → Code ω α → Prop} (h : impl.AllCode A)
    (hAB : ∀ {α : Type} (c : Code ω α), A c → B c) : impl.AllCode B where
  load := fun _ => hAB _ (h.load _)
  call := fun _ _ _ => hAB _ (h.call _ _ _)
  invoke := fun _ _ _ _ => hAB _ (h.invoke _ _ _ _)
  await? := fun _ _ hpending => hAB _ (h.await? _ _ hpending)
  read := fun _ _ _ => hAB _ (h.read _ _ _)
  write := fun _ _ _ _ => hAB _ (h.write _ _ _ _)
  equality? := fun _ _ hdecide _ => hAB _ (h.equality? _ _ hdecide _)
  script := fun _ _ => (h.script _ _).mono fun _ => hAB _

/-- **What holds of all code** is kept by every implementation. -/
theorem Composes.keeps (h : Composes P) : impl.Keeps P where
  toCombines := h.toCombines
  own :=
    { load := fun _ => h.code _
      call := fun _ _ _ => h.code _
      invoke := fun _ _ _ _ => h.code _
      await? := fun _ _ _ => h.code _
      read := fun _ _ _ => h.code _
      write := fun _ _ _ _ => h.code _
      equality? := fun _ _ _ _ => h.code _
      script := fun _ _ => Script.AllCode.of_forall (fun _ => h.code _) _ }
  list := fun _ => h.code _
  map := fun _ => h.code _
  putList := fun _ _ => h.code _
  putMap := fun _ _ => h.code _
  mark := fun _ _ _ => h.code _
  writeAttribute := by
    intro location name v
    unfold Scope.writeAttribute
    refine h.look (fun _ _ hstore _ => by simp only [hstore]) fun _ => ?_
    split
    · exact h.code _
    · exact h.code _
    · exact h.throw _

theorem newList_kept (h : impl.Keeps P) (items : List Value) :
    P (Exec.code (Code.newList items)) :=
  h.code_bind (h.list items) fun _ => h.pure _

theorem newMap_kept (h : impl.Keeps P) (entries : Entries Value) :
    P (Exec.code (Code.newMap entries)) :=
  h.code_bind (h.map entries) fun _ => h.pure _

mutual

/-- Making live data of authored data is making cells, so what making a cell keeps is kept. -/
theorem place_kept (h : impl.Keeps P) : ∀ v : Literal, P (Exec.code (Literal.place v))
  | .scalar s => by
      rw [Literal.place]
      exact h.pure _
  | .reference path => by
      rw [Literal.place]
      exact h.pure _
  | .tuple items => by
      rw [Literal.place]
      exact h.code_bind (placeAll_kept h items) fun _ => h.pure _
  | .list items => by
      rw [Literal.place]
      exact h.code_bind (placeAll_kept h items) fun _ => newList_kept h _
  | .map entries => by
      rw [Literal.place]
      exact h.code_bind (placeEntries_kept h entries) fun _ => newMap_kept h _

theorem placeAll_kept (h : impl.Keeps P) :
    ∀ vs : List Literal, P (Exec.code (Literal.placeAll vs))
  | [] => by
      rw [Literal.placeAll]
      exact h.pure _
  | v :: vs => by
      rw [Literal.placeAll]
      refine h.code_bind (place_kept h v) fun x => ?_
      exact h.code_bind (placeAll_kept h vs) fun _ => h.pure _

theorem placeEntries_kept (h : impl.Keeps P) :
    ∀ es : List (Key × Literal), P (Exec.code (Literal.placeEntries es))
  | [] => by
      rw [Literal.placeEntries]
      exact h.pure _
  | (k, v) :: es => by
      rw [Literal.placeEntries]
      refine h.code_bind (place_kept h v) fun x => ?_
      exact h.code_bind (placeEntries_kept h es) fun _ => h.pure _

end

/-! ### Comparing -/

/-- What decides the equality of a datum is code of the implementation. -/
theorem ownEquality?_kept (h : impl.Keeps P) {store : Store ω} {d : Datum}
    {decide : Datum → Code ω Bool} (hdecide : impl.ownEquality? store d = some decide)
    (other : Datum) : P (Exec.code (decide other)) := by
  unfold Implementation.ownEquality? at hdecide
  split at hdecide
  · obtain ⟨o, -, ho⟩ := Option.bind_eq_some_iff.mp hdecide
    exact h.own.equality? o decide ho other
  · cases hdecide

mutual

/-- Comparing data. -/
theorem equal_kept (h : impl.Keeps P) (a b : Datum) : P (Exec.code (impl.equal a b)) := by
  rw [Implementation.equal]
  refine h.code_store fun store => ?_
  split
  · next hdecide => exact ownEquality?_kept h hdecide b
  · split
    · next hdecide => exact ownEquality?_kept h hdecide a
    · exact equalPlain_kept h a b
termination_by (sizeOf a + sizeOf b, 3)

theorem equalPlain_kept (h : impl.Keeps P) (a b : Datum) :
    P (Exec.code (impl.equalPlain a b)) := by
  rw [Implementation.equalPlain.eq_def]
  split
  case h_6 => exact equalItems_kept h _ _
  case h_7 => exact h.code_ite (equalItems_kept h _ _) (h.pure _)
  case h_8 => exact h.code_ite (equalEntries_kept h _ _) (h.pure _)
  case h_9 => exact h.code_ite (equalEntries_kept h _ _) (h.pure _)
  case h_10 => exact h.code_ite (equalEntries_kept h _ _) (h.pure _)
  case h_11 => exact h.code_ite (equalEntries_kept h _ _) (h.pure _)
  all_goals exact h.pure _
termination_by (sizeOf a + sizeOf b, 2)

theorem equalItems_kept (h : impl.Keeps P) (xs ys : List Datum) :
    P (Exec.code (impl.equalItems xs ys)) := by
  rw [Implementation.equalItems.eq_def]
  split
  · exact h.pure _
  · refine h.code_bind (equalMember_kept h _ _) fun same => ?_
    exact h.code_ite (equalItems_kept h _ _) (h.pure _)
  · exact h.pure _
termination_by (sizeOf xs + sizeOf ys, 1)

theorem equalEntries_kept (h : impl.Keeps P) : ∀ xs ys : List (Key × Datum),
    P (Exec.code (impl.equalEntries xs ys))
  | [], ys => by
      rw [Implementation.equalEntries]
      exact h.pure _
  | (k, x) :: xs, ys => by
      rw [Implementation.equalEntries]
      split
      · exact h.pure _
      · next y hfound =>
          have hsize := Entries.sizeOf_find? hfound
          refine h.code_bind (equalMember_kept h y x) fun same => ?_
          exact h.code_ite (equalEntries_kept h xs ys) (h.pure _)
termination_by xs ys => (sizeOf xs + sizeOf ys, 1)

theorem equalMember_kept (h : impl.Keeps P) (a b : Datum) :
    P (Exec.code (impl.equalMember a b)) := by
  rw [Implementation.equalMember]
  exact h.code_ite (h.pure _) (equal_kept h a b)
termination_by (sizeOf a + sizeOf b, 4)

end

/-- A comparison is that of the canonical forms, with the faults that mean a
difference. -/
theorem code_compare (actual expected : Datum) :
    Exec.code (Run.compare impl actual expected) =
      if Run.isOpen expected then Pure.pure (!actual.isError)
      else do
        match ← Exec.attempt (Exec.code (Run.canonicallyEqual impl actual expected)) with
        | .error fault =>
          if Run.isIncomparable fault then return false else MonadExcept.throw fault
        | .ok same => return same := by
  funext w
  by_cases hopen : Run.isOpen expected = true
  · unfold Run.compare
    rw [if_pos hopen, if_pos hopen]
    rfl
  · change runFrom (Exec.code (Run.compare impl actual expected)) w = runFrom (ite _ _ _) w
    rw [runFrom_code, Run.runFrom_compare, if_neg hopen, if_neg hopen, runFrom_bind,
      runFrom_attempt, runFrom_code]
    rcases runFrom (Run.canonicallyEqual impl actual expected) w.store with ⟨fault | same, store⟩
    · dsimp only
      by_cases hcomparable : Run.isIncomparable fault = true
      · rw [if_pos hcomparable, if_pos hcomparable]
        rfl
      · rw [if_neg hcomparable, if_neg hcomparable]
        rfl
    · rfl

/-- A comparison asks the implementation's equalities and does nothing else. -/
theorem compare_kept (h : impl.Keeps P) (actual expected : Datum) :
    P (Exec.code (Run.compare impl actual expected)) := by
  have hequal : P (Exec.code (Run.canonicallyEqual impl actual expected)) := by
    unfold Run.canonicallyEqual
    refine h.code_bind (h.code_mk_pure _) fun a => ?_
    exact h.code_bind (h.code_mk_pure _) fun e => equal_kept h _ _
  rw [code_compare]
  refine h.ite (h.pure _) (h.bind (h.attempt hequal) fun result => ?_)
  split
  · exact h.ite (h.pure _) (h.throw _)
  · exact h.pure _

namespace Scope

/-! ## Resolving -/

mutual

/-- Resolving an authored value. -/
theorem resolve_kept (h : impl.Keeps P) (scope : ScopeId) :
    ∀ v : Literal, P (resolve impl scope v)
  | .scalar s => by
      rw [resolve]
      exact h.pure _
  | .reference path => by
      rw [resolve]
      exact get_kept h.looks scope path
  | .tuple items => by
      rw [resolve]
      exact h.bind (placeAll_kept h items) fun _ => h.pure _
  | .list items => by
      rw [resolve]
      exact h.bind (resolveAll_kept h scope items) fun _ => newList_kept h _
  | .map entries => by
      rw [resolve]
      exact h.bind (resolveEntries_kept h scope entries) fun _ => newMap_kept h _

theorem resolveAll_kept (h : impl.Keeps P) (scope : ScopeId) :
    ∀ vs : List Literal, P (resolveAll impl scope vs)
  | [] => by
      rw [resolveAll]
      exact h.pure _
  | v :: vs => by
      rw [resolveAll]
      refine h.bind (resolve_kept h scope v) fun x => ?_
      exact h.bind (resolveAll_kept h scope vs) fun _ => h.pure _

theorem resolveEntries_kept (h : impl.Keeps P) (scope : ScopeId) :
    ∀ es : List (Key × Literal), P (resolveEntries impl scope es)
  | [] => by
      rw [resolveEntries]
      exact h.pure _
  | (k, v) :: es => by
      rw [resolveEntries]
      refine h.bind (resolve_kept h scope v) fun x => ?_
      exact h.bind (resolveEntries_kept h scope es) fun _ => h.pure _

end

/-! ## Assigning -/

/-- Finding the target of an assignment. -/
theorem locateTarget_kept (h : impl.Keeps P) (scope : ScopeId) (path : String) :
    P (locateTarget impl scope path) := by
  unfold locateTarget
  refine h.bind (h.attempt (locate_kept h.looks scope path)) fun found => ?_
  split
  · exact h.pure _
  · exact h.ite (h.throw _) (h.throw _)

/-- Writing to a value does not set bindings. -/
theorem write_value_kept (h : impl.Keeps P) (v : Value) (name : String) (u : Value) :
    P (write impl (.value v) name u) := by
  unfold write
  split
  · next heq => cases heq
  · exact h.look (fun _ _ hstore _ => by simp only [hstore]) fun _ => h.putMap _ _
  · refine h.ite ?_ (h.throw _)
    unfold writeItem
    split
    · exact h.throw _
    · refine h.look (fun _ _ hstore _ => by simp only [hstore]) fun _ => ?_
      exact h.ite (h.throw _) (h.ite (h.throw _) (h.putList _ _))
  · exact h.writeAttribute _ _ _
  · exact h.ite (h.throw _) (h.mark _ _ _)
  · exact h.throw _

/-- An assignment keeps what setting bindings keeps. -/
theorem assign_kept (h : impl.Keeps P) (hset : ∀ scope b, P (Exec.setBindings scope b))
    (scope : ScopeId) (path : String) (v : Value) : P (assign impl scope path v) := by
  have hwrite : ∀ owner name, P (write impl owner name v) := by
    intro owner name
    cases owner with
    | value u => exact write_value_kept h u name v
    | scope id => exact h.bind (h.bindings id) fun b => hset id _
  unfold assign
  refine h.bind (locateTarget_kept h scope path) ?_
  intro found
  obtain ⟨owner, name⟩ := found
  refine h.bind (isBoundConstant_kept h.looks owner name) fun bound => ?_
  refine h.guard ?_
  refine h.bind (h.attempt (hwrite owner name)) fun written => ?_
  split
  · exact h.ite (h.throw _) (h.throw _)
  · exact h.bind (h.datumNow v) fun _ => h.log _ _ _

/-! ## Calling -/

section Call

/-- An outcome is awaited by the implementation, or is no awaitable and stays. -/
theorem awaited_kept (h : impl.Keeps P) (v : Value) : P (awaited impl v) := by
  unfold awaited
  split
  · refine h.look (fun _ _ hstore _ => by simp only [hstore]) fun w => ?_
    split
    · split
      · next hpending => exact h.own.await? _ _ hpending
      · exact h.pure _
    · exact h.pure _
  · exact h.pure _

/-- A hook keeps what its code and its assignments keep. -/
theorem runScript_kept (h : impl.Keeps P) {scope : ScopeId}
    (hassign : ∀ path v, P (assign impl scope path v)) (script : Script ω)
    (hscript : script.AllCode fun c => P (Exec.code c)) : P (runScript impl scope script) := by
  induction script with
  | done result => exact h.mk_pure _
  | get path next ih =>
      exact h.bind (h.attempt (get_kept h.looks scope path)) fun found => ih found (hscript found)
  | assign path v next ih =>
      exact h.bind (h.attempt (hassign path v)) fun bound => ih bound (hscript bound)
  | names next ih =>
      refine h.bind ?_ fun all => ih all (hscript all)
      exact h.bind (h.bindings scope) fun _ => h.pure _
  | code step next ih =>
      obtain ⟨hstep, hnext⟩ := hscript
      exact h.bind (h.attempt hstep) fun result => ih result (hnext result)

/-- A method of a text or list. -/
theorem callBuiltIn_kept (h : impl.Keeps P) (owner : Value) (name : String) (args : List Value) :
    P (Exec.code (callBuiltIn owner name args)) := by
  unfold callBuiltIn
  split
  · split
    · exact h.pure _
    · exact h.throw _
  · exact h.throw _
  · exact h.code_store fun store => h.code_bind (h.putList _ _) fun _ => h.pure _
  · exact h.throw _
  · exact h.throw _

/-- A call keeps what assignments keep. -/
theorem call_kept (h : impl.Keeps P) (hassign : ∀ scope path v, P (assign impl scope path v))
    (v : Value) (args : List Value) : P (call impl v args) := by
  unfold call
  refine h.look (fun _ _ hstore _ => by simp only [hstore]) fun w => ?_
  split
  · split
    · exact h.own.call _ _ _
    · exact runScript_kept h (hassign _) _ (h.own.script _ _)
    · exact h.throw _
  · split
    · exact h.own.invoke _ _ _ _
    · exact h.throw _
  · exact callBuiltIn_kept h _ _ _
  · exact h.throw _

end Call

end Scope

/-! ## Features -/

namespace Run

/-- The datum of an expectation is only looked at. -/
theorem expectationDatum_kept (h : impl.Keeps P) (expectation : Expectation) :
    P (expectationDatum impl expectation) := by
  cases expectation with
  | resolved v => exact h.datumNow v
  | unresolved v => exact h.pure _

/-- The detail of a failure is only looked at. -/
theorem failureDetail_kept (h : impl.Keeps P) (outcome : Outcome) : P (failureDetail impl outcome) := by
  unfold failureDetail
  split
  · exact h.pure _
  · refine h.bind (h.datumNow _) fun actual => ?_
    refine h.bind (expectationDatum_kept h _) fun expected => ?_
    refine h.bind (h.mk_pure _) fun _ => ?_
    exact h.bind (h.mk_pure _) fun _ => h.pure _

/-- Reading an operand is looking it up. -/
theorem readOperand_kept (h : impl.Keeps P) (scope : ScopeId) (property : String) :
    P (readOperand impl scope property) := by
  unfold readOperand
  refine h.bind (Scope.lookup_kept h.looks scope property) fun operand => ?_
  exact h.guard (h.pure _)

/-- Judging an outcome. -/
theorem judge_kept (h : impl.Keeps P) (f : Feature) (outcome : Outcome) : P (judge impl f outcome) := by
  unfold judge
  refine h.bind (h.datumNow _) fun actual => ?_
  refine h.bind (expectationDatum_kept h _) fun expected => ?_
  refine h.bind (compare_kept h _ _) fun same => ?_
  refine h.ite ?_ ?_
  · exact h.bind (h.log _ _ _) fun _ => h.pure _
  · refine h.bind (failureDetail_kept h _) fun detail => ?_
    exact h.bind (h.log _ _ _) fun _ => h.pure _

/-- Keyword arguments are gathered in a new mapping, if there are any. -/
theorem keywordArgument_kept (h : impl.Keeps P) (kwargs : List (Key × Value)) :
    P (Exec.code (keywordArgument kwargs)) := by
  unfold keywordArgument
  exact h.code_ite (h.pure _) (h.code_bind (newMap_kept h _) fun _ => h.pure _)

/-- Preparing a call. -/
theorem prepareCall_kept (h : impl.Keeps P) (scope : ScopeId) (property : String)
    (args : List Literal) (kwargs : List (String × Literal)) :
    P (prepareCall impl scope property args kwargs) := by
  unfold prepareCall
  refine h.bind (Scope.lookup_kept h.looks scope property) fun operand => ?_
  refine h.guard ?_
  refine h.bind (Scope.resolveAll_kept h scope _) fun args => ?_
  refine h.bind (Scope.resolveEntries_kept h scope _) fun kwargs => ?_
  refine h.bind (keywordArgument_kept h _) fun last => ?_
  refine h.guard ?_
  exact h.bind (h.log _ _ _) fun _ => h.pure _

section Feature

section Calls

variable (h : impl.Keeps P) (hcall : ∀ v args, P (Scope.call impl v args))
include h hcall

/-- A call is prepared, made and awaited. -/
theorem callOperand_kept (scope : ScopeId) (property : String) (args : List Literal)
    (kwargs : List (String × Literal)) : P (callOperand impl scope property args kwargs) := by
  unfold callOperand
  refine h.bind (prepareCall_kept h scope property args kwargs) ?_
  intro prepared
  obtain ⟨callee, all⟩ := prepared
  refine h.bind (hcall _ _) fun v => ?_
  exact Scope.awaited_kept h v

/-- What a feature does, for each of its kinds. -/
theorem operate_kept (scope : ScopeId) (action : Action) (expected : Value) :
    P (operate impl scope action expected) := by
  cases action with
  | comment text => exact h.pure _
  | bind target value => exact h.pure _
  | read assign property value => exact readOperand_kept h scope property
  | call assign property args kwargs value =>
      exact callOperand_kept h hcall scope property args kwargs

/-- Executing a feature keeps what calls keep. -/
theorem execute_kept (scope : ScopeId) (f : Feature) : P (execute impl scope f) := by
  unfold execute
  refine h.bind (h.attempt (Scope.resolve_kept h scope _)) fun resolved => ?_
  split
  · exact h.pure _
  · refine h.bind (h.attempt (operate_kept h hcall scope _ _)) fun result => ?_
    split
    · exact h.pure _
    · exact h.pure _

end Calls

variable (h : impl.Keeps P) (hassign : ∀ scope path v, P (Scope.assign impl scope path v))
include h hassign

/-- Binding an outcome is an assignment, if the feature has a target. -/
theorem bindOutcome_kept (scope : ScopeId) (f : Feature) (v : Value) :
    P (bindOutcome impl scope f v) := by
  unfold bindOutcome
  split
  · exact h.pure _
  · exact hassign scope _ v

/-- **A feature keeps what assignments keep.** -/
theorem runFeature_kept (scope : ScopeId) (f : Feature) : P (runFeature impl scope f) := by
  unfold runFeature
  refine h.ite (h.pure _) (h.ite ?_ ?_)
  · exact h.bind (h.log _ _ _) fun _ => h.pure _
  · refine h.bind (execute_kept h (Scope.call_kept h hassign) scope f) fun outcome => ?_
    refine h.bind (bindOutcome_kept h hassign scope f _) fun _ => ?_
    exact judge_kept h f outcome

end Feature

/-! ## The initial scope -/

/-- The members of a package are read by the implementation, one by one. -/
theorem readMembers_kept (h : impl.Keeps P) (location : Loc) (o : ω) (names : List String) :
    P (Exec.code (readMembers impl location o names)) := by
  induction names with
  | nil => exact h.pure _
  | cons name names ih =>
      unfold readMembers
      exact h.code_bind (h.own.read _ _ _) fun v => h.code_bind ih fun _ => h.pure _

/-- The entries of a mapping are members as they stand; an object's are read. -/
theorem publicMembers_kept (h : impl.Keeps P) (package : Value) :
    P (Exec.code (publicMembers impl package)) := by
  unfold publicMembers
  refine h.code_store fun store => ?_
  split
  · exact h.pure _
  · split
    · exact h.code_bind (readMembers_kept h _ _ _) fun _ => h.pure _
    · exact h.pure _
  · exact h.pure _

/-- Loading a package and reading its members. -/
theorem loadMembers_kept (h : impl.Keeps P) (package : String) : P (loadMembers impl package) := by
  unfold loadMembers
  have hload : P (Exec.code (do publicMembers impl (← impl.load package))) :=
    h.code_bind (h.own.load package) fun v => publicMembers_kept h v
  refine h.bind (h.attempt hload) fun members => ?_
  split
  · exact h.pure _
  · exact h.throw _

/-- Installing hooks is making a cell for each and setting the bindings of the scope. -/
theorem installHooks_kept (h : Composes P) (hset : ∀ scope b, P (Exec.setBindings scope b))
    (scope : ScopeId) (hooks : List (String × ω)) : P (Scope.installHooks scope hooks) := by
  induction hooks with
  | nil => exact h.pure _
  | cons hook rest ih =>
      obtain ⟨name, function⟩ := hook
      have hinstall : P (Scope.installHook scope name function) :=
        h.bind (h.code _) fun location => h.bind (h.bindings scope) fun b => hset scope _
      exact h.bind hinstall fun _ => ih

/-- Building the scope of a specification keeps what making scopes and setting
bindings keep. -/
theorem buildScope_kept (h : Composes P) (hnew : ∀ b, P (Exec.newScope b))
    (hset : ∀ scope b, P (Exec.setBindings scope b)) (spec : Specification ω) :
    P (buildScope impl spec) := by
  unfold buildScope
  refine h.bind (loadMembers_kept h.keeps _) fun members => ?_
  refine h.bind (hnew _) fun scope => ?_
  exact h.bind (installHooks_kept h hset scope _) fun _ => h.pure _

/-- Ending a specification by a fault. -/
theorem abort_kept (h : Composes P) (result : SpecificationResult) (fault : Fault) :
    P (abort result fault) := by
  unfold abort
  exact h.ite (h.bind (h.log _ _ _) fun _ => h.pure _) (h.throw _)

end Run

/-! ## Relations between worlds -/

/-- A preorder of worlds that ignores the log is kept by putting steps together. -/
theorem Combines.moves {R : World ω → World ω → Prop} [Std.Refl R] [IsTrans (World ω) R]
    (hlog : ∀ (w : World ω) log, R w { w with log }) : Combines (fun step => Moves R step) where
  pure := Moves.pure
  throw := Moves.throw
  bind := Moves.bind
  attempt := fun h => h
  bindings := fun _ w => Std.Refl.refl w
  look := fun _ hnext w => hnext w w
  log := fun _ _ _ w => hlog w _

/-- **A preorder of worlds that ignores the store and the log composes.** -/
theorem Composes.moves {R : World ω → World ω → Prop} [Std.Refl R] [IsTrans (World ω) R]
    (hstore : ∀ (w : World ω) store, R w { w with store })
    (hlog : ∀ (w : World ω) log, R w { w with log }) :
    Composes (fun step => Moves R step) where
  toCombines := Combines.moves hlog
  code := Moves.code hstore

/-- Executing a feature keeps such a preorder if assignments do. -/
theorem Run.execute_moves {R : World ω → World ω → Prop} [Std.Refl R] [IsTrans (World ω) R]
    (hstore : ∀ (w : World ω) store, R w { w with store })
    (hlog : ∀ (w : World ω) log, R w { w with log })
    (hassign : ∀ scope path v, Moves R (Scope.assign impl scope path v)) (scope : ScopeId)
    (f : Feature) : Moves R (execute impl scope f) :=
  have h : impl.Keeps fun step => Moves R step := (Composes.moves hstore hlog).keeps
  execute_kept h (Scope.call_kept h hassign) scope f

/-- The scopes and their bindings are the same. -/
def SameScopes (w w' : World ω) : Prop := w'.scopes = w.scopes

namespace SameScopes

instance : Std.Refl (SameScopes (ω := ω)) := ⟨fun _ => rfl⟩

instance : IsTrans (World ω) SameScopes := ⟨fun _ _ _ h h' => h'.trans h⟩

theorem store (w : World ω) (store : Store ω) : SameScopes w { w with store } := rfl

theorem log (w : World ω) (log : Array Record) : SameScopes w { w with log } := rfl

/-- Leaving the scopes alone composes. -/
theorem composes : Composes (fun step : Exec ω _ => Moves SameScopes step) :=
  Composes.moves store log

/-- The same scopes bind the same. -/
theorem bindings_eq {w w' : World ω} (h : SameScopes w w') (scope : ScopeId) :
    w'.bindings scope = w.bindings scope := by
  unfold World.bindings
  rw [h]

end SameScopes

/-- Resolving a value leaves the bindings alone. -/
theorem Scope.bindings_of_resolve {impl : Implementation ω} {scope : ScopeId} {v : Literal}
    {w w₁ : World ω} {result : Except Fault Value}
    (h : runFrom (Scope.resolve impl scope v) w = (result, w₁)) (other : ScopeId) :
    w₁.bindings other = w.bindings other := by
  have hmoves : SameScopes w (runFrom (Scope.resolve impl scope v) w).2 :=
    Scope.resolve_kept SameScopes.composes.keeps scope v w
  rw [h] at hmoves
  exact hmoves.bindings_eq other

end Conformance
