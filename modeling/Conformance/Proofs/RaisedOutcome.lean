import Conformance.Proofs.Verdict

/-!
# Features that fail to execute

The implementation may raise at many places while a feature executes: as its
expected value is resolved, on the way along its path, in one of its arguments,
in the call, or while the result is awaited.  `Raises` lists them in the order
of execution, each with the stages before it, and `execute_fault_iff` states
that the list is complete: an outcome carries a fault exactly if one of them
raised it.

Such an outcome is the failure marker, and a marker equals a text of its name
and nothing else, as long as no object says that it equals a text.  So what
raised passes only where the failure is what is expected: `raised_verdict`.
-/

namespace Conformance

/-- No object of the implementation says that it equals a text. -/
def Implementation.RefusesTexts {ω : Type} (impl : Implementation ω) : Prop :=
  ∀ o decide, impl.equality? o = some decide →
    ∀ text store, (runFrom (decide (.str text)) store).1 ≠ .ok true

namespace Run

variable {ω : Type} (impl : Implementation ω) (scope : ScopeId)

/-! ## Where an execution raises -/

/-- Looking up the operand at a path raises. -/
inductive LookupRaises (property : String) (w : World ω) : Fault → Prop
  /-- The path cannot be walked. -/
  | walk {fault : Fault} (h : (runFrom (Scope.lookup impl scope property) w).1 = .error fault) :
      LookupRaises property w fault
  /-- Nothing is bound at its end. -/
  | unbound {operand : Operand} {w₁ : World ω}
      (hlookup : runFrom (Scope.lookup impl scope property) w = (.ok operand, w₁))
      (hmissing : operand.kind = .missing) :
      LookupRaises property w (.unbound property)

/-- Preparing a call raises. -/
inductive PreparationRaises (property : String) (args : List Literal)
    (kwargs : List (String × Literal)) (w : World ω) : Fault → Prop
  | lookup {fault : Fault} (h : LookupRaises impl scope property w fault) :
      PreparationRaises property args kwargs w fault
  /-- An argument cannot be resolved. -/
  | argument {operand : Operand} {w₁ : World ω} {fault : Fault}
      (hlookup : runFrom (Scope.lookup impl scope property) w = (.ok operand, w₁))
      (hbound : operand.kind ≠ .missing)
      (h : (runFrom (Scope.resolveAll impl scope args) w₁).1 = .error fault) :
      PreparationRaises property args kwargs w fault
  /-- A keyword argument cannot be resolved. -/
  | keyword {operand : Operand} {values : List Value} {w₁ w₂ : World ω} {fault : Fault}
      (hlookup : runFrom (Scope.lookup impl scope property) w = (.ok operand, w₁))
      (hbound : operand.kind ≠ .missing)
      (hargs : runFrom (Scope.resolveAll impl scope args) w₁ = (.ok values, w₂))
      (h : (runFrom (Scope.resolveEntries impl scope
        (kwargs.map fun kw => (Key.str kw.1, kw.2))) w₂).1 = .error fault) :
      PreparationRaises property args kwargs w fault
  /-- The operand cannot be called. -/
  | notCallable {operand : Operand} {values : List Value} {entries : List (Key × Value)}
      {w₁ w₂ w₃ : World ω}
      (hlookup : runFrom (Scope.lookup impl scope property) w = (.ok operand, w₁))
      (hargs : runFrom (Scope.resolveAll impl scope args) w₁ = (.ok values, w₂))
      (hkwargs : runFrom (Scope.resolveEntries impl scope
        (kwargs.map fun kw => (Key.str kw.1, kw.2))) w₂ = (.ok entries, w₃))
      (hvalue : operand.kind = .value) :
      PreparationRaises property args kwargs w (.notCallable property)

/-- Performing an action raises. -/
inductive OperationRaises : Action → World ω → Fault → Prop
  | read {assign : Option String} {property : String} {expected : Literal} {w : World ω}
      {fault : Fault} (h : LookupRaises impl scope property w fault) :
      OperationRaises (.read assign property expected) w fault
  | prepare {assign : Option String} {property : String} {args : List Literal}
      {kwargs : List (String × Literal)} {expected : Literal} {w : World ω} {fault : Fault}
      (h : PreparationRaises impl scope property args kwargs w fault) :
      OperationRaises (.call assign property args kwargs expected) w fault
  /-- The call itself raises. -/
  | call {assign : Option String} {property : String} {args : List Literal}
      {kwargs : List (String × Literal)} {expected : Literal} {w w₁ : World ω} {callee : Value}
      {values : List Value} {fault : Fault}
      (hprepared : runFrom (prepareCall impl scope property args kwargs) w =
        (.ok (callee, values), w₁))
      (h : (runFrom (Scope.call impl callee values) w₁).1 = .error fault) :
      OperationRaises (.call assign property args kwargs expected) w fault
  /-- Awaiting the result of the call raises. -/
  | await {assign : Option String} {property : String} {args : List Literal}
      {kwargs : List (String × Literal)} {expected : Literal} {w w₁ w₂ : World ω} {callee v : Value}
      {values : List Value} {fault : Fault}
      (hprepared : runFrom (prepareCall impl scope property args kwargs) w =
        (.ok (callee, values), w₁))
      (hcalled : runFrom (Scope.call impl callee values) w₁ = (.ok v, w₂))
      (h : (runFrom (Scope.awaited impl v) w₂).1 = .error fault) :
      OperationRaises (.call assign property args kwargs expected) w fault

/-- Executing a feature raises. -/
inductive Raises (f : Feature) (w : World ω) : Fault → Prop
  /-- The expected value cannot be resolved. -/
  | expected {fault : Fault} (h : (runFrom (Scope.resolve impl scope f.expected) w).1 = .error fault) :
      Raises f w fault
  | operation {e : Value} {w₁ : World ω} {fault : Fault}
      (hexpected : runFrom (Scope.resolve impl scope f.expected) w = (.ok e, w₁))
      (h : OperationRaises impl scope f.action w₁ fault) :
      Raises f w fault

/-! ## The list is complete -/

section Complete

variable {impl scope} {w : World ω} {fault : Fault}

/-- What goes on with the operand at a path raises if looking the operand up does, or
what follows. -/
theorem operand_fault_iff {α : Type} {property : String} {rest : Operand → Unit → Exec ω α} :
    (runFrom (Scope.lookup impl scope property >>= fun operand =>
      if operand.kind = .missing then throw (.unbound property) >>= rest operand
      else rest operand ()) w).1 = .error fault ↔
      LookupRaises impl scope property w fault ∨
        ∃ operand w₁, runFrom (Scope.lookup impl scope property) w = (.ok operand, w₁) ∧
          operand.kind ≠ .missing ∧ (runFrom (rest operand ()) w₁).1 = .error fault := by
  constructor
  · intro h
    rcases bind_fault_iff.mp h with h | ⟨operand, w₁, hlookup, h⟩
    · exact Or.inl (.walk h)
    · rcases guard_fault_iff.mp h with ⟨hmissing, rfl⟩ | ⟨hbound, h⟩
      · exact Or.inl (.unbound hlookup hmissing)
      · exact Or.inr ⟨operand, w₁, hlookup, hbound, h⟩
  · intro h
    refine bind_fault_iff.mpr ?_
    rcases h with h | ⟨operand, w₁, hlookup, hbound, h⟩
    · cases h with
      | walk h => exact Or.inl h
      | unbound hlookup hmissing =>
          exact Or.inr ⟨_, _, hlookup, guard_fault_iff.mpr (Or.inl ⟨hmissing, rfl⟩)⟩
    · exact Or.inr ⟨operand, w₁, hlookup, guard_fault_iff.mpr (Or.inr ⟨hbound, h⟩)⟩

theorem readOperand_fault_iff {property : String} :
    (runFrom (readOperand impl scope property) w).1 = .error fault ↔
      LookupRaises impl scope property w fault := by
  unfold readOperand
  refine operand_fault_iff.trans ⟨fun h => ?_, Or.inl⟩
  rcases h with h | ⟨operand, w₁, -, -, h⟩
  · exact h
  · cases h

/-- Keyword arguments always become a mapping. -/
theorem keywordArgument_ok (entries : List (Key × Value)) (w : World ω) :
    ∃ last w₁, runFrom (Exec.code (keywordArgument entries)) w = (.ok last, w₁) := by
  unfold keywordArgument
  split
  · exact ⟨_, _, rfl⟩
  · exact ⟨_, _, rfl⟩

theorem prepareCall_fault_iff {property : String} {args : List Literal}
    {kwargs : List (String × Literal)} :
    (runFrom (prepareCall impl scope property args kwargs) w).1 = .error fault ↔
      PreparationRaises impl scope property args kwargs w fault := by
  unfold prepareCall
  constructor
  · intro h
    rcases operand_fault_iff.mp h with h | ⟨operand, w₁, hlookup, hbound, h⟩
    · exact .lookup h
    rcases bind_fault_iff.mp h with h | ⟨values, w₂, hargs, h⟩
    · exact .argument hlookup hbound h
    rcases bind_fault_iff.mp h with h | ⟨entries, w₃, hkwargs, h⟩
    · exact .keyword hlookup hbound hargs h
    rcases bind_fault_iff.mp h with h | ⟨last, w₄, hlast, h⟩
    · obtain ⟨last, w₄, hlast⟩ := keywordArgument_ok entries w₃
      rw [hlast] at h
      cases h
    rcases guard_fault_iff.mp h with ⟨hvalue, rfl⟩ | ⟨-, h⟩
    · exact .notCallable hlookup hargs hkwargs hvalue
    · cases h
  · intro h
    refine operand_fault_iff.mpr ?_
    cases h with
    | lookup h => exact Or.inl h
    | argument hlookup hbound h =>
        exact Or.inr ⟨_, _, hlookup, hbound, bind_fault_iff.mpr (Or.inl h)⟩
    | keyword hlookup hbound hargs h =>
        refine Or.inr ⟨_, _, hlookup, hbound, ?_⟩
        refine bind_fault_iff.mpr (Or.inr ⟨_, _, hargs, ?_⟩)
        exact bind_fault_iff.mpr (Or.inl h)
    | @notCallable operand values entries w₁ w₂ w₃ hlookup hargs hkwargs hvalue =>
        obtain ⟨last, w₄, hlast⟩ := keywordArgument_ok entries w₃
        have hbound : operand.kind ≠ .missing := by rw [hvalue]; decide
        refine Or.inr ⟨_, _, hlookup, hbound, ?_⟩
        refine bind_fault_iff.mpr (Or.inr ⟨_, _, hargs, ?_⟩)
        refine bind_fault_iff.mpr (Or.inr ⟨_, _, hkwargs, ?_⟩)
        refine bind_fault_iff.mpr (Or.inr ⟨_, _, hlast, ?_⟩)
        exact guard_fault_iff.mpr (Or.inl ⟨hvalue, rfl⟩)

theorem operate_fault_iff {action : Action} {e : Value} :
    (runFrom (operate impl scope action e) w).1 = .error fault ↔
      OperationRaises impl scope action w fault := by
  cases action with
  | comment text => exact ⟨fun h => (nomatch h), fun h => (nomatch h)⟩
  | bind target value => exact ⟨fun h => (nomatch h), fun h => (nomatch h)⟩
  | read assign property expected =>
      refine readOperand_fault_iff.trans ⟨.read, fun h => ?_⟩
      cases h with
      | read h => exact h
  | call assign property args kwargs expected =>
      unfold operate callOperand
      constructor
      · intro h
        rcases bind_fault_iff.mp h with h | ⟨⟨callee, values⟩, w₁, hprepared, h⟩
        · exact .prepare (prepareCall_fault_iff.mp h)
        rcases bind_fault_iff.mp h with h | ⟨v, w₂, hcalled, h⟩
        · exact .call hprepared h
        · exact .await hprepared hcalled h
      · intro h
        refine bind_fault_iff.mpr ?_
        cases h with
        | prepare h => exact Or.inl (prepareCall_fault_iff.mpr h)
        | call hprepared h => exact Or.inr ⟨_, _, hprepared, bind_fault_iff.mpr (Or.inl h)⟩
        | await hprepared hcalled h =>
            exact Or.inr ⟨_, _, hprepared, bind_fault_iff.mpr (Or.inr ⟨_, _, hcalled, h⟩)⟩

/-- **The outcome carries a fault exactly if executing the feature raised it**, and
then the outcome is the failure marker. -/
theorem execute_fault_iff {f : Feature} {outcome : Outcome} {w₁ : World ω}
    (h : runFrom (execute impl scope f) w = (.ok outcome, w₁)) :
    outcome.fault = some fault ↔ Raises impl scope f w fault := by
  constructor
  · intro hfault
    cases executed_of_execute h with
    | unresolved hexpected =>
        cases hfault
        exact .expected (congrArg Prod.fst hexpected)
    | raised hexpected hoperated =>
        cases hfault
        exact .operation hexpected (operate_fault_iff.mp (congrArg Prod.fst hoperated))
    | done _ _ => cases hfault
  · intro hraises
    cases hraises with
    | expected hfault =>
        rw [execute_unresolved (eq_of_fst hfault)] at h
        cases h
        rfl
    | operation hexpected hfault =>
        rw [execute_resolved hexpected, eq_of_fst (operate_fault_iff.mpr hfault)] at h
        cases h
        rfl

end Complete

/-! ## What the failure marker equals -/

end Run

namespace Scalar

theorem isError_iff {s : Scalar} : s.isError = true ↔ s = .str "ERROR" ∨ s = .sentinel .error := by
  unfold isError
  cases s with
  | sentinel marker => cases marker <;> simp [text?, Sentinel.name]
  | _ => simp [text?, Sentinel.name]

/-- ISO texts have a mark in them that the name of the marker has not. -/
theorem iso_ne {text : List Char} {c : Char} (hc : c ∈ text) (hother : c ∉ "ERROR".toList) :
    (Scalar.str "ERROR").equal (.str (String.ofList text)) = false := by
  have hne : "ERROR" ≠ String.ofList text := by
    intro heq
    rw [heq, String.toList_ofList] at hother
    exact hother hc
  simpa [equal] using hne

/-- Only the failure marker and a text of its name have that text as canonical
form. -/
theorem isError_of_canonical {s c : Scalar} (h : s.canonical = .ok c)
    (hequal : (Scalar.str "ERROR").equal c = true) : s.isError = true := by
  have hdate : ∀ d : Date, '-' ∈ d.iso := fun d => by simp [Date.iso]
  have hinstant : ∀ t : DateTime, '-' ∈ t.iso := fun t => by
    simp [DateTime.iso, DateTime.isoWith, hdate]
  have hiso : ∀ {text : List Char} {mark : Char}, mark ∈ text → mark ∉ "ERROR".toList →
      c = .str (String.ofList text) → False := by
    intro text mark hmark hother heq
    rw [heq, iso_ne hmark hother] at hequal
    cases hequal
  cases s with
  | str text =>
      cases h
      exact isError_iff.mpr (Or.inl (congrArg Scalar.str (eq_of_beq hequal).symm))
  | sentinel marker =>
      cases h
      cases marker with
      | error => rfl
      | any => cases hequal
  | date d =>
      cases h
      exact (hiso (hdate d) (by decide) rfl).elim
  | time t =>
      cases h
      have hmark : ':' ∈ t.iso := by simp [Time.iso, Clock.iso]
      exact (hiso hmark (by decide) rfl).elim
  | datetime t =>
      unfold canonical at h
      dsimp only at h
      split at h
      · cases h
        exact (hiso (hinstant t) (by decide) rfl).elim
      · split at h
        · next u _ =>
            cases h
            exact (hiso (hinstant u) (by decide) rfl).elim
        · cases h
  | _ =>
      cases h
      cases hequal

end Scalar

namespace Datum

/-- Only scalars have scalars as canonical form. -/
theorem scalar_of_canonical {d : Datum} {c : Scalar} (h : d.canonical = .ok (.scalar c)) :
    ∃ s, d = .scalar s ∧ s.canonical = .ok c := by
  cases d with
  | scalar s =>
      obtain ⟨c', hc', heq⟩ := ok_of_map_ok h
      cases heq
      exact ⟨s, rfl, hc'⟩
  | tuple items | list items | map entries =>
      obtain ⟨_, -, heq⟩ := ok_of_map_ok h
      cases heq
  | _ => cases h

theorem scalar_of_strict {d : Datum} {s : Scalar} (h : d.strict = .scalar s) : d = .scalar s := by
  cases d with
  | scalar t =>
      cases t with
      | bool b => cases h
      | _ => exact h
  | _ => cases h

end Datum

namespace Run

variable {ω : Type} {impl : Implementation ω}

/-- Where no object says that it equals a text, only texts equal a text. -/
theorem equal_str {text : String} {d : Datum} {store : Store ω} (hrefuses : impl.RefusesTexts)
    (h : (runFrom (impl.equal (.str text) d) store).1 = .ok true) :
    ∃ s, d = .scalar s ∧ (Scalar.str text).equal s = true := by
  have hstore : runFrom (Code.store : Code ω (Store ω)) store = (.ok store, store) := rfl
  have htext : impl.ownEquality? store (.str text) = none := rfl
  rw [Implementation.equal, runFrom_bind_of_ok hstore, htext] at h
  dsimp only at h
  cases hown : impl.ownEquality? store d with
  | some decide =>
      rw [hown] at h
      cases d with
      | object location shown =>
          obtain ⟨o, -, ho⟩ := Option.bind_eq_some_iff.mp hown
          exact absurd h (hrefuses o decide ho text store)
      | _ => cases hown
  | none =>
      rw [hown] at h
      dsimp only at h
      rw [Datum.str, Implementation.equalPlain.eq_def] at h
      cases d with
      | scalar s => exact ⟨s, rfl, Except.ok.inj h⟩
      | _ => cases h

/-- Data that are equal in canonical form have such forms. -/
theorem canonicallyEqual_ok {a b : Datum} {same : Bool} {store : Store ω}
    (h : (runFrom (canonicallyEqual impl a b) store).1 = .ok same) :
    ∃ c c', a.canonical = .ok c ∧ b.canonical = .ok c' ∧
      (runFrom (impl.equal c.strict c'.strict) store).1 = .ok same := by
  unfold canonicallyEqual at h
  cases ha : a.canonical with
  | error fault =>
      rw [ha] at h
      cases h
  | ok c =>
      cases hb : b.canonical with
      | error fault =>
          rw [ha, hb] at h
          cases h
      | ok c' =>
          rw [ha, hb] at h
          exact ⟨c, c', rfl, rfl, h⟩

/-- **The failure marker meets a text of its name and nothing else.** -/
theorem compare_marker_iff (hrefuses : impl.RefusesTexts) {d : Datum} {store : Store ω} :
    (runFrom (compare impl (.scalar (.sentinel .error)) d) store).1 = .ok true ↔
      d.isError = true := by
  constructor
  · intro h
    rw [runFrom_compare] at h
    split at h
    · cases h
    · have hequal : (runFrom (canonicallyEqual impl (.scalar (.sentinel .error)) d) store).1 =
          .ok true := by
        rcases hrun : runFrom (canonicallyEqual impl (.scalar (.sentinel .error)) d) store with
          ⟨fault | same, s⟩
        · rw [hrun] at h
          dsimp only at h
          split at h <;> cases h
        · rw [hrun] at h
          exact h
      obtain ⟨c, c', hc, hc', hequal⟩ := canonicallyEqual_ok hequal
      cases hc
      obtain ⟨y, hstrict, hsame⟩ := equal_str hrefuses hequal
      rw [Datum.scalar_of_strict hstrict] at hc'
      obtain ⟨s, rfl, hs⟩ := Datum.scalar_of_canonical hc'
      exact Scalar.isError_of_canonical hs hsame
  · intro h
    cases d with
    | scalar s =>
        rcases Scalar.isError_iff.mp h with rfl | rfl
        · rw [compare_scalars (hasForm_sentinel .error) (hasForm_str "ERROR") rfl]
          rfl
        · rw [compare_scalars (hasForm_sentinel .error) (hasForm_sentinel .error) rfl]
          rfl
    | _ => cases h

/-! ## The verdict -/

variable (impl) in
/-- The expected value resolves to a text equal to the name of the failure
marker. -/
def ExpectsError (scope : ScopeId) (f : Feature) (w : World ω) : Prop :=
  ∃ s w₁, runFrom (Scope.resolve impl scope f.expected) w = (.ok (.scalar s), w₁) ∧
    s.isError = true

/-- What could not be resolved is no scalar. -/
theorem isError_of_unresolved {scope : ScopeId} {v : Literal} {w : World ω} {fault : Fault}
    (h : (runFrom (Scope.resolve impl scope v) w).1 = .error fault) : v.datum.isError = false := by
  cases v with
  | scalar s => cases h
  | _ => rfl

/-- An outcome that carries a fault meets its expectation exactly if the failure
is expected. -/
theorem meets_of_fault (hrefuses : impl.RefusesTexts) {scope : ScopeId} {f : Feature}
    {w w₁ w₂ : World ω} {outcome : Outcome} {fault : Fault}
    (h : runFrom (execute impl scope f) w = (.ok outcome, w₁)) (hfault : outcome.fault = some fault) :
    outcome.value = .error ∧ (Meets impl outcome w₂ ↔ ExpectsError impl scope f w) := by
  cases executed_of_execute h with
  | unresolved hexpected =>
      refine ⟨rfl, (compare_marker_iff hrefuses).trans (iff_of_false ?_ ?_)⟩
      · change ¬ f.expected.datum.isError = true
        rw [isError_of_unresolved (congrArg Prod.fst hexpected)]
        exact Bool.false_ne_true
      · rintro ⟨s, w₃, hs, -⟩
        rw [hexpected] at hs
        cases hs
  | @raised e _ _ _ hexpected _ =>
      refine ⟨rfl, (compare_marker_iff hrefuses).trans ?_⟩
      change (impl.datum w₂.names w₂.store e).isError = true ↔ _
      rw [isError_datum]
      unfold ExpectsError
      rw [hexpected]
      cases e with
      | scalar s => simp [Value.isError]
      | _ => simp [Value.isError]
  | done _ _ => cases hfault

/-- The detail of a failure that was raised names it, and the detail of any other
one says what was compared. -/
theorem failureDetail_form {outcome : Outcome} {detail : String} {w w₁ : World ω}
    (h : runFrom (failureDetail impl outcome) w = (.ok detail, w₁)) :
    match outcome.fault with
    | some fault => detail = "Exception: " ++ (fault.kind ++ ": " ++ fault.message)
    | none => ∃ text, detail = "Assertion: " ++ text := by
  unfold failureDetail at h
  cases hfault : outcome.fault with
  | some fault =>
      rw [hfault] at h
      cases h
      rfl
  | none =>
      rw [hfault] at h
      obtain ⟨_, _, -, h⟩ := bind_eq_ok_iff.mp h
      obtain ⟨_, _, -, h⟩ := bind_eq_ok_iff.mp h
      obtain ⟨actual, _, -, h⟩ := bind_eq_ok_iff.mp h
      obtain ⟨expected, _, -, h⟩ := bind_eq_ok_iff.mp h
      cases h
      exact ⟨actual ++ (" != " ++ expected), by simp only [String.append_assoc]⟩

/-- Neither null nor the marker for anything expects a failure, and neither does
what does not resolve. -/
theorem not_expectsError {scope : ScopeId} {f : Feature} {w : World ω}
    (h : (∃ v w₁, runFrom (Scope.resolve impl scope f.expected) w = (.ok v, w₁) ∧ v.IsOpen) ∨
      ∃ fault, (runFrom (Scope.resolve impl scope f.expected) w).1 = .error fault) :
    ¬ ExpectsError impl scope f w := by
  rintro ⟨s, w₂, hs, herror⟩
  rcases h with ⟨v, w₁, hv, hopen⟩ | ⟨fault, hfault⟩
  · rw [hs] at hv
    cases hv
    rcases hopen with heq | heq
    · cases heq
      cases herror
    · cases heq
      exact absurd herror (by decide)
  · rw [hs] at hfault
    cases hfault

/-- **A failure to execute is never taken for a success.**  If executing a tested
feature raises, its outcome is the failure marker, and it passes exactly if its
expected value resolves to a text equal to the marker's name: not if nothing or
anything is expected, and not if the expected value does not resolve.  A feature
that does not pass names what was raised, or what was compared if nothing was. -/
theorem raised_verdict (hrefuses : impl.RefusesTexts) {scope : ScopeId} {f : Feature}
    {w w' : World ω} {r : FeatureResult} (htested : f.isComment = false ∧ f.skip = false)
    (h : runFrom (runFeature impl scope f) w = (.ok r, w')) :
    (∀ fault, Raises impl scope f w fault →
      r.outcome = .error ∧ (r.status = .passed ↔ ExpectsError impl scope f w) ∧
      (¬ ExpectsError impl scope f w → r.status = .failed ∧
        r.detail = some ("Exception: " ++ (fault.kind ++ ": " ++ fault.message))) ∧
      ((∃ v w₁, runFrom (Scope.resolve impl scope f.expected) w = (.ok v, w₁) ∧ v.IsOpen) ∨
        (∃ other, (runFrom (Scope.resolve impl scope f.expected) w).1 = .error other) →
        r.status = .failed)) ∧
    ((∀ fault, ¬ Raises impl scope f w fault) → r.status = .failed →
      ∃ text, r.detail = some ("Assertion: " ++ text)) := by
  obtain ⟨outcome, w₂, ⟨hexecuted, -⟩, hjudged⟩ := runFeature_judged htested h
  constructor
  · intro fault hraises
    have hfault := (execute_fault_iff hexecuted).mpr hraises
    have hboth : outcome.value = .error ∧
        (Meets impl outcome w₂ ↔ ExpectsError impl scope f w) :=
      meets_of_fault hrefuses hexecuted hfault
    obtain ⟨hvalue, hmeets⟩ := hboth
    have hpassed := hjudged.passed_iff.trans hmeets
    have hfailed : ¬ ExpectsError impl scope f w → r.status = .failed ∧
        r.detail = some ("Exception: " ++ (fault.kind ++ ": " ++ fault.message)) := by
      intro hno
      cases hjudged with
      | passed hmet => exact absurd (hmeets.mp hmet) hno
      | failed _ hshown =>
          have hform := failureDetail_form hshown
          rw [hfault] at hform
          exact ⟨rfl, congrArg some hform⟩
    exact ⟨hjudged.outcome_eq.trans hvalue, hpassed, hfailed, fun h => (hfailed (not_expectsError h)).1⟩
  · intro hquiet hstatus
    have hnone : outcome.fault = none := by
      cases hfault : outcome.fault with
      | none => rfl
      | some fault => exact absurd ((execute_fault_iff hexecuted).mp hfault) (hquiet fault)
    cases hjudged with
    | passed _ => cases hstatus
    | failed _ hshown =>
        have hform := failureDetail_form hshown
        rw [hnone] at hform
        obtain ⟨text, rfl⟩ := hform
        exact ⟨text, rfl⟩

/-! ### A path without a value -/

/-- The objects of the sample implementation refuse every comparison, or leave it to
the values. -/
theorem sample_refusesTexts (packages : List Sample.Package) :
    (Sample.implementation packages).RefusesTexts := by
  intro o decide h text store
  change Sample.equality? o = some decide at h
  unfold Sample.equality? at h
  split at h
  · cases h
    exact nofun
  · cases h
    exact nofun
  · cases h

/-- Reads a name that is not bound and expects 5. -/
def goneFeature : Feature := .ofAction false (.read none "gone" (.scalar (.int 5)))

/-- The feature fails, and its detail names what the read raised. -/
theorem unbound_read_fails :
    (Sample.implementation []).RefusesTexts ∧
      Raises (Sample.implementation []) 0 goneFeature answerWorld (.unbound "gone") ∧
      ∃ r w', runFrom (runFeature (Sample.implementation []) 0 goneFeature) answerWorld =
          (.ok r, w') ∧
        r.status = .failed ∧ r.detail = some "Exception: LookupError: 'gone' is not bound" := by
  have hspellings : Name.spellings "gone" = ["gone"] := by decide +kernel
  have hlookup : runFrom (Scope.lookup (Sample.implementation []) 0 "gone") answerWorld =
      (.ok ⟨.missing, .scope 0, "gone", .null⟩, answerWorld) := by
    rw [Scope.runFrom_lookup_plain _ (by decide) (by decide), hspellings]
    rfl
  have hraises : Raises (Sample.implementation []) 0 goneFeature answerWorld (.unbound "gone") :=
    .operation rfl (.read (.unbound hlookup rfl))
  have hexecuted : runFrom (execute (Sample.implementation []) 0 goneFeature) answerWorld =
      (.ok (.failed (.resolved (.int 5)) (.unbound "gone")), answerWorld) := by
    rw [execute_read rfl rfl, runFrom_readOperand_plain _ (by decide) (by decide), hspellings]
    rfl
  have hrun : ∃ r w', runFrom (runFeature (Sample.implementation []) 0 goneFeature) answerWorld =
      (.ok r, w') := by
    rw [runFeature_of_tested ⟨rfl, rfl⟩, runFrom_bind_of_ok hexecuted]
    exact ⟨_, _, judge_failed goneFeature (hasForm_int 5) rfl rfl _ answerWorld⟩
  have hno : ¬ ExpectsError (Sample.implementation []) 0 goneFeature answerWorld := by
    rintro ⟨s, w₁, hs, herror⟩
    cases hs
    cases herror
  obtain ⟨r, w', hrun⟩ := hrun
  obtain ⟨hraised, -⟩ := raised_verdict (sample_refusesTexts []) ⟨rfl, rfl⟩ hrun
  obtain ⟨-, -, hfailed, -⟩ := hraised _ hraises
  exact ⟨sample_refusesTexts [], hraises, r, w', hrun, (hfailed hno).1, (hfailed hno).2⟩

end Run

end Conformance
