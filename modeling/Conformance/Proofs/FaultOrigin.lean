import Conformance.Proofs.CanonicalForm
import Conformance.Run.Judge

/-!
# Where faults come from

Reading a member, setting one, bringing a value into canonical form and comparing
two of them are the four places at which the implementation under test can make
the runner itself fail.  This file names, for each of the four, every fault that
it can end with: either the implementation raised it, or it is one of the three
that the runner adds of its own (digits without a decimal value, an instant
outside the calendar, a value that contains itself), or its family is one that
the caller turns into a mistake of the author or into a verdict.

`FaultsOnly P` says that a step ends with no fault outside `P`, from whatever
state it starts.
-/

namespace Conformance

/-- Every fault the step can end with satisfies `P`. -/
def FaultsOnly {σ α : Type} (P : Fault → Prop) (step : ExceptT Fault (StateM σ) α) : Prop :=
  ∀ s fault, (runFrom step s).1 = .error fault → P fault

namespace FaultsOnly

variable {σ α β : Type} {P Q : Fault → Prop}

/-- A value raises nothing. -/
theorem pure (a : α) : FaultsOnly P (Pure.pure a : ExceptT Fault (StateM σ) α) := by
  intro s fault h
  simp at h

/-- A fault of the kind may be raised. -/
theorem throw {fault : Fault} (h : P fault) :
    FaultsOnly P (throw fault : ExceptT Fault (StateM σ) α) := by
  intro s other hother
  simp only [runFrom_throw, Except.error.injEq] at hother
  exact hother ▸ h

theorem mk_pure {result : Except Fault α} (h : ∀ fault, result = .error fault → P fault) :
    FaultsOnly P (ExceptT.mk (Pure.pure result) : ExceptT Fault (StateM σ) α) :=
  fun _ fault hfault => h fault hfault

/-- Faults of one kind are faults of a wider one. -/
theorem mono {step : ExceptT Fault (StateM σ) α} (h : FaultsOnly P step)
    (hPQ : ∀ fault, P fault → Q fault) : FaultsOnly Q step :=
  fun s fault hfault => hPQ fault (h s fault hfault)

/-- The faults of a sequence are those of its parts. -/
theorem bind {step : ExceptT Fault (StateM σ) α} {next : α → ExceptT Fault (StateM σ) β}
    (hstep : FaultsOnly P step) (hnext : ∀ a, FaultsOnly P (next a)) :
    FaultsOnly P (step >>= next) := by
  intro s fault h
  have hpair : runFrom (step >>= next) s = (.error fault, (runFrom (step >>= next) s).2) :=
    Prod.ext h rfl
  rcases bind_eq_error_iff.mp hpair with hfirst | ⟨a, s₁, -, hsecond⟩
  · exact hstep s fault (by rw [hfirst])
  · exact hnext a s₁ fault (by rw [hsecond])

/-- Of a choice, the branch that is taken counts. -/
theorem ite {c : Prop} [Decidable c] {first second : ExceptT Fault (StateM σ) α}
    (hfirst : c → FaultsOnly P first) (hsecond : ¬c → FaultsOnly P second) :
    FaultsOnly P (if c then first else second) := by
  by_cases hc : c
  · rw [if_pos hc]
    exact hfirst hc
  · rw [if_neg hc]
    exact hsecond hc

end FaultsOnly

section World

variable {ω α : Type} {P : Fault → Prop}

theorem FaultsOnly.world : FaultsOnly P (Exec.world : Exec ω (World ω)) := by
  intro w fault h
  simp at h

theorem FaultsOnly.bindings (scope : ScopeId) :
    FaultsOnly P (Exec.bindings scope : Exec ω Bindings) := by
  intro w fault h
  simp at h

/-- An attempt raises nothing. -/
theorem FaultsOnly.attempt (step : Exec ω α) : FaultsOnly P (Exec.attempt step) := by
  intro w fault h
  simp at h

theorem FaultsOnly.datumNow (impl : Implementation ω) (v : Value) :
    FaultsOnly P (impl.datumNow v) := by
  intro w fault h
  simp at h

/-- Code raises in a world what it raises in the store. -/
theorem FaultsOnly.code {c : Code ω α} (h : FaultsOnly P c) : FaultsOnly P (Exec.code c) :=
  fun w fault hfault => h w.store fault hfault

end World

/-! ## Reading members -/

/-- A number in digits that have no decimal value. -/
def DigitsFault (fault : Fault) : Prop :=
  ∃ name, Name.isIndex name = true ∧ Text.decimal? name.toList = none ∧
    fault = .notInteger 10 name

/-- A fault that an attribute of an object raised while it was read, other than
its absence. -/
def ReaderFault {ω : Type} (impl : Implementation ω) (fault : Fault) : Prop :=
  fault.family ≠ .attribute ∧
    ∃ location o name store, (runFrom (impl.read location o name) store).1 = .error fault

namespace Scope

variable {ω : Type} {impl : Implementation ω}

/-- The item under a name of digits faults only for want of a decimal value. -/
theorem itemAt_fault {items : List Value} {name : String} {fault : Fault}
    (hindex : Name.isIndex name = true) (h : itemAt items name = .error fault) :
    DigitsFault fault := by
  unfold itemAt at h
  split at h
  · next hnone => exact ⟨name, hindex, hnone, (Except.error.inj h).symm⟩
  · cases h

/-- Reading an attribute raises what the implementation raises. -/
theorem objectAttribute_faults (location : Loc) (name : String) :
    FaultsOnly (ReaderFault impl) (objectAttribute impl location name) := by
  unfold objectAttribute
  refine FaultsOnly.bind FaultsOnly.world fun w => ?_
  split
  · next o _ =>
      intro w' fault h
      rw [runFrom_bind, runFrom_attempt, runFrom_code] at h
      rcases hread : (runFrom (impl.read location o name) w'.store).1 with e | v
      · rw [hread] at h
        by_cases hfamily : e.family = .attribute
        · simp [hfamily] at h
        · simp only [hfamily, if_false, runFrom_throw, Except.error.injEq] at h
          subst h
          exact ⟨hfamily, location, o, name, w'.store, hread⟩
      · rw [hread] at h
        simp at h
  · exact FaultsOnly.pure _
  · exact FaultsOnly.pure _

/-- **Reading a member.**  It faults for digits without a decimal value, or with
what the reader of an attribute raised. -/
theorem memberAs_faults (owner : Owner) (name : String) :
    FaultsOnly (fun fault => DigitsFault fault ∨ ReaderFault impl fault)
      (memberAs impl owner name) := by
  unfold memberAs
  split
  · exact FaultsOnly.bind (FaultsOnly.bindings _) fun _ => FaultsOnly.pure _
  · exact FaultsOnly.bind FaultsOnly.world fun _ => FaultsOnly.pure _
  · exact FaultsOnly.pure _
  · refine FaultsOnly.ite (fun hindex => ?_) (fun _ => FaultsOnly.pure _)
    refine FaultsOnly.bind FaultsOnly.world fun w => ?_
    exact FaultsOnly.mk_pure fun fault h => Or.inl (itemAt_fault hindex h)
  · refine FaultsOnly.ite (fun hindex => ?_) (fun _ => FaultsOnly.pure _)
    exact FaultsOnly.mk_pure fun fault h => Or.inl (itemAt_fault hindex h)
  · exact (objectAttribute_faults _ name).mono fun _ h => Or.inr h
  · exact FaultsOnly.bind FaultsOnly.world fun _ => FaultsOnly.pure _
  · exact FaultsOnly.pure _

/-- Reading under several spellings raises what reading under one of them does. -/
theorem firstMember_faults (owner : Owner) (names : List String) :
    FaultsOnly (fun fault => DigitsFault fault ∨ ReaderFault impl fault)
      (firstMember impl owner names) := by
  induction names with
  | nil => exact FaultsOnly.pure _
  | cons name names ih =>
      unfold firstMember
      refine FaultsOnly.bind (memberAs_faults owner name) fun found => ?_
      split
      · exact FaultsOnly.pure _
      · exact ih

/-- **Walking a path.**  A name on the way that is not bound is a lookup fault;
every other fault is one of reading a member. -/
theorem locate_faults (scope : ScopeId) (path : String) :
    FaultsOnly (fun fault => fault.family = .lookup ∨ DigitsFault fault ∨ ReaderFault impl fault)
      (locate impl scope path) := by
  have hwalk : ∀ (names walked : List String) (owner : Owner),
      FaultsOnly (fun fault => fault.family = .lookup ∨ DigitsFault fault ∨ ReaderFault impl fault)
        (walk impl owner walked names) := by
    intro names
    induction names with
    | nil => intro walked owner; exact FaultsOnly.pure _
    | cons name names ih =>
        intro walked owner
        cases names with
        | nil => exact FaultsOnly.pure _
        | cons next rest =>
            unfold walk
            refine FaultsOnly.bind ((firstMember_faults owner _).mono fun _ h => Or.inr h) ?_
            intro found
            split
            · exact ih _ _
            · exact FaultsOnly.throw (Or.inl rfl)
  unfold locate
  exact FaultsOnly.ite (fun _ => FaultsOnly.throw (Or.inl rfl)) fun _ => hwalk _ _ _

/-! ## Setting members -/

/-- A fault that an object raised while one of its attributes was set. -/
def SetterFault {ω : Type} (impl : Implementation ω) (fault : Fault) : Prop :=
  ∃ location o name v store, (runFrom (impl.write location o name v) store).1 = .error fault

/-- Why an attribute cannot be set is always a reason to refuse the assignment. -/
theorem attributeFault_refused (v : Value) (name : String) :
    isRefusal (v.attributeFault name) = true := by
  have hfamily : (v.attributeFault name).family = .attribute := by
    unfold Value.attributeFault
    split
    · rfl
    · split <;> rfl
  simp [isRefusal, hfamily]

/-- Writing an item is refused, or its index is no number. -/
theorem writeItem_faults (location : Loc) (name : String) (v : Value)
    (hindex : Name.isIndex name = true) :
    FaultsOnly (fun fault => isRefusal fault = true ∨ DigitsFault fault)
      (writeItem location name v : Exec ω Unit) := by
  unfold writeItem
  split
  · next hnone => exact FaultsOnly.throw (Or.inr ⟨name, hindex, hnone, rfl⟩)
  · refine FaultsOnly.bind FaultsOnly.world fun w => ?_
    refine FaultsOnly.ite (fun _ => FaultsOnly.throw (Or.inl (by decide))) fun _ => ?_
    refine FaultsOnly.ite (fun _ => FaultsOnly.throw (Or.inl (by decide))) fun _ => ?_
    intro w' fault h
    cases h

/-- **Setting a member.**  Unless the fault makes the assignment invalid, it is
one of digits without a decimal value or raised by the object itself. -/
theorem write_faults (owner : Owner) (name : String) (v : Value) :
    FaultsOnly (fun fault => isRefusal fault = true ∨ DigitsFault fault ∨ SetterFault impl fault)
      (write impl owner name v) := by
  unfold write
  split
  · refine FaultsOnly.bind (FaultsOnly.bindings _) fun b => ?_
    intro w fault h
    cases h
  · refine FaultsOnly.bind FaultsOnly.world fun w => ?_
    intro w' fault h
    cases h
  · refine FaultsOnly.ite (fun hindex => ?_)
      (fun _ => FaultsOnly.throw (Or.inl (attributeFault_refused _ _)))
    refine (writeItem_faults _ name v hindex).mono ?_
    intro fault hcase
    rcases hcase with h | h
    · exact Or.inl h
    · exact Or.inr (Or.inl h)
  · next location =>
      unfold writeAttribute
      refine FaultsOnly.bind FaultsOnly.world fun w => ?_
      split
      · next o _ =>
          refine FaultsOnly.code fun store fault h => ?_
          exact Or.inr (Or.inr ⟨location, o, name, v, store, h⟩)
      · intro w' fault h
        cases h
      · exact FaultsOnly.throw (Or.inl (by simp [isRefusal, Fault.family]))
  · refine FaultsOnly.ite
      (fun _ => FaultsOnly.throw (Or.inl (by simp [isRefusal, Fault.family]))) fun _ => ?_
    intro w fault h
    cases h
  · exact FaultsOnly.throw (Or.inl (attributeFault_refused _ _))

end Scope

/-! ## Comparing -/

/-- A fault of bringing data into canonical form: an instant outside the
calendar, a value without end, or a key that is none. -/
def CanonicalFault (fault : Fault) : Prop :=
  fault = .dateRange ∨ fault = .endless ∨ fault.family = .type

/-- **Canonical form.**  The three ways in which a datum has none. -/
theorem Datum.canonical_fault (d : Datum) {fault : Fault} (h : d.canonical = .error fault) :
    CanonicalFault fault := by
  rcases ((canonical_eq_error_iff d).mp h).fault_eq with hdate | hendless | hkey
  · exact Or.inl hdate
  · exact Or.inr (Or.inl hendless)
  · subst hkey
    exact Or.inr (Or.inr rfl)

/-- A fault that the equality of an object raised. -/
def EqualityFault {ω : Type} (impl : Implementation ω) (fault : Fault) : Prop :=
  ∃ o decide other store, impl.equality? o = some decide ∧
    (runFrom (decide other) store).1 = .error fault

/-- A fault that the equality of an object at one of some locations raised. -/
def AskedFault {ω : Type} (impl : Implementation ω) (P : Loc → Prop) (fault : Fault) : Prop :=
  ∃ location o decide other store, P location ∧ store.object? location = some o ∧
    impl.equality? o = some decide ∧ (runFrom (decide other) store).1 = .error fault

section Equality

variable {ω : Type} {impl : Implementation ω} {P : Loc → Prop}

/-- What decides the equality of a datum is the equality of an object in it. -/
theorem ownEquality?_asks {store : Store ω} {d : Datum} {decide : Datum → Code ω Bool}
    (h : impl.ownEquality? store d = some decide) (hd : d.Within P) {other : Datum} {fault : Fault}
    (hfault : (runFrom (decide other) store).1 = .error fault) : AskedFault impl P fault := by
  unfold Implementation.ownEquality? at h
  split at h
  · next location shown =>
      obtain ⟨o, hobject, ho⟩ := Option.bind_eq_some_iff.mp h
      exact ⟨location, o, decide, other, store, hd location (.object shown), hobject, ho, hfault⟩
  · cases h

mutual

/-- **Comparing.**  Only the equality of an object in the data can fault. -/
theorem equal_asks {a b : Datum} (ha : a.Within P) (hb : b.Within P) :
    FaultsOnly (AskedFault impl P) (impl.equal a b) := by
  intro store fault h
  have hstore : runFrom (impl.equal a b) store =
      runFrom (match impl.ownEquality? store a with
        | some decide => decide b
        | none => match impl.ownEquality? store b with
          | some decide => decide a
          | none => impl.equalPlain a b) store := by
    rw [Implementation.equal]
    rfl
  rw [hstore] at h
  split at h
  · next hown => exact ownEquality?_asks hown ha h
  · split at h
    · next hown => exact ownEquality?_asks hown hb h
    · exact equalPlain_asks ha hb store fault h
termination_by (sizeOf a + sizeOf b, 3)

/-- Data of the same shape are compared by their parts, which are asked for nothing else. -/
private theorem equalPlain_asks {a b : Datum} (ha : a.Within P) (hb : b.Within P) :
    FaultsOnly (AskedFault impl P) (impl.equalPlain a b) := by
  rw [Implementation.equalPlain.eq_def]
  split
  case h_6 =>
    exact equalItems_asks (Datum.within_tuple_iff.mp ha) (Datum.within_tuple_iff.mp hb)
  case h_7 =>
    have hitems := equalItems_asks (Datum.within_list_iff.mp ha) (Datum.within_list_iff.mp hb)
    exact FaultsOnly.ite (fun _ => hitems) fun _ => FaultsOnly.pure _
  case h_8 =>
    have hentries := equalEntries_asks (Datum.within_map_iff.mp ha) (Datum.within_map_iff.mp hb)
    exact FaultsOnly.ite (fun _ => hentries) fun _ => FaultsOnly.pure _
  case h_9 =>
    have hentries := equalEntries_asks (Datum.within_frozen_iff.mp ha) (Datum.within_map_iff.mp hb)
    exact FaultsOnly.ite (fun _ => hentries) fun _ => FaultsOnly.pure _
  case h_10 =>
    have hentries := equalEntries_asks (Datum.within_frozen_iff.mp hb) (Datum.within_map_iff.mp ha)
    exact FaultsOnly.ite (fun _ => hentries) fun _ => FaultsOnly.pure _
  case h_11 =>
    have hentries :=
      equalEntries_asks (Datum.within_frozen_iff.mp hb) (Datum.within_frozen_iff.mp ha)
    exact FaultsOnly.ite (fun _ => hentries) fun _ => FaultsOnly.pure _
  all_goals exact FaultsOnly.pure _
termination_by (sizeOf a + sizeOf b, 2)

/-- The same of items. -/
private theorem equalItems_asks {xs ys : List Datum} (hxs : ∀ x ∈ xs, x.Within P)
    (hys : ∀ y ∈ ys, y.Within P) : FaultsOnly (AskedFault impl P) (impl.equalItems xs ys) := by
  rw [Implementation.equalItems.eq_def]
  split
  · exact FaultsOnly.pure _
  · rw [List.forall_mem_cons] at hxs hys
    refine FaultsOnly.bind (equalMember_asks hxs.1 hys.1) fun same => ?_
    exact FaultsOnly.ite (fun _ => equalItems_asks hxs.2 hys.2) fun _ => FaultsOnly.pure _
  · exact FaultsOnly.pure _
termination_by (sizeOf xs + sizeOf ys, 1)

/-- The same of entries, with each value found under its key. -/
private theorem equalEntries_asks : ∀ {xs ys : List (Key × Datum)}, (∀ e ∈ xs, e.2.Within P) →
    (∀ e ∈ ys, e.2.Within P) → FaultsOnly (AskedFault impl P) (impl.equalEntries xs ys)
  | [], ys, _, _ => by
      rw [Implementation.equalEntries]
      exact FaultsOnly.pure _
  | (k, x) :: xs, ys, hxs, hys => by
      rw [Implementation.equalEntries]
      rw [List.forall_mem_cons] at hxs
      split
      · exact FaultsOnly.pure _
      · next y h =>
          have hsize := Entries.sizeOf_find? h
          have hy : y.Within P := by
            obtain ⟨e, he, rfl⟩ := Option.map_eq_some_iff.mp h
            exact hys e (List.mem_of_find?_eq_some he)
          refine FaultsOnly.bind (equalMember_asks hy hxs.1) fun same => ?_
          exact FaultsOnly.ite (fun _ => equalEntries_asks hxs.2 hys) fun _ => FaultsOnly.pure _
termination_by xs ys => (sizeOf xs + sizeOf ys, 1)

/-- A member that is identical is not asked; any other is compared. -/
private theorem equalMember_asks {a b : Datum} (ha : a.Within P) (hb : b.Within P) :
    FaultsOnly (AskedFault impl P) (impl.equalMember a b) := by
  rw [Implementation.equalMember]
  exact FaultsOnly.ite (fun _ => FaultsOnly.pure _) fun _ => equal_asks ha hb
termination_by (sizeOf a + sizeOf b, 4)

end

/-- Whatever is compared, only the equality of an object can fault. -/
theorem equal_faults (a b : Datum) : FaultsOnly (EqualityFault impl) (impl.equal a b) := by
  have hasks : FaultsOnly (AskedFault impl fun _ => True) (impl.equal a b) :=
    equal_asks (fun _ _ => trivial) fun _ _ => trivial
  refine hasks.mono ?_
  rintro fault ⟨-, o, decide, other, store, -, -, ho, hfault⟩
  exact ⟨o, decide, other, store, ho, hfault⟩

namespace Run

/-- The faults of the comparison of two outcomes, before any of them is taken to
mean that they differ. -/
theorem canonicallyEqual_faults (actual expected : Datum) :
    FaultsOnly (fun fault => CanonicalFault fault ∨ EqualityFault impl fault)
      (canonicallyEqual impl actual expected) := by
  unfold canonicallyEqual
  refine FaultsOnly.bind (FaultsOnly.mk_pure fun _ h => Or.inl (Datum.canonical_fault _ h)) ?_
  intro a
  refine FaultsOnly.bind (FaultsOnly.mk_pure fun _ h => Or.inl (Datum.canonical_fault _ h)) ?_
  intro e
  exact (equal_faults _ _).mono fun _ h => Or.inr h

/-- Showing a value in the detail of a failure faults for an instant outside the
calendar or a value without end. -/
theorem detail_fault {d : Datum} {fault : Fault} (h : d.detail = .error fault) :
    fault = .dateRange ∨ fault = .endless := by
  unfold Datum.detail at h
  split at h
  · cases h
  · next other hcanonical =>
      split at h
      · cases h
      · next hfamily =>
          cases h
          rcases Datum.canonical_fault d hcanonical with hdate | hendless | htype
          · exact Or.inl hdate
          · exact Or.inr hendless
          · simp [htype] at hfamily

end Run

end Equality

end Conformance
