import Conformance.Proofs.Stages

/-!
# Properties that lookups keep

A lookup looks at the bindings of a scope and at the store, and reads attributes of
the implementation's objects; it calls nothing, writes nothing and logs nothing.
`Implementation.Looks P` says that a property `P` of steps holds of these three and is
kept by putting steps together.  Such a property holds of every walk of a path, from
the member of one owner up to `get_kept` and `lookup_kept`, and of the check for a
bound constant.  That the store moves by a preorder at most is such a property, if reading
attributes moves it so (`StoreMoved.looks`).

Owners other than objects have no code at all, and `memberAs_found` says where a member of
theirs stands.  The one fault among them is that of `memberAs_of_digits`.
-/

namespace Conformance

/-! ## Found entries -/

/-- What a name leads to is one of the values. -/
theorem mem_of_named? {α : Type} {entries : List (String × α)} {name : String} {v : α}
    (h : named? entries name = some v) : ∃ e ∈ entries, e.2 = v := by
  obtain ⟨e, hfind, rfl⟩ := Option.map_eq_some_iff.mp h
  exact ⟨e, List.mem_of_find?_eq_some hfind, rfl⟩

/-- What a key leads to is one of the values. -/
theorem Entries.mem_of_find? {α : Type} {entries : Entries α} {key : Key} {v : α}
    (h : entries.find? key = some v) : ∃ e ∈ entries, e.2 = v := by
  obtain ⟨e, hfind, rfl⟩ := Option.map_eq_some_iff.mp h
  exact ⟨e, List.mem_of_find?_eq_some hfind, rfl⟩

/-! ## Members of owners that are no objects -/

/-- A list or a tuple. -/
def Owner.IsSequence : Owner → Prop
  | .value (.list _) | .value (.tuple _) => True
  | _ => False

/-- The name is made of digits, not all of which have a decimal value. -/
def Name.IsBareDigits (name : String) : Prop :=
  Name.isIndex name = true ∧ Text.decimal? name.toList = none

/-- Where the value stands that an owner has under some name. -/
inductive Owner.HasMember {ω : Type} (w : World ω) : Owner → Value → Prop
  | binding {scope : ScopeId} {e : String × Value} (he : e ∈ w.bindings scope) :
      HasMember w (.scope scope) e.2
  | entry {location : Loc} {e : Key × Value} (he : e ∈ w.store.entries location) :
      HasMember w (.value (.map location)) e.2
  | frozen {entries : List (Key × Value)} {e : Key × Value} (he : e ∈ entries) :
      HasMember w (.value (.frozen entries)) e.2
  | item {location : Loc} {v : Value} (hv : v ∈ w.store.items location) :
      HasMember w (.value (.list location)) v
  | component {items : List Value} {v : Value} (hv : v ∈ items) :
      HasMember w (.value (.tuple items)) v
  | set {marker other : Sentinel} {e : String × Value} (he : e ∈ w.store.marks other) :
      HasMember w (.value (.scalar (.sentinel marker))) e.2
  | own {owner v : Value} {name : String} (hv : owner.attribute? name = some v) :
      HasMember w (.value owner) v

namespace Scope

variable {ω : Type} {impl : Implementation ω} {w : World ω} {owner : Owner} {name : String}

/-- A list or a tuple has no member under digits without a decimal value, and looking for it
is a fault. -/
theorem memberAs_of_digits (howner : owner.IsSequence) (hname : Name.IsBareDigits name) :
    runFrom (memberAs impl owner name) w = (.error (.notInteger 10 name), w) := by
  have hitem : ∀ items, itemAt items name = .error (.notInteger 10 name) := by
    intro items
    unfold itemAt
    rw [hname.2]
  unfold Owner.IsSequence at howner
  split at howner
  · unfold memberAs
    dsimp only
    rw [if_pos hname.1, runFrom_bind_of_ok (runFrom_world w), runFrom_mk_pure, hitem]
  · unfold memberAs
    dsimp only
    rw [if_pos hname.1, runFrom_mk_pure, hitem]
  · exact howner.elim

/-- An item is one of the items. -/
theorem itemAt_mem (items : List Value) (hname : ¬ Name.IsBareDigits name)
    (hindex : Name.isIndex name = true) :
    ∃ found, itemAt items name = .ok found ∧ ∀ v, found = some v → v ∈ items := by
  unfold itemAt
  split
  · next hnone => exact absurd ⟨hindex, hnone⟩ hname
  · exact ⟨_, rfl, fun v hv => List.mem_of_getElem? hv⟩

/-- **Other members of an owner that is no object** are found where they stand, or are not there.
Looking for them changes nothing. -/
theorem memberAs_found (impl : Implementation ω) (w : World ω)
    (hobject : ∀ location, owner ≠ .value (.object location))
    (hname : ¬ (owner.IsSequence ∧ Name.IsBareDigits name)) :
    ∃ found, runFrom (memberAs impl owner name) w = (.ok found, w) ∧
      ∀ v, found = some v → owner.HasMember w v := by
  unfold memberAs
  split
  · next scope =>
      refine ⟨_, rfl, fun v hv => ?_⟩
      obtain ⟨e, he, rfl⟩ := mem_of_named? hv
      exact .binding he
  · next location =>
      refine ⟨_, rfl, fun v hv => ?_⟩
      obtain ⟨e, he, rfl⟩ := Entries.mem_of_find? hv
      exact .entry he
  · next entries =>
      refine ⟨_, rfl, fun v hv => ?_⟩
      obtain ⟨e, he, rfl⟩ := Entries.mem_of_find? hv
      exact .frozen he
  · next location =>
      split
      · next hindex =>
          obtain ⟨found, hfound, hmem⟩ :=
            itemAt_mem (w.store.items location) (fun h => hname ⟨trivial, h⟩) hindex
          rw [runFrom_bind_of_ok (runFrom_world w), runFrom_mk_pure, hfound]
          exact ⟨found, rfl, fun v hv => .item (hmem v hv)⟩
      · exact ⟨_, rfl, fun v hv => .own hv⟩
  · next items =>
      split
      · next hindex =>
          obtain ⟨found, hfound, hmem⟩ := itemAt_mem items (fun h => hname ⟨trivial, h⟩) hindex
          rw [runFrom_mk_pure, hfound]
          exact ⟨found, rfl, fun v hv => .component (hmem v hv)⟩
      · exact ⟨_, rfl, fun v hv => .own hv⟩
  · next location => exact absurd rfl (hobject location)
  · next marker =>
      refine ⟨_, rfl, fun v hv => ?_⟩
      unfold markerAttribute? at hv
      split at hv
      · exact .own hv
      · rcases Option.or_eq_some_iff.mp hv with hset | ⟨-, hown⟩
        · obtain ⟨e, he, rfl⟩ := mem_of_named? hset
          exact .set he
        · exact .own hown
  · next v => exact ⟨_, rfl, fun u hu => .own hu⟩

end Scope

/-! ## Properties of steps -/

/-- A property of steps that holds of looking at bindings and at the store and of reading
attributes, and that is kept by putting steps together. -/
structure Implementation.Looks {ω : Type} (impl : Implementation ω)
    (P : {α : Type} → Exec ω α → Prop) : Prop where
  pure : ∀ {α : Type} (a : α), P (Pure.pure a : Exec ω α)
  throw : ∀ {α : Type} (fault : Fault), P (MonadExcept.throw fault : Exec ω α)
  bind : ∀ {α β : Type} {step : Exec ω α} {next : α → Exec ω β},
    P step → (∀ a, P (next a)) → P (step >>= next)
  attempt : ∀ {α : Type} {step : Exec ω α}, P step → P (Exec.attempt step)
  bindings : ∀ scope : ScopeId, P (Exec.bindings scope)
  look : ∀ {α : Type} {next : World ω → Exec ω α},
    (∀ w w', w.store = w'.store → w.scopes = w'.scopes → next w = next w') → (∀ w, P (next w)) →
      P (Exec.world >>= next)
  read : ∀ location o name, P (Exec.code (impl.read location o name))

variable {ω : Type} {impl : Implementation ω} {P : {α : Type} → Exec ω α → Prop}

namespace Implementation.Looks

theorem mk_pure (h : impl.Looks P) {α : Type} (result : Except Fault α) :
    P (ExceptT.mk (Pure.pure result) : Exec ω α) := by
  cases result with
  | error fault => exact h.throw fault
  | ok a => exact h.pure a

theorem ite {α : Type} {c : Prop} [Decidable c] {first second : Exec ω α} (_ : impl.Looks P)
    (hfirst : P first) (hsecond : P second) : P (if c then first else second) := by
  by_cases hc : c
  · rw [if_pos hc]
    exact hfirst
  · rw [if_neg hc]
    exact hsecond

end Implementation.Looks

namespace Scope

/-! ## Members -/

/-- Reading an attribute looks at the world and runs the implementation's reader. -/
theorem objectAttribute_kept (h : impl.Looks P) (location : Loc) (name : String) :
    P (objectAttribute impl location name) := by
  unfold objectAttribute
  refine h.look (fun _ _ hstore _ => by simp only [hstore]) fun w => ?_
  split
  · refine h.bind (h.attempt (h.read _ _ _)) fun result => ?_
    split
    · exact h.pure _
    · exact h.ite (h.pure _) (h.throw _)
  · exact h.pure _
  · exact h.pure _

/-- Reading a member. -/
theorem memberAs_kept (h : impl.Looks P) (owner : Owner) (name : String) :
    P (memberAs impl owner name) := by
  unfold memberAs
  split
  · exact h.bind (h.bindings _) fun _ => h.pure _
  · exact h.look (fun _ _ hstore _ => by simp only [hstore]) fun _ => h.pure _
  · exact h.pure _
  · refine h.ite ?_ (h.pure _)
    exact h.look (fun _ _ hstore _ => by simp only [hstore]) fun _ => h.mk_pure _
  · exact h.ite (h.mk_pure _) (h.pure _)
  · exact objectAttribute_kept h _ _
  · exact h.look (fun _ _ hstore _ => by simp only [hstore]) fun _ => h.pure _
  · exact h.pure _

/-- Reading under several spellings is reading under one after another. -/
theorem firstMember_kept (h : impl.Looks P) (owner : Owner) (names : List String) :
    P (firstMember impl owner names) := by
  induction names with
  | nil => exact h.pure _
  | cons name names ih =>
      unfold firstMember
      refine h.bind (memberAs_kept h owner name) fun found => ?_
      split
      · exact h.pure _
      · exact ih

/-! ## Paths -/

/-- Walking is reading one name after another. -/
theorem walk_kept (h : impl.Looks P) (names : List String) :
    ∀ (owner : Owner) (walked : List String), P (walk impl owner walked names) := by
  induction names with
  | nil => exact fun _ _ => h.pure _
  | cons name names ih =>
      intro owner walked
      cases names with
      | nil => exact h.pure _
      | cons next rest =>
          unfold walk
          refine h.bind (firstMember_kept h owner _) fun found => ?_
          split
          · exact ih _ _
          · exact h.throw _

/-- Walking a path. -/
theorem locate_kept (h : impl.Looks P) (scope : ScopeId) (path : String) :
    P (locate impl scope path) := by
  unfold locate
  exact h.ite (h.throw _) (walk_kept h _ _ _)

/-- Reading a path is walking to its last name and reading it. -/
theorem get_kept (h : impl.Looks P) (scope : ScopeId) (path : String) :
    P (get impl scope path) := by
  unfold get
  refine h.bind (locate_kept h scope path) ?_
  intro found
  obtain ⟨owner, name⟩ := found
  refine h.bind (firstMember_kept h owner _) fun found => ?_
  split
  · exact h.pure _
  · exact h.throw _

/-- Looking a path up is reading it and looking at what is there. -/
theorem lookup_kept (h : impl.Looks P) (scope : ScopeId) (path : String) :
    P (lookup impl scope path) := by
  unfold lookup
  refine h.bind (locate_kept h scope path) ?_
  intro found
  obtain ⟨owner, name⟩ := found
  refine h.bind (firstMember_kept h owner _) fun found => ?_
  split
  · exact h.pure _
  · exact h.look (fun _ _ hstore _ => by simp only [hstore]) fun _ => h.pure _

/-- Checking for a bound constant. -/
theorem isBoundConstant_kept (h : impl.Looks P) (owner : Owner) (name : String) :
    P (isBoundConstant impl owner name) := by
  unfold isBoundConstant
  refine h.ite ?_ (h.pure _)
  exact h.bind (memberAs_kept h owner name) fun _ => h.pure _

end Scope

/-! ## Stores that lookups leave -/

section

variable {R : Store ω → Store ω → Prop}

/-- The world changed in its store alone, and there by the relation. -/
def StoreMoved (R : Store ω → Store ω → Prop) (w w' : World ω) : Prop :=
  ∃ store, w' = { w with store } ∧ R w.store store

namespace StoreMoved

instance [Std.Refl R] : Std.Refl (StoreMoved R) where
  refl w := ⟨w.store, rfl, Std.Refl.refl _⟩

instance [IsTrans (Store ω) R] : IsTrans (World ω) (StoreMoved R) where
  trans := by
    rintro w - - ⟨store, rfl, h⟩ ⟨store', rfl, h'⟩
    exact ⟨store', rfl, IsTrans.trans _ _ _ h h'⟩

/-- Lookups move the store as far as reading attributes does. -/
theorem looks [Std.Refl R] [IsTrans (Store ω) R]
    (hread : ∀ location o name, Moves R (impl.read location o name)) :
    impl.Looks (fun step => Moves (StoreMoved R) step) where
  pure := Moves.pure
  throw := Moves.throw
  bind := Moves.bind
  attempt := fun h => h
  bindings := fun _ w => Std.Refl.refl w
  look := fun _ hnext w => hnext w w
  read := fun location o name w => ⟨_, rfl, hread location o name w.store⟩

end StoreMoved

end

end Conformance
