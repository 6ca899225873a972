import Conformance.Proofs.Stages
import Conformance.Proofs.Locality

/-!
# Features with a past

Each function of the engine, from the walk of a path up to a feature, does in
the presence of a past what it does without, for a local implementation and for
paths that do not start at the importer.  Authored values are rebuilt wherever
they are resolved, so that nothing of a feature is ever shared between two runs.
-/

namespace Conformance

variable {ω : Type} [Relocatable ω] {impl : Implementation ω} {p : Past ω}

/-- The owner with the past in front of it. -/
def Owner.shift (p : Past ω) : Owner → Owner
  | .scope id => .scope (p.scopes.size + id)
  | .value v => .value (v.shift p.size)

/-- A name is looked up in a scope only if it is not the importer's. -/
def Owner.Avoids (owner : Owner) (name : String) : Prop :=
  ∀ id, owner = .scope id → Run.importName ∉ Name.spellings name

/-- A name that is looked up in a scope under one spelling is not the importer's. -/
def Owner.AvoidsAs (owner : Owner) (name : String) : Prop :=
  ∀ id, owner = .scope id → name ≠ Run.importName

/-- A name is one of its own spellings. -/
theorem Name.self_mem_spellings (name : String) : name ∈ Name.spellings name := by
  unfold Name.spellings
  split <;> exact List.mem_cons_self

/-- If no spelling is the importer's, a given one is not. -/
theorem Owner.Avoids.spelling {owner : Owner} {name : String} (h : owner.Avoids name)
    {spelling : String} (hmem : spelling ∈ Name.spellings name) : owner.AvoidsAs spelling := by
  intro id howner heq
  obtain rfl := heq
  exact h id howner hmem

/-- An owner and a last name with the past in front of them. -/
def Past.Located (p : Past ω) (found found' : Owner × String) : Prop :=
  found' = (found.1.shift p, found.2) ∧ found.1.Avoids found.2

/-- The operand with the past in front of it. -/
def Operand.shift (p : Past ω) (o : Operand) : Operand :=
  ⟨o.kind, o.owner.shift p, o.name, o.value.shift p.size⟩

namespace Scope

/-! ## Looking up -/

/-- An index leads to the mapped item, or is refused for the same reason. -/
theorem itemAt_map (f : Value → Value) (items : List Value) (name : String) :
    ResultRel (IsImage (Option.map f)) (itemAt items name) (itemAt (items.map f) name) := by
  unfold itemAt
  cases Text.decimal? name.toList with
  | none => exact .error _
  | some i => exact .ok (List.getElem?_map ..)

/-- An attribute of a marker, own or set, is the moved one. -/
theorem markerAttribute?_store (t : Store ω) (marker : Sentinel) (name : String) :
    markerAttribute? (p.store t) marker name =
      (markerAttribute? t marker name).map (Value.shift p.size) := by
  have hown := Value.attribute?_shift p.size (.scalar (.sentinel marker)) name
  rw [Value.shift_scalar] at hown
  unfold markerAttribute?
  by_cases hfield : isMarkerField name = true
  · rw [if_pos hfield, if_pos hfield]
    exact hown
  · rw [if_neg hfield, if_neg hfield]
    change (named? (shiftNamed p.size (t.marks marker)) name).or _ = _
    rw [named?_shiftNamed]
    cases named? (t.marks marker) name with
    | none => exact hown
    | some v => rfl

section Lookup

variable (h : impl.Local)
include h

/-- Reading an attribute of an object or a hook does not see the past. -/
theorem objectAttribute_follows (location : Loc) (name : String) :
    Follows p.Around (IsImage (Option.map (Value.shift p.size)))
      (objectAttribute impl location name) (objectAttribute impl (p.size + location) name) := by
  unfold objectAttribute
  refine Follows.bind Past.world_follows ?_
  intro w w' hw
  rw [hw.store.1, Past.get?_store]
  cases w.store.get? location with
  | none => exact Follows.pure rfl
  | some c =>
      cases c with
      | list items => exact Follows.pure rfl
      | map entries => exact Follows.pure rfl
      | hook scope f attributes => exact Follows.pure (named?_shiftNamed p.size attributes name)
      | object o =>
          refine Follows.bind (Past.attempt_follows (Past.code_follows (h.read p location o name))) ?_
          intro r r' hr
          cases hr with
          | error fault => exact Follows.ite (Follows.pure rfl) (Follows.throw fault)
          | ok hv =>
              cases hv
              exact Follows.pure rfl

/-- Reading a member does not see the past. -/
theorem memberAs_follows {owner : Owner} {name : String} (hname : owner.AvoidsAs name) :
    Follows p.Around (IsImage (Option.map (Value.shift p.size))) (memberAs impl owner name)
      (memberAs impl (owner.shift p) name) := by
  unfold memberAs
  cases owner with
  | scope id =>
      refine Follows.bind (Past.bindings_follows id) ?_
      intro b b' hb
      exact Follows.pure (hb.named? (hname id rfl))
  | value v =>
      cases v with
      | map location =>
          refine Follows.bind Past.world_follows ?_
          intro w w' hw
          refine Follows.pure ?_
          rw [hw.store.1, Past.entries_store]
          exact Entries.find?_shift p.size _ _ (.str name)
      | frozen entries =>
          refine Follows.pure ?_
          rw [Value.shiftEntries_eq]
          exact Entries.find?_shift p.size _ entries (.str name)
      | list location =>
          refine Follows.ite ?_ (Follows.pure (Value.attribute?_shift p.size (.list location) name))
          refine Follows.bind Past.world_follows ?_
          intro w w' hw
          rw [hw.store.1, Past.items_store]
          exact Follows.mk_pure (itemAt_map _ _ name)
      | tuple items =>
          refine Follows.ite (Follows.mk_pure ?_)
            (Follows.pure (Value.attribute?_shift p.size (.tuple items) name))
          rw [Value.shiftAll_eq]
          exact itemAt_map _ _ name
      | object location => exact objectAttribute_follows h location name
      | scalar s =>
          cases s with
          | sentinel marker =>
              refine Follows.bind Past.world_follows ?_
              intro w w' hw
              refine Follows.pure ?_
              rw [hw.store.1]
              exact markerAttribute?_store w.store marker name
          | _ => exact Follows.pure (Value.attribute?_shift p.size (.scalar _) name)
      | reference path => exact Follows.pure (Value.attribute?_shift p.size (.reference path) name)
      | method owner method =>
          exact Follows.pure (Value.attribute?_shift p.size (.method owner method) name)

/-- The first spelling that is bound is the same, and leads to the moved value. -/
theorem firstMember_follows {owner : Owner} {names : List String}
    (hnames : ∀ name ∈ names, owner.AvoidsAs name) :
    Follows p.Around (IsImage (Option.map (Value.shift p.size))) (firstMember impl owner names)
      (firstMember impl (owner.shift p) names) := by
  induction names with
  | nil => exact Follows.pure rfl
  | cons name names ih =>
      unfold firstMember
      refine Follows.bind (memberAs_follows h (hnames name List.mem_cons_self)) ?_
      intro found _ hfound
      obtain rfl := hfound
      cases found with
      | some v => exact Follows.pure rfl
      | none => exact ih fun other hmem => hnames other (List.mem_cons_of_mem _ hmem)

/-- Reading a member under any of its spellings does not see the past. -/
theorem member_follows {owner : Owner} {name : String} (hname : owner.Avoids name) :
    Follows p.Around (IsImage (Option.map (Value.shift p.size))) (member impl owner name)
      (member impl (owner.shift p) name) :=
  firstMember_follows h fun _ hmem => hname.spelling hmem

/-- By induction on the names: only the first is looked up in a scope, so only it must avoid the
importer. -/
theorem walk_follows (names : List String) : ∀ (owner : Owner) (walked : List String),
    (∀ name ∈ names.take 1, owner.Avoids name) →
      Follows p.Around p.Located (walk impl owner walked names)
        (walk impl (owner.shift p) walked names) := by
  induction names with
  | nil =>
      intro owner walked _
      have hempty : Run.importName ∉ Name.spellings "" := by decide +kernel
      exact Follows.pure ⟨rfl, fun _ _ => hempty⟩
  | cons name names ih =>
      intro owner walked hfirst
      have hname := hfirst name (by simp)
      cases names with
      | nil => exact Follows.pure ⟨rfl, hname⟩
      | cons next rest =>
          unfold walk
          refine Follows.bind (member_follows h hname) ?_
          intro found _ hfound
          obtain rfl := hfound
          cases found with
          | none => exact Follows.throw _
          | some v =>
              refine ih (.value v) _ ?_
              intro name _ scope hscope
              cases hscope

/-- Walking a path does not see the past. -/
theorem locate_follows (scope : ScopeId) {path : String} (hpath : AvoidsImporter path) :
    Follows p.Around p.Located (locate impl scope path)
      (locate impl (p.scopes.size + scope) path) := by
  unfold locate
  refine Follows.ite (Follows.throw _) ?_
  exact walk_follows h _ (.scope scope) [] fun name hmem _ _ => hpath name hmem

/-- Reading a path does not see the past. -/
theorem get_follows (scope : ScopeId) {path : String} (hpath : AvoidsImporter path) :
    Follows p.Around (IsImage (Value.shift p.size)) (get impl scope path)
      (get impl (p.scopes.size + scope) path) := by
  unfold get
  refine Follows.bind (locate_follows h scope hpath) ?_
  intro found _ hfound
  obtain ⟨owner, name⟩ := found
  obtain ⟨rfl, hname⟩ := hfound
  refine Follows.bind (member_follows h hname) ?_
  intro found _ hfound
  obtain rfl := hfound
  cases found with
  | none => exact Follows.throw _
  | some v => exact Follows.pure rfl

/-- What can be called can be called behind the past. -/
theorem isCallable_store (t : Store ω) (v : Value) :
    isCallable impl (p.store t) (v.shift p.size) = isCallable impl t v := by
  cases v with
  | object location =>
      simp only [Value.shift, isCallable]
      rw [Past.get?_store]
      cases t.get? location with
      | none => rfl
      | some c =>
          cases c with
          | object o => exact h.callable p.size o
          | _ => rfl
  | _ => rfl

/-- Classifying a path does not see the past. -/
theorem lookup_follows (scope : ScopeId) {path : String} (hpath : AvoidsImporter path) :
    Follows p.Around (IsImage (Operand.shift p)) (lookup impl scope path)
      (lookup impl (p.scopes.size + scope) path) := by
  unfold lookup
  refine Follows.bind (locate_follows h scope hpath) ?_
  intro found _ hfound
  obtain ⟨owner, name⟩ := found
  obtain ⟨rfl, hname⟩ := hfound
  refine Follows.bind (member_follows h hname) ?_
  intro found _ hfound
  obtain rfl := hfound
  cases found with
  | none => exact Follows.pure rfl
  | some v =>
      refine Follows.bind Past.world_follows ?_
      intro w w' hw
      refine Follows.pure ?_
      have hkind : classify impl (p.store w.store) name (v.shift p.size) =
          classify impl w.store name v := by
        unfold classify
        rw [isCallable_store h]
      rw [hw.store.1, hkind]
      rfl

end Lookup

/-! ## Resolving -/

mutual

/-- **Resolving builds anew.**  What an authored value resolves to does not see
the past. -/
theorem resolve_follows (h : impl.Local) (scope : ScopeId) : ∀ v : Literal,
    v.isYamlShaped = true → (∀ path ∈ v.paths, AvoidsImporter path) →
      Follows p.Around (IsImage (Value.shift p.size)) (resolve impl scope v)
        (resolve impl (p.scopes.size + scope) v)
  | .scalar s, _, _ => by
      rw [resolve, resolve]
      exact Follows.pure rfl
  | .reference path, _, hpaths => by
      rw [resolve, resolve]
      exact get_follows h scope (hpaths path List.mem_cons_self)
  | .tuple items, hshape, _ => by cases hshape
  | .list items, hshape, hpaths => by
      rw [resolve, resolve]
      refine Follows.bind (resolveAll_follows h scope items hshape hpaths) ?_
      intro xs _ hxs
      obtain rfl := hxs
      exact Past.code_follows (Past.newList_follows xs)
  | .map entries, hshape, hpaths => by
      rw [resolve, resolve]
      refine Follows.bind (resolveEntries_follows h scope entries hshape hpaths) ?_
      intro xs _ hxs
      obtain rfl := hxs
      exact Past.code_follows (Past.newMap_follows xs)

/-- The same of the items of a list, from the first on. -/
theorem resolveAll_follows (h : impl.Local) (scope : ScopeId) : ∀ vs : List Literal,
    Literal.isYamlShapedAll vs = true → (∀ path ∈ Literal.pathsAll vs, AvoidsImporter path) →
      Follows p.Around (IsImage (List.map (Value.shift p.size))) (resolveAll impl scope vs)
        (resolveAll impl (p.scopes.size + scope) vs)
  | [], _, _ => by
      rw [resolveAll, resolveAll]
      exact Follows.pure rfl
  | v :: vs, hshape, hpaths => by
      rw [Literal.isYamlShapedAll, Bool.and_eq_true] at hshape
      rw [resolveAll, resolveAll]
      refine Follows.bind (resolve_follows h scope v hshape.1
        fun path hmem => hpaths path (List.mem_append_left _ hmem)) ?_
      intro x _ hx
      obtain rfl := hx
      refine Follows.bind (resolveAll_follows h scope vs hshape.2
        fun path hmem => hpaths path (List.mem_append_right _ hmem)) ?_
      intro xs _ hxs
      obtain rfl := hxs
      exact Follows.pure rfl

/-- The same of the entries of a mapping, whose keys are scalars and stay as they are. -/
theorem resolveEntries_follows (h : impl.Local) (scope : ScopeId) : ∀ es : List (Key × Literal),
    Literal.isYamlShapedEntries es = true →
    (∀ path ∈ Literal.pathsEntries es, AvoidsImporter path) →
      Follows p.Around (IsImage (Entries.shift p.size (Value.shift p.size)))
        (resolveEntries impl scope es) (resolveEntries impl (p.scopes.size + scope) es)
  | [], _, _ => by
      rw [resolveEntries, resolveEntries]
      exact Follows.pure rfl
  | (k, v) :: es, hshape, hpaths => by
      rw [Literal.isYamlShapedEntries, Bool.and_eq_true, Bool.and_eq_true] at hshape
      rw [resolveEntries, resolveEntries]
      refine Follows.bind (resolve_follows h scope v hshape.1.2
        fun path hmem => hpaths path (List.mem_append_left _ hmem)) ?_
      intro x _ hx
      obtain rfl := hx
      refine Follows.bind (resolveEntries_follows h scope es hshape.2
        fun path hmem => hpaths path (List.mem_append_right _ hmem)) ?_
      intro xs _ hxs
      obtain rfl := hxs
      refine Follows.pure ?_
      rw [IsImage, Entries.shift, Entries.shift, List.map_cons,
        Literal.shift_of_isScalarKey hshape.1.1]

end

/-! ## Binding -/

section Assign

/-- Writing an item of a list does not see the past. -/
theorem writeItem_follows (location : Loc) (name : String) (v : Value) :
    Follows p.Around (IsImage id) (writeItem location name v : Exec ω Unit)
      (writeItem (p.size + location) name (v.shift p.size)) := by
  unfold writeItem
  cases Text.decimal? name.toList with
  | none => exact Follows.throw _
  | some i =>
      refine Follows.bind Past.world_follows ?_
      intro w w' hw
      rw [hw.store.1, Past.items_store]
      dsimp only
      rw [List.length_map]
      refine Follows.ite (Follows.throw _) (Follows.ite (Follows.throw _) ?_)
      have hput := Past.put_follows (p := p) location
        (c := .list ((w.store.items location).set i v)) nofun
      rw [Past.cell, List.map_set] at hput
      exact Past.code_follows hput

variable (h : impl.Local)
include h

/-- Writing an attribute of an object or a hook does not see the past. -/
theorem writeAttribute_follows (location : Loc) (name : String) (v : Value) :
    Follows p.Around (IsImage id) (writeAttribute impl location name v)
      (writeAttribute impl (p.size + location) name (v.shift p.size)) := by
  unfold writeAttribute
  refine Follows.bind Past.world_follows ?_
  intro w w' hw
  rw [hw.store.1, Past.get?_store]
  cases hcell : w.store.get? location with
  | none => exact Follows.throw _
  | some c =>
      cases c with
      | list items => exact Follows.throw _
      | map entries => exact Follows.throw _
      | object o => exact Past.code_follows (h.write p location o name v)
      | hook scope f attributes =>
          have hput := Past.put_follows (p := p) location
            (c := .hook scope f (setNamed attributes name v)) (by
              intro _ g _ heq
              cases heq
              exact hw.store.2 location scope f attributes hcell)
          rw [Past.cell, ← setNamed_shiftNamed] at hput
          exact Past.code_follows hput

/-- Setting a member does not see the past. -/
theorem write_follows {owner : Owner} {name : String} (hname : owner.AvoidsAs name) (v : Value) :
    Follows p.Around (IsImage id) (write impl owner name v)
      (write impl (owner.shift p) name (v.shift p.size)) := by
  have hrefused : ∀ u : Value, Follows p.Around (IsImage id)
      (throw (u.attributeFault name) : Exec ω Unit)
      (throw ((u.shift p.size).attributeFault name)) := by
    intro u
    rw [Value.attributeFault_shift]
    exact Follows.throw _
  unfold write
  cases owner with
  | scope id =>
      refine Follows.bind (Past.bindings_follows id) ?_
      intro b b' hb
      exact Past.setBindings_follows id (hb.setNamed (.inl rfl))
  | value owner =>
      cases owner with
      | map location =>
          refine Follows.bind Past.world_follows ?_
          intro w w' hw
          have hput := Past.put_follows (p := p) location
            (c := .map (Entries.set (w.store.entries location) (.str name) v)) nofun
          rw [Past.cell, ← Entries.set_shift] at hput
          rw [hw.store.1, Past.entries_store]
          exact Past.code_follows hput
      | list location =>
          exact Follows.ite (writeItem_follows location name v) (hrefused (.list location))
      | object location => exact writeAttribute_follows h location name v
      | scalar s =>
          cases s with
          | sentinel marker =>
              refine Follows.ite (Follows.throw _) ?_
              exact Past.code_follows (Past.mark_follows marker name v)
          | _ => exact Follows.throw _
      | reference path => exact hrefused (.reference path)
      | tuple items => exact hrefused (.tuple items)
      | frozen entries => exact hrefused (.frozen entries)
      | method owner method => exact hrefused (.method owner method)

/-- Whether a name is that of a bound constant has nothing to do with the past. -/
theorem isBoundConstant_follows {owner : Owner} {name : String} (hname : owner.AvoidsAs name) :
    Follows p.Around (IsImage id) (isBoundConstant impl owner name)
      (isBoundConstant impl (owner.shift p) name) := by
  unfold isBoundConstant
  refine Follows.ite ?_ (Follows.pure rfl)
  refine Follows.bind (memberAs_follows h hname) ?_
  intro found _ hfound
  obtain rfl := hfound
  exact Follows.pure (by cases found <;> rfl)

/-- Walking to the target of an assignment does not see the past. -/
theorem locateTarget_follows (scope : ScopeId) {path : String} (hpath : AvoidsImporter path) :
    Follows p.Around p.Located (locateTarget impl scope path)
      (locateTarget impl (p.scopes.size + scope) path) := by
  unfold locateTarget
  refine Follows.bind (Past.attempt_follows (locate_follows h scope hpath)) ?_
  intro r r' hr
  cases hr with
  | ok hfound => exact Follows.pure hfound
  | error fault => exact Follows.ite (Follows.throw _) (Follows.throw _)

/-- **An assignment does not see the past.** -/
theorem assign_follows (scope : ScopeId) {path : String} (hpath : AvoidsImporter path)
    (v : Value) :
    Follows p.Around (IsImage id) (assign impl scope path v)
      (assign impl (p.scopes.size + scope) path (v.shift p.size)) := by
  unfold assign
  refine Follows.bind (locateTarget_follows h scope hpath) ?_
  intro found _ hfound
  obtain ⟨owner, name⟩ := found
  obtain ⟨rfl, hname⟩ := hfound
  have hwritten := hname.spelling (Name.self_mem_spellings name)
  refine Follows.bind (isBoundConstant_follows h hwritten) ?_
  intro bound _ hbound
  obtain rfl := hbound
  refine Follows.guard ?_
  refine Follows.bind (Past.attempt_follows (write_follows h hwritten v)) ?_
  intro r r' hr
  cases hr with
  | error fault => exact Follows.ite (Follows.throw _) (Follows.throw _)
  | ok _ =>
      refine Follows.bind (Past.datumNow_follows h v) ?_
      intro datum _ hdatum
      obtain rfl := hdatum
      exact Past.log_follows _ _ _ _ _ _

end Assign

/-! ## Calling -/

section Call

variable (h : impl.Local)
include h

/-- **A hook does not see the past.** -/
theorem runScript_follows (scope : ScopeId) {script script' : Script ω}
    (hscript : p.ScriptFollows script script') :
    Follows p.Around (IsImage (Value.shift p.size)) (runScript impl scope script)
      (runScript impl (p.scopes.size + scope) script') := by
  induction hscript with
  | done hr => exact Follows.mk_pure hr
  | get hpath _ ih =>
      exact Follows.bind (Past.attempt_follows (get_follows h scope hpath)) ih
  | assign hpath _ ih =>
      refine Follows.bind (Past.attempt_follows (assign_follows h scope hpath _)) ?_
      intro r r' hr
      cases hr with
      | error fault => exact ih _
      | ok _ => exact ih _
  | names _ ih =>
      refine Follows.bind (R := IsImage id) ?_ ?_
      · refine Follows.bind (Past.bindings_follows scope) ?_
        intro b b' hb
        exact Follows.pure hb.names_eq
      · intro all all' hall
        cases hall
        exact ih _
  | code hstep _ ih =>
      exact Follows.bind (Past.attempt_follows (Past.code_follows hstep)) ih

omit h [Relocatable ω] in
/-- What a built-in value does not have cannot be called. -/
theorem callBuiltIn_of_ne {owner : Value} {name : String} (args : List Value)
    (hscalar : ∀ s, owner = .scalar s → name ≠ "upper")
    (hlist : ∀ location, owner = .list location → name ≠ "append") :
    (callBuiltIn owner name args : Code ω Value) = throw (.uncallableType owner.typeName) := by
  unfold callBuiltIn
  split
  · exact absurd rfl (hscalar _ rfl)
  · exact absurd rfl (hscalar _ rfl)
  · exact absurd rfl (hlist _ rfl)
  · exact absurd rfl (hlist _ rfl)
  · rfl

omit h in
/-- Calling a method of a built-in value does not see the past. -/
theorem callBuiltIn_follows (owner : Value) (name : String) (args : List Value) :
    Follows p.StoreAround (IsImage (Value.shift p.size))
      (callBuiltIn owner name args : Code ω Value)
      (callBuiltIn (owner.shift p.size) name (args.map (Value.shift p.size))) := by
  by_cases hscalar : ∃ s, owner = .scalar s ∧ name = "upper"
  · obtain ⟨s, rfl, rfl⟩ := hscalar
    cases args with
    | nil =>
        unfold callBuiltIn
        simp only [Value.shift_scalar, List.map_nil]
        cases s.text? with
        | none => exact Follows.throw _
        | some text => exact Follows.pure rfl
    | cons a rest =>
        unfold callBuiltIn
        simp only [Value.shift_scalar, List.map_cons, List.length_cons, List.length_map]
        exact Follows.throw _
  · by_cases hlist : ∃ location, owner = .list location ∧ name = "append"
    · obtain ⟨location, rfl, rfl⟩ := hlist
      unfold callBuiltIn
      simp only [Value.shift]
      rcases args with _ | ⟨a, _ | ⟨b, rest⟩⟩
      · exact Follows.throw _
      · refine Follows.bind Past.store_follows ?_
        intro t _ ht
        obtain ⟨rfl, -⟩ := ht
        have hput := Past.put_follows (p := p) location (c := .list (t.items location ++ [a])) nofun
        rw [Past.cell, List.map_append] at hput
        rw [Past.items_store]
        exact Follows.bind hput fun _ _ _ => Follows.pure rfl
      · simp only [List.map_cons, List.length_cons, List.length_map]
        exact Follows.throw _
    · have hscalar' : ∀ s, owner = .scalar s → name ≠ "upper" :=
        fun s howner hname => hscalar ⟨s, howner, hname⟩
      have hlist' : ∀ location, owner = .list location → name ≠ "append" :=
        fun location howner hname => hlist ⟨location, howner, hname⟩
      rw [callBuiltIn_of_ne args hscalar' hlist', callBuiltIn_of_ne, Value.typeName_shift]
      · exact Follows.throw _
      · intro s heq
        cases owner with
        | scalar u => exact hscalar' u rfl
        | _ => cases heq
      · intro location heq
        cases owner with
        | list l => exact hlist' l rfl
        | _ => cases heq

/-- **A call does not see the past.** -/
theorem call_follows (v : Value) (args : List Value) :
    Follows p.Around (IsImage (Value.shift p.size)) (call impl v args)
      (call impl (v.shift p.size) (args.map (Value.shift p.size))) := by
  unfold call
  refine Follows.bind Past.world_follows ?_
  intro w w' hw
  cases v with
  | object location =>
      simp only [Value.shift]
      rw [hw.store.1, Past.get?_store]
      cases hcell : w.store.get? location with
      | none => exact Follows.throw _
      | some c =>
          cases c with
          | list items => exact Follows.throw _
          | map entries => exact Follows.throw _
          | object o => exact Past.code_follows (h.call p location o args)
          | hook scope f attributes =>
              have hknown := hw.store.2 location scope f attributes hcell
              exact runScript_follows h scope (h.script p f args hknown)
  | method owner name =>
      cases owner with
      | object location =>
          simp only [Value.shift]
          rw [hw.store.1, Past.object?_store]
          cases w.store.object? location with
          | none => exact Follows.throw _
          | some o => exact Past.code_follows (h.invoke p location o name args)
      | _ => exact Past.code_follows (callBuiltIn_follows _ name args)
  | _ => exact Follows.throw _

/-- Awaiting an outcome does not see the past. -/
theorem awaited_follows (v : Value) :
    Follows p.Around (IsImage (Value.shift p.size)) (awaited impl v)
      (awaited impl (v.shift p.size)) := by
  unfold awaited
  cases v with
  | object location =>
      simp only [Value.shift]
      refine Follows.bind Past.world_follows ?_
      intro w w' hw
      rw [hw.store.1, Past.object?_store]
      cases w.store.object? location with
      | none => exact Follows.pure rfl
      | some o =>
          dsimp only [Option.map_some]
          have hawait := h.await? p o
          generalize impl.await? o = pending at hawait ⊢
          generalize impl.await? (Relocatable.shift p.size o) = pending' at hawait ⊢
          cases hawait with
          | none => exact Follows.pure rfl
          | some hpending => exact Past.code_follows hpending
  | _ => exact Follows.pure rfl

end Call

end Scope

/-! ## Features -/

namespace Feature

/-- The authored values of a feature. -/
def literals (f : Feature) : List Literal :=
  f.expected :: match f.action with
    | .call _ _ args kwargs _ => args ++ kwargs.map (·.2)
    | _ => []

/-- The paths that a feature names: its target, its operand, and those of its
references. -/
def paths (f : Feature) : List String :=
  f.assign?.toList ++ f.property?.toList ++ f.literals.flatMap Literal.paths

/-- The feature is made of YAML-shaped values and names no path of the importer. -/
structure IsPlain (f : Feature) : Prop where
  shape : ∀ v ∈ f.literals, v.isYamlShaped = true
  paths : ∀ path ∈ f.paths, AvoidsImporter path

namespace IsPlain

variable {f : Feature} (h : f.IsPlain)
include h

/-- The references in the values of a plain feature avoid the importer. -/
theorem literal_paths {v : Literal} (hv : v ∈ f.literals) : ∀ path ∈ v.paths, AvoidsImporter path :=
  fun path hpath => h.paths path
    (List.mem_append_right _ (List.mem_flatMap.mpr ⟨v, hv, hpath⟩))

/-- The target of a plain feature avoids the importer. -/
theorem assign {path : String} (hf : f.assign? = some path) : AvoidsImporter path :=
  h.paths path (List.mem_append_left _ (List.mem_append_left _ (by simp [hf])))

/-- The operand of a plain feature avoids the importer. -/
theorem property {path : String} (hf : f.property? = some path) : AvoidsImporter path :=
  h.paths path (List.mem_append_left _ (List.mem_append_right _ (by simp [hf])))

end IsPlain

end Feature

namespace Literal

/-- The paths of values are those of each of them. -/
theorem mem_pathsAll {vs : List Literal} {path : String} :
    path ∈ pathsAll vs ↔ ∃ v ∈ vs, path ∈ v.paths := by
  induction vs with
  | nil => simp [pathsAll]
  | cons v vs ih => rw [pathsAll, List.mem_append, ih, List.exists_mem_cons_iff]

/-- Keyword arguments are entries with texts for keys. -/
theorem isYamlShapedEntries_keywords {kwargs : List (String × Literal)}
    (h : ∀ kw ∈ kwargs, kw.2.isYamlShaped = true) :
    isYamlShapedEntries (kwargs.map fun kw => (Key.str kw.1, kw.2)) = true :=
  isYamlShapedEntries_iff.mpr (List.forall_mem_map.mpr fun kw hkw => ⟨rfl, h kw hkw⟩)

/-- The paths of keyword arguments are those of their values. -/
theorem mem_pathsEntries_keywords {kwargs : List (String × Literal)} {path : String} :
    path ∈ pathsEntries (kwargs.map fun kw => (Key.str kw.1, kw.2)) ↔
      ∃ kw ∈ kwargs, path ∈ kw.2.paths := by
  induction kwargs with
  | nil => simp [pathsEntries]
  | cons kw kwargs ih => rw [List.map_cons, pathsEntries, List.mem_append, ih,
      List.exists_mem_cons_iff]

end Literal

/-- The result with its outcome moved on. -/
def FeatureResult.shift (n : Nat) (r : FeatureResult) : FeatureResult :=
  { r with outcome := r.outcome.shift n }

/-- The expectation with the resolved value moved on. -/
def Expectation.shift (n : Nat) : Expectation → Expectation
  | .resolved v => .resolved (v.shift n)
  | .unresolved v => .unresolved v

/-- The outcome with its values moved on. -/
def Outcome.shift (n : Nat) (o : Outcome) : Outcome :=
  ⟨o.value.shift n, o.expected.shift n, o.fault⟩

/-- An outcome with the past in front of it; what could not be resolved is
authored data. -/
def Past.OutcomeAround (p : Past ω) (o o' : Outcome) : Prop :=
  o' = o.shift p.size ∧ ∀ v, o.expected = .unresolved v → v.isYamlShaped = true

namespace Run

variable (h : impl.Local)
include h

/-- Reading an operand does not see the past. -/
theorem readOperand_follows (scope : ScopeId) {property : String}
    (hpath : AvoidsImporter property) :
    Follows p.Around (IsImage (Value.shift p.size)) (readOperand impl scope property)
      (readOperand impl (p.scopes.size + scope) property) := by
  unfold readOperand
  refine Follows.bind (Scope.lookup_follows h scope hpath) ?_
  intro operand _ hoperand
  obtain rfl := hoperand
  exact Follows.guard (Follows.pure rfl)

omit h in
/-- Keyword arguments are gathered in a new mapping, or in none, with the past or without. -/
theorem keywordArgument_follows (kwargs : Entries Value) :
    Follows p.StoreAround (IsImage (List.map (Value.shift p.size)))
      (keywordArgument kwargs : Code ω (List Value))
      (keywordArgument (kwargs.shift p.size (Value.shift p.size))) := by
  unfold keywordArgument
  have hempty : List.isEmpty (Entries.shift p.size (Value.shift p.size) kwargs) =
      List.isEmpty kwargs := by cases kwargs <;> rfl
  rw [hempty]
  refine Follows.ite (Follows.pure rfl) ?_
  refine Follows.bind (Past.newMap_follows kwargs) ?_
  intro v _ hv
  obtain rfl := hv
  exact Follows.pure rfl

/-- Preparing a call does not see the past: its arguments are built anew. -/
theorem prepareCall_follows (scope : ScopeId) {property : String} {args : List Literal}
    {kwargs : List (String × Literal)} (hpath : AvoidsImporter property)
    (hshape : ∀ v ∈ args ++ kwargs.map (·.2), v.isYamlShaped = true)
    (hpaths : ∀ v ∈ args ++ kwargs.map (·.2), ∀ path ∈ v.paths, AvoidsImporter path) :
    Follows p.Around
      (IsImage fun call : Value × List Value =>
        (call.1.shift p.size, call.2.map (Value.shift p.size)))
      (prepareCall impl scope property args kwargs)
      (prepareCall impl (p.scopes.size + scope) property args kwargs) := by
  have hargs : Literal.isYamlShapedAll args = true :=
    Literal.isYamlShapedAll_iff.mpr fun v hv => hshape v (List.mem_append_left _ hv)
  have hargsPaths : ∀ path ∈ Literal.pathsAll args, AvoidsImporter path := by
    intro path hmem
    obtain ⟨v, hv, hpath⟩ := Literal.mem_pathsAll.mp hmem
    exact hpaths v (List.mem_append_left _ hv) path hpath
  have hkeyword : ∀ kw ∈ kwargs, kw.2 ∈ args ++ kwargs.map (·.2) :=
    fun kw hkw => List.mem_append_right _ (List.mem_map_of_mem hkw)
  have hkwargsPaths : ∀ path ∈ Literal.pathsEntries (kwargs.map fun kw => (Key.str kw.1, kw.2)),
      AvoidsImporter path := by
    intro path hmem
    obtain ⟨kw, hkw, hpath⟩ := Literal.mem_pathsEntries_keywords.mp hmem
    exact hpaths kw.2 (hkeyword kw hkw) path hpath
  have hkwargs := Literal.isYamlShapedEntries_keywords fun kw hkw => hshape kw.2 (hkeyword kw hkw)
  unfold prepareCall
  refine Follows.bind (Scope.lookup_follows h scope hpath) ?_
  intro operand _ hoperand
  obtain rfl := hoperand
  refine Follows.guard ?_
  refine Follows.bind (Scope.resolveAll_follows h scope args hargs hargsPaths) ?_
  intro xs _ hxs
  obtain rfl := hxs
  refine Follows.bind (Scope.resolveEntries_follows h scope _ hkwargs hkwargsPaths) ?_
  intro named _ hnamed
  obtain rfl := hnamed
  refine Follows.bind (Past.code_follows (keywordArgument_follows named)) ?_
  intro last _ hlast
  obtain rfl := hlast
  refine Follows.guard ?_
  refine Follows.bind (Past.log_follows _ _ _ _ _ _) fun _ _ _ => Follows.pure ?_
  rw [IsImage, List.map_append]
  rfl

/-- **Executing a feature does not see the past.** -/
theorem execute_follows (scope : ScopeId) {f : Feature} (hf : f.IsPlain) :
    Follows p.Around p.OutcomeAround (execute impl scope f)
      (execute impl (p.scopes.size + scope) f) := by
  have hexpected : f.expected ∈ f.literals := List.mem_cons_self
  have hoperate : ∀ expected : Value, Follows p.Around (IsImage (Value.shift p.size))
      (operate impl scope f.action expected)
      (operate impl (p.scopes.size + scope) f.action (expected.shift p.size)) := by
    intro expected
    obtain ⟨text, skip, action⟩ := f
    cases action with
    | comment text => exact Follows.pure rfl
    | bind target value => exact Follows.pure rfl
    | read assign property value => exact readOperand_follows h scope (hf.property rfl)
    | call assign property args kwargs value =>
        refine Follows.bind (prepareCall_follows h scope (hf.property rfl)
          (fun v hv => hf.shape v (List.mem_cons_of_mem _ hv))
          (fun v hv => hf.literal_paths (List.mem_cons_of_mem _ hv))) ?_
        intro prepared _ hprepared
        obtain ⟨callee, all⟩ := prepared
        obtain rfl := hprepared
        refine Follows.bind (Scope.call_follows h callee all) ?_
        intro v _ hv
        obtain rfl := hv
        exact Scope.awaited_follows h v
  unfold execute
  refine Follows.bind (Past.attempt_follows (Scope.resolve_follows h scope f.expected
    (hf.shape _ hexpected) (hf.literal_paths hexpected))) ?_
  intro r r' hr
  cases hr with
  | error fault =>
      refine Follows.pure ⟨rfl, ?_⟩
      intro v heq
      cases heq
      exact hf.shape _ hexpected
  | @ok expected _ hexpected =>
      cases hexpected
      refine Follows.bind (Past.attempt_follows (hoperate expected)) ?_
      intro r r' hr
      cases hr with
      | error fault => exact Follows.pure ⟨rfl, nofun⟩
      | ok hvalue =>
          cases hvalue
          exact Follows.pure ⟨rfl, nofun⟩

/-- Binding an outcome does not see the past. -/
theorem bindOutcome_follows (scope : ScopeId) {f : Feature} (hf : f.IsPlain) (v : Value) :
    Follows p.Around (IsImage id) (bindOutcome impl scope f v)
      (bindOutcome impl (p.scopes.size + scope) f (v.shift p.size)) := by
  unfold bindOutcome
  cases hassign : f.assign? with
  | none => exact Follows.pure rfl
  | some path => exact Scope.assign_follows h scope (hf.assign hassign) v

/-! ## Judging -/

/-- Comparing canonical forms does not see the past: the forms move with the data, and a local
implementation's equalities do not look at locations. -/
theorem canonicallyEqual_follows (actual expected : Datum) :
    Follows p.StoreAround (IsImage id) (canonicallyEqual impl actual expected)
      (canonicallyEqual impl (actual.shift p.size) (expected.shift p.size)) := by
  unfold canonicallyEqual
  rw [Datum.canonical_shift, Datum.canonical_shift]
  refine Follows.bind (Follows.mk_pure (ResultRel.map actual.canonical)) ?_
  intro a _ ha
  obtain rfl := ha
  refine Follows.bind (Follows.mk_pure (ResultRel.map expected.canonical)) ?_
  intro e _ he
  obtain rfl := he
  rw [Datum.strict_shift, Datum.strict_shift]
  exact h.equal a.strict e.strict

/-- A comparison does not see the past. -/
theorem compare_follows (actual expected : Datum) :
    Follows p.StoreAround (IsImage id) (compare impl actual expected)
      (compare impl (actual.shift p.size) (expected.shift p.size)) := by
  intro t s hs
  obtain ⟨hresult, hstore⟩ := canonicallyEqual_follows h actual expected t s hs
  rw [runFrom_compare, runFrom_compare, Datum.isOpen_shift, Datum.isError_shift]
  by_cases hopen : isOpen expected = true
  · rw [if_pos hopen, if_pos hopen]
    exact ⟨.ok rfl, hs⟩
  · rw [if_neg hopen, if_neg hopen]
    rcases hr : runFrom (canonicallyEqual impl actual expected) t with ⟨r, t₁⟩
    rcases hr' : runFrom (canonicallyEqual impl (actual.shift p.size) (expected.shift p.size)) s
      with ⟨r', s₁⟩
    rw [hr, hr'] at hresult hstore
    cases hresult with
    | ok hsame => exact ⟨.ok hsame, hstore⟩
    | error fault =>
        refine ⟨?_, hstore⟩
        dsimp only
        split
        · exact .ok rfl
        · exact .error fault

/-- The datum of an expectation moves with it. -/
theorem expectationDatum_follows {expectation : Expectation}
    (hshape : ∀ v, expectation = .unresolved v → v.isYamlShaped = true) :
    Follows p.Around (IsImage (Datum.shift p.size)) (expectationDatum impl expectation)
      (expectationDatum impl (expectation.shift p.size)) := by
  cases expectation with
  | resolved v => exact Past.datumNow_follows h v
  | unresolved v => exact Follows.pure (Literal.datum_shift p.size v (hshape v rfl)).symm

/-- The detail of a failure has no locations. -/
theorem failureDetail_follows {outcome outcome' : Outcome}
    (ho : p.OutcomeAround outcome outcome') :
    Follows p.Around (IsImage id) (failureDetail impl outcome) (failureDetail impl outcome') := by
  obtain ⟨rfl, hshape⟩ := ho
  obtain ⟨value, expected, fault⟩ := outcome
  unfold failureDetail
  cases fault with
  | some fault => exact Follows.pure rfl
  | none =>
      refine Follows.bind (Past.datumNow_follows h value) ?_
      intro actual _ hactual
      obtain rfl := hactual
      refine Follows.bind (expectationDatum_follows h hshape) ?_
      intro expected _ hexpected
      obtain rfl := hexpected
      rw [Datum.detail_shift, Datum.detail_shift]
      refine Follows.bind (R := IsImage id) (Follows.mk_pure ?_) ?_
      · cases actual.detail with
        | error fault => exact .error fault
        | ok text => exact .ok rfl
      intro a b hab
      cases hab
      refine Follows.bind (R := IsImage id) (Follows.mk_pure ?_) ?_
      · cases expected.detail with
        | error fault => exact .error fault
        | ok text => exact .ok rfl
      intro a b hab
      cases hab
      exact Follows.pure rfl

/-- **A judgement does not see the past.** -/
theorem judge_follows (f : Feature) {outcome outcome' : Outcome}
    (ho : p.OutcomeAround outcome outcome') :
    Follows p.Around (IsImage (FeatureResult.shift p.size)) (judge impl f outcome)
      (judge impl f outcome') := by
  have hdetail := failureDetail_follows h ho
  obtain ⟨rfl, hshape⟩ := ho
  unfold judge
  refine Follows.bind (Past.datumNow_follows h outcome.value) ?_
  intro actual _ hactual
  obtain rfl := hactual
  refine Follows.bind (expectationDatum_follows h hshape) ?_
  intro expected _ hexpected
  obtain rfl := hexpected
  refine Follows.bind (Past.code_follows (compare_follows h actual expected)) ?_
  intro same same' hsame
  cases hsame
  refine Follows.ite ?_ ?_
  · exact Follows.bind (Past.log_follows _ _ _ _ _ _) fun _ _ _ => Follows.pure rfl
  · refine Follows.bind hdetail ?_
    intro detail detail' hsame
    cases hsame
    exact Follows.bind (Past.log_follows _ _ _ _ _ _) fun _ _ _ => Follows.pure rfl

/-- **A feature does not see the past.** -/
theorem runFeature_follows (scope : ScopeId) {f : Feature} (hf : f.IsPlain) :
    Follows p.Around (IsImage (FeatureResult.shift p.size)) (runFeature impl scope f)
      (runFeature impl (p.scopes.size + scope) f) := by
  unfold runFeature
  refine Follows.ite (Follows.pure rfl) (Follows.ite ?_ ?_)
  · exact Follows.bind (Past.log_follows _ _ _ _ _ _) fun _ _ _ => Follows.pure rfl
  · refine Follows.bind (execute_follows h scope hf) ?_
    intro outcome outcome' ho
    have hvalue : outcome'.value = outcome.value.shift p.size := by rw [ho.1]; rfl
    rw [hvalue]
    refine Follows.bind (bindOutcome_follows h scope hf outcome.value) fun _ _ _ => ?_
    exact judge_follows h f ho

end Run

end Conformance
