import Conformance.Proofs.Binding
import Conformance.Proofs.Relocation
import Mathlib.Data.List.Forall2
import Conformance.Run.Specification

/-!
# Worlds with a past

What ran before leaves cells and scopes behind.  `Past.store` puts the cells of
a past in front of a store and moves the store's own locations on behind them;
`Past.Around` does the same for worlds, up to the importer, which is the same
value wherever it is bound.

A step follows another if it does in the presence of a past what the other does
without.  The relation is kept by every way of putting steps together, and the
past is left as it was.
-/

namespace Conformance

/-- Objects that can live at other locations. -/
class Relocatable (ω : Type) where
  /-- The object with every location in it moved on. -/
  shift : Nat → ω → ω
  /-- The functions that may be bound as hooks. -/
  isHook : ω → Prop

/-! ## Stores -/

/-- Values under names, with every location moved on. -/
def shiftNamed (n : Nat) (entries : List (String × Value)) : List (String × Value) :=
  entries.map fun e => (e.1, e.2.shift n)

/-- A name leads to the moved value. -/
theorem named?_shiftNamed (n : Nat) (entries : List (String × Value)) (name : String) :
    named? (shiftNamed n entries) name = (named? entries name).map (Value.shift n) :=
  named?_map (Value.shift n) entries name

/-- Setting a name and moving the values commute. -/
theorem setNamed_shiftNamed (n : Nat) (entries : List (String × Value)) (name : String)
    (v : Value) :
    setNamed (shiftNamed n entries) name (v.shift n) = shiftNamed n (setNamed entries name v) :=
  setNamed_map (Value.shift n) entries name v

/-- The cells and scopes that were there before. -/
structure Past (ω : Type) where
  cells : Array (Cell ω)
  scopes : Array Bindings

/-- Every hook in the store is one of the functions that may be bound as hooks. -/
def Store.HooksKnown {ω : Type} [Relocatable ω] (t : Store ω) : Prop :=
  ∀ location scope f attributes,
    t.get? location = some (.hook scope f attributes) → Relocatable.isHook f

/-- Attributes of the markers. -/
abbrev Marks := Sentinel → List (String × Value)

/-- The attributes of the markers hold no locations. -/
def Marks.LocationFree (marks : Marks) : Prop :=
  ∀ marker n, shiftNamed n (marks marker) = marks marker

/-- No attributes hold no locations. -/
theorem Marks.none_locationFree : Marks.LocationFree fun _ => [] := fun _ _ => rfl

namespace Past

variable {ω : Type} [Relocatable ω] (p : Past ω)

/-- How far the past moves locations on. -/
def size : Nat := p.cells.size

/-- The content of a cell, moved on. -/
def cell : Cell ω → Cell ω
  | .list items => .list (items.map (Value.shift p.size))
  | .map entries => .map (entries.shift p.size (Value.shift p.size))
  | .object o => .object (Relocatable.shift p.size o)
  | .hook scope f attributes => .hook (p.scopes.size + scope) f (shiftNamed p.size attributes)

/-- The store with the past in front of it. -/
def store (t : Store ω) : Store ω :=
  ⟨p.cells ++ t.cells.map p.cell, fun marker => shiftNamed p.size (t.marks marker)⟩

section Store

variable {p} (t : Store ω)

/-- A cell of the store lies behind the past, with its content moved on. -/
theorem get?_store (location : Loc) :
    (p.store t).get? (p.size + location) = (t.get? location).map p.cell := by
  unfold Store.get? store size
  rw [Array.getElem?_append_right (Nat.le_add_right _ _), Nat.add_sub_cancel_left,
    Array.getElem?_map]

/-- The past lies where it lay. -/
theorem get?_store_past {location : Loc} (hlocation : location < p.size) :
    (p.store t).get? location = p.cells[location]? := by
  unfold Store.get? store
  exact Array.getElem?_append_left hlocation

/-- The cells of the past come on top of the store's own. -/
theorem size_store : (p.store t).cells.size = p.size + t.cells.size := by
  simp [store, size]

/-- The items of a list, behind the past. -/
theorem items_store (location : Loc) :
    (p.store t).items (p.size + location) = (t.items location).map (Value.shift p.size) := by
  unfold Store.items
  rw [get?_store]
  cases t.get? location with
  | none => rfl
  | some c => cases c <;> rfl

/-- The entries of a mapping, behind the past. -/
theorem entries_store (location : Loc) :
    (p.store t).entries (p.size + location) =
      (t.entries location).shift p.size (Value.shift p.size) := by
  unfold Store.entries
  rw [get?_store]
  cases t.get? location with
  | none => rfl
  | some c => cases c <;> rfl

/-- An object, behind the past. -/
theorem object?_store (location : Loc) :
    (p.store t).object? (p.size + location) =
      (t.object? location).map (Relocatable.shift p.size) := by
  unfold Store.object?
  rw [get?_store]
  cases t.get? location with
  | none => rfl
  | some c => cases c <;> rfl

/-- A new cell comes last, with the past or without. -/
theorem alloc_store (c : Cell ω) :
    (p.store t).alloc (p.cell c) = (p.size + (t.alloc c).1, p.store (t.alloc c).2) := by
  simp [Store.alloc, store, size]

/-- Writing a cell behind the past leaves the past as it was. -/
theorem put_store (location : Loc) (c : Cell ω) :
    (p.store t).put (p.size + location) (p.cell c) = p.store (t.put location c) := by
  unfold Store.put store size
  simp only [Store.mk.injEq, and_true]
  rw [Array.setIfInBounds_append_right (Nat.le_add_right _ _), Nat.add_sub_cancel_left,
    Array.map_setIfInBounds]

/-- Markers lie in no cell; an attribute that is set on one is moved on like all others. -/
theorem mark_store (marker : Sentinel) (name : String) (v : Value) :
    (p.store t).mark marker name (v.shift p.size) = p.store (t.mark marker name v) := by
  unfold Store.mark store
  simp only [Store.mk.injEq, true_and]
  funext m
  by_cases h : m = marker
  · rw [if_pos h, if_pos h, setNamed_shiftNamed]
  · rw [if_neg h, if_neg h]

/-- The store without cells of its own is the past. -/
theorem store_nil {s : Store ω} (h : Marks.LocationFree s.marks) (scopes : Array Bindings) :
    (Past.mk s.cells scopes).store ⟨#[], s.marks⟩ = s := by
  unfold store
  obtain ⟨cells, marks⟩ := s
  have hmarks : (fun marker => shiftNamed cells.size (marks marker)) = marks :=
    funext fun marker => h marker cells.size
  simp [size, hmarks]

end Store

end Past

namespace Store

variable {ω : Type} [Relocatable ω] {t : Store ω}

/-- A store without cells has no hooks. -/
theorem HooksKnown.nil (marks : Marks) : (⟨#[], marks⟩ : Store ω).HooksKnown := by
  intro location scope f attributes h
  simp [Store.get?] at h

/-- A new cell that is no hook of its own making leaves the hooks known. -/
theorem HooksKnown.alloc (h : t.HooksKnown) {c : Cell ω}
    (hc : ∀ scope f attributes, c = .hook scope f attributes → Relocatable.isHook f) :
    (t.alloc c).2.HooksKnown := by
  intro location scope f attributes hget
  unfold Store.alloc Store.get? at hget
  rw [Array.getElem?_push] at hget
  split at hget
  · exact hc scope f attributes (Option.some.inj hget)
  · exact h location scope f attributes hget

/-- New content of a cell that is no hook of its own making leaves them known. -/
theorem HooksKnown.put (h : t.HooksKnown) (location : Loc) {c : Cell ω}
    (hc : ∀ scope f attributes, c = .hook scope f attributes → Relocatable.isHook f) :
    (t.put location c).HooksKnown := by
  intro other scope f attributes hget
  unfold Store.put Store.get? at hget
  rw [Array.getElem?_setIfInBounds] at hget
  split at hget
  · split at hget
    · exact hc scope f attributes (Option.some.inj hget)
    · cases hget
  · exact h other scope f attributes hget

/-- The attribute of a marker is no hook. -/
theorem HooksKnown.mark (h : t.HooksKnown) (marker : Sentinel) (name : String) (v : Value) :
    (t.mark marker name v).HooksKnown := h

end Store

/-! ## Following -/

/-- Related results, or the same fault. -/
inductive ResultRel {α β : Type} (R : α → β → Prop) : Except Fault α → Except Fault β → Prop
  | ok {a : α} {b : β} (h : R a b) : ResultRel R (.ok a) (.ok b)
  | error (fault : Fault) : ResultRel R (.error fault) (.error fault)

/-- The second of two things is what a function makes of the first. -/
def IsImage {α β : Type} (f : α → β) (a : α) (b : β) : Prop := b = f a

/-- From related states, two steps come to related results and related states. -/
def Follows {σ σ' α β : Type} (S : σ → σ' → Prop) (R : α → β → Prop)
    (step : ExceptT Fault (StateM σ) α) (step' : ExceptT Fault (StateM σ') β) : Prop :=
  ∀ s s', S s s' → ResultRel R (runFrom step s).1 (runFrom step' s').1 ∧
    S (runFrom step s).2 (runFrom step' s').2

namespace ResultRel

variable {α β : Type} {R : α → β → Prop}

/-- What a result is related to succeeds if it does. -/
theorem exists_of_ok {a : α} {r : Except Fault α} {r' : Except Fault β} (h : ResultRel R r r')
    (hr : r = .ok a) : ∃ b, r' = .ok b ∧ R a b := by
  cases h with
  | ok h =>
      cases hr
      exact ⟨_, rfl, h⟩
  | error fault => cases hr

/-- Mapping a result relates it to what it is mapped to. -/
theorem map {f : α → β} (r : Except Fault α) : ResultRel (IsImage f) r (r.map f) := by
  cases r with
  | error fault => exact .error fault
  | ok a => exact .ok rfl

end ResultRel

namespace Follows

section

variable {σ σ' α β γ δ : Type} {S : σ → σ' → Prop} {R : α → β → Prop} {P : γ → δ → Prop}

/-- Doing nothing follows doing nothing. -/
theorem pure {a : α} {b : β} (h : R a b) :
    Follows S R (Pure.pure a : ExceptT Fault (StateM σ) α)
      (Pure.pure b : ExceptT Fault (StateM σ') β) :=
  fun _ _ hs => ⟨.ok h, hs⟩

/-- A fault follows the same fault. -/
theorem throw (fault : Fault) :
    Follows S R (throw fault : ExceptT Fault (StateM σ) α)
      (throw fault : ExceptT Fault (StateM σ') β) :=
  fun _ _ hs => ⟨.error fault, hs⟩

/-- A result that touches no state follows a related one. -/
theorem mk_pure {r : Except Fault α} {r' : Except Fault β} (h : ResultRel R r r') :
    Follows S R (ExceptT.mk (Pure.pure r) : ExceptT Fault (StateM σ) α)
      (ExceptT.mk (Pure.pure r') : ExceptT Fault (StateM σ') β) :=
  fun _ _ hs => ⟨h, hs⟩

/-- A sequence follows a sequence part by part. -/
theorem bind {step : ExceptT Fault (StateM σ) α} {step' : ExceptT Fault (StateM σ') β}
    {next : α → ExceptT Fault (StateM σ) γ} {next' : β → ExceptT Fault (StateM σ') δ}
    (hstep : Follows S R step step') (hnext : ∀ a b, R a b → Follows S P (next a) (next' b)) :
    Follows S P (step >>= next) (step' >>= next') := by
  intro s s' hs
  obtain ⟨hresult, hstate⟩ := hstep s s' hs
  rw [runFrom_bind, runFrom_bind]
  rcases hr : runFrom step s with ⟨r, t⟩
  rcases hr' : runFrom step' s' with ⟨r', t'⟩
  rw [hr, hr'] at hresult hstate
  cases hresult with
  | ok h => exact hnext _ _ h t t' hstate
  | error fault => exact ⟨.error fault, hstate⟩

/-- A choice follows a choice on the same condition, branch by branch. -/
theorem ite {c : Prop} [Decidable c] {first second : ExceptT Fault (StateM σ) α}
    {first' second' : ExceptT Fault (StateM σ') β} (hfirst : Follows S R first first')
    (hsecond : Follows S R second second') :
    Follows S R (if c then first else second) (if c then first' else second') := by
  by_cases hc : c
  · rw [if_pos hc, if_pos hc]
    exact hfirst
  · rw [if_neg hc, if_neg hc]
    exact hsecond

/-- A guard follows a guard on the same condition. -/
theorem guard {c : Prop} [Decidable c] {fault : Fault}
    {next : Unit → ExceptT Fault (StateM σ) α} {next' : Unit → ExceptT Fault (StateM σ') β}
    (h : Follows S R (next ()) (next' ())) :
    Follows S R (if c then MonadExcept.throw fault >>= next else next ())
      (if c then MonadExcept.throw fault >>= next' else next' ()) :=
  ite (fun _ _ hs => ⟨.error fault, hs⟩) h

end

end Follows

/-! ## Code with a past -/

namespace Past

variable {ω : Type} [Relocatable ω] (p : Past ω)

/-- The second store is the first with the past in front of it, and hooks are
known. -/
def StoreAround (t s : Store ω) : Prop := s = p.store t ∧ t.HooksKnown

variable {p}

/-- Looking at the store shows the past in front. -/
theorem store_follows : Follows p.StoreAround p.StoreAround Code.store Code.store :=
  fun _ _ hs => ⟨.ok hs, hs⟩

/-- A new cell is found at its location behind the past. -/
theorem alloc_follows {c : Cell ω}
    (hc : ∀ scope f attributes, c = .hook scope f attributes → Relocatable.isHook f) :
    Follows p.StoreAround (IsImage (p.size + ·)) (Code.alloc c) (Code.alloc (p.cell c)) := by
  intro t _ ht
  obtain ⟨rfl, hooks⟩ := ht
  have halloc := alloc_store (p := p) t c
  exact ⟨.ok (congrArg Prod.fst halloc), congrArg Prod.snd halloc, hooks.alloc hc⟩

/-- Writing a cell does not touch the past. -/
theorem put_follows (location : Loc) {c : Cell ω}
    (hc : ∀ scope f attributes, c = .hook scope f attributes → Relocatable.isHook f) :
    Follows p.StoreAround (IsImage id) (Code.put location c)
      (Code.put (p.size + location) (p.cell c)) := by
  intro t _ ht
  obtain ⟨rfl, hooks⟩ := ht
  exact ⟨.ok rfl, put_store t location c, hooks.put location hc⟩

/-- Nor does setting an attribute of a marker. -/
theorem mark_follows (marker : Sentinel) (name : String) (v : Value) :
    Follows p.StoreAround (IsImage id) (Code.mark marker name v)
      (Code.mark marker name (v.shift p.size)) := by
  intro t _ ht
  obtain ⟨rfl, hooks⟩ := ht
  exact ⟨.ok rfl, mark_store t marker name v, hooks.mark marker name v⟩

/-- A new list is the moved list of the moved items. -/
theorem newList_follows (items : List Value) :
    Follows p.StoreAround (IsImage (Value.shift p.size)) (Code.newList items)
      (Code.newList (items.map (Value.shift p.size))) := by
  refine Follows.bind (alloc_follows (c := .list items) nofun) ?_
  intro location _ hlocation
  obtain rfl := hlocation
  exact Follows.pure rfl

/-- A new mapping is the moved mapping of the moved entries. -/
theorem newMap_follows (entries : Entries Value) :
    Follows p.StoreAround (IsImage (Value.shift p.size)) (Code.newMap entries)
      (Code.newMap (entries.shift p.size (Value.shift p.size))) := by
  refine Follows.bind (alloc_follows (c := .map entries) nofun) ?_
  intro location _ hlocation
  obtain rfl := hlocation
  exact Follows.pure rfl

end Past

/-! ## Worlds with a past -/

namespace Past

section Bindings

variable {ω : Type} (p : Past ω)

/-- The same names in the same order, with values moved on; under the importer's
name the value itself may stand. -/
def BindingsAround (b b' : Bindings) : Prop :=
  List.Forall₂
    (fun e e' => e'.1 = e.1 ∧
      (e'.2 = e.2.shift p.cells.size ∨ e.1 = Run.importName ∧ e'.2 = e.2)) b b'

namespace BindingsAround

variable {p} {b b' : Bindings}

/-- Moving all values on is one such correspondence. -/
theorem shiftNamed (b : Bindings) : p.BindingsAround b (shiftNamed p.cells.size b) := by
  unfold BindingsAround Conformance.shiftNamed
  rw [List.forall₂_map_right_iff]
  exact List.forall₂_same.mpr fun e _ => ⟨rfl, .inl rfl⟩

/-- A name other than the importer's has its value moved on. -/
theorem named? (h : p.BindingsAround b b') {name : String} (hname : name ≠ Run.importName) :
    named? b' name = (named? b name).map (Value.shift p.cells.size) := by
  induction h with
  | nil => rfl
  | @cons e e' rest rest' he hrest ih =>
      obtain ⟨n, v⟩ := e
      obtain ⟨n', v'⟩ := e'
      obtain ⟨hn, hv⟩ := he
      dsimp only at hn hv
      subst hn
      rw [named?_cons, named?_cons]
      by_cases h : n' = name
      · rw [if_pos h, if_pos h, hv.resolve_right fun himport => hname (h ▸ himport.1)]
        rfl
      · rw [if_neg h, if_neg h, ih]

/-- Setting a name in both keeps the correspondence. -/
theorem setNamed (h : p.BindingsAround b b') {name : String} {v v' : Value}
    (hv : v' = v.shift p.cells.size ∨ name = Run.importName ∧ v' = v) :
    p.BindingsAround (setNamed b name v) (setNamed b' name v') := by
  induction h with
  | nil => exact .cons ⟨rfl, hv⟩ .nil
  | @cons e e' rest rest' he hrest ih =>
      obtain ⟨n, u⟩ := e
      obtain ⟨n', u'⟩ := e'
      obtain ⟨hn, hu⟩ := he
      dsimp only at hn hu
      subst hn
      unfold Conformance.setNamed
      by_cases h : n' = name
      · rw [if_pos h, if_pos h]
        exact .cons ⟨rfl, h ▸ hv⟩ hrest
      · rw [if_neg h, if_neg h]
        exact .cons ⟨rfl, hu⟩ ih

/-- The names and their order are the same. -/
theorem names_eq (h : p.BindingsAround b b') : b'.map (·.1) = b.map (·.1) := by
  induction h with
  | nil => rfl
  | cons he _ ih => rw [List.map_cons, List.map_cons, he.1, ih]

end BindingsAround

end Bindings

variable {ω : Type} [Relocatable ω] (p : Past ω)

/-- The second world is the first with the past in front of it. -/
structure Around (w w' : World ω) : Prop where
  store : p.StoreAround w.store w'.store
  size : w'.scopes.size = p.scopes.size + w.scopes.size
  past : ∀ i < p.scopes.size, w'.bindings i = p.scopes.getD i []
  own : ∀ i : Nat, p.BindingsAround (w.bindings i) (w'.bindings (p.scopes.size + i))

/-- Every world is around the one that has nothing but the attributes of its
markers, if these hold no locations. -/
theorem Around.start {w : World ω} (h : Marks.LocationFree w.store.marks) :
    (Past.mk w.store.cells w.scopes).Around (World.ofStore ⟨#[], w.store.marks⟩) w where
  store := ⟨(store_nil h w.scopes).symm, Store.HooksKnown.nil _⟩
  size := rfl
  past := fun _ _ => rfl
  own := fun i => by
    have hbound : w.bindings (w.scopes.size + i) = [] := by
      unfold World.bindings
      exact Array.getD_eq_getD_getElem? .. ▸ by simp
    change List.Forall₂ _ [] (w.bindings (w.scopes.size + i))
    rw [hbound]
    exact .nil

variable {p} {w w' : World ω} {α β : Type} {R : α → β → Prop}

/-- Looking at the world shows the past in front. -/
theorem world_follows : Follows p.Around p.Around Exec.world Exec.world :=
  fun _ _ hw => ⟨.ok hw, hw⟩

/-- A scope is found behind those of the past, with its names and its values moved on. -/
theorem bindings_follows (scope : ScopeId) :
    Follows p.Around p.BindingsAround (Exec.bindings scope)
      (Exec.bindings (p.scopes.size + scope)) :=
  fun _ _ hw => ⟨.ok (hw.own scope), hw⟩

/-- Code in a world follows code. -/
theorem code_follows {c : Code ω α} {c' : Code ω β} (h : Follows p.StoreAround R c c') :
    Follows p.Around R (Exec.code c) (Exec.code c') := by
  intro w w' hw
  obtain ⟨hresult, hstore⟩ := h w.store w'.store hw.store
  rw [runFrom_code, runFrom_code]
  exact ⟨hresult, hstore, hw.size, hw.past, hw.own⟩

/-- An attempt comes to related results, faults included. -/
theorem attempt_follows {step : Exec ω α} {step' : Exec ω β} (h : Follows p.Around R step step') :
    Follows p.Around (ResultRel R) (Exec.attempt step) (Exec.attempt step') :=
  fun w w' hw => ⟨.ok (h w w' hw).1, (h w w' hw).2⟩

/-- What is logged makes no difference to either side. -/
theorem log_follows (level level' : Level) (channel channel' : Channel) (message message' : String) :
    Follows p.Around (IsImage id) (Exec.log level channel message)
      (Exec.log level' channel' message') :=
  fun _ _ hw => ⟨.ok rfl, hw.store, hw.size, hw.past, hw.own⟩

/-- A new scope comes behind all scopes of the past. -/
theorem newScope_follows {b b' : Bindings} (hb : p.BindingsAround b b') :
    Follows p.Around (IsImage (p.scopes.size + ·)) (Exec.newScope b) (Exec.newScope b') := by
  intro w w' hw
  have hsize := hw.size
  refine ⟨.ok hsize, hw.store, ?_, ?_, ?_⟩
  · simp [hsize, Nat.add_assoc]
  · intro i hi
    have hne : i ≠ w'.scopes.size := by omega
    refine (World.bindings_push w' b' i).trans ?_
    rw [if_neg hne, hw.past i hi]
  · intro i
    have hiff : p.scopes.size + i = w'.scopes.size ↔ i = w.scopes.size := by omega
    change p.BindingsAround (World.bindings { w with scopes := w.scopes.push b } i)
      (World.bindings { w' with scopes := w'.scopes.push b' } (p.scopes.size + i))
    simp only [World.bindings_push, hiff]
    split
    · exact hb
    · exact hw.own i

/-- New bindings of a scope leave the scopes of the past as they were. -/
theorem setBindings_follows (scope : Nat) {b b' : Bindings} (hb : p.BindingsAround b b') :
    Follows p.Around (IsImage id) (Exec.setBindings scope b)
      (Exec.setBindings (p.scopes.size + scope) b') := by
  intro w w' hw
  have hsize := hw.size
  refine ⟨.ok rfl, hw.store, ?_, ?_, ?_⟩
  · simp [hsize]
  · intro i hi
    have hother : ¬ (p.scopes.size + scope = i ∧ p.scopes.size + scope < w'.scopes.size) := by omega
    refine (World.bindings_set w' (p.scopes.size + scope) i b').trans ?_
    rw [if_neg hother, hw.past i hi]
  · intro i
    have hiff : (p.scopes.size + scope = p.scopes.size + i ∧
        p.scopes.size + scope < w'.scopes.size) ↔ (scope = i ∧ scope < w.scopes.size) := by omega
    change p.BindingsAround
      (World.bindings { w with scopes := w.scopes.setIfInBounds scope b } i)
      (World.bindings { w' with scopes := w'.scopes.setIfInBounds (p.scopes.size + scope) b' }
        (p.scopes.size + i))
    simp only [World.bindings_set, hiff]
    split
    · exact hb
    · exact hw.own i

end Past

end Conformance
