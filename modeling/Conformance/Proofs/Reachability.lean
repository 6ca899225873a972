import Conformance.Proofs.Attributes
import Conformance.Proofs.Lookups

/-!
# What code can reach

A value mentions the locations that stand in it, and a cell those in its content.  What an
object of the implementation leads to is known to the implementation alone, so that it is a
parameter here, `leadsTo`.  From a value one reaches what it mentions, and from there what the
cells mention.

Code changes only what it can reach: this is `Implementation.ReadsWithin` for the code that
reads attributes.  A set of locations that mentions stay in (`Store.Closed`) then holds all
that a lookup sees, and what the code leaves is described by `Store.Sees`: the set has grown by
cells that are new, and no other cell that was there has changed.
-/

namespace Conformance

/-! ## Mentions -/

/-- The location stands in the key. -/
inductive Key.Mentions (location : Loc) : Key → Prop
  | object : Mentions location (.object location)
  | tuple {items : List Key} {k : Key} (hk : k ∈ items) (h : Mentions location k) :
      Mentions location (.tuple items)

/-- The location stands in the value. -/
inductive Value.Mentions (location : Loc) : Value → Prop
  | list : Mentions location (.list location)
  | map : Mentions location (.map location)
  | object : Mentions location (.object location)
  | item {items : List Value} {v : Value} (hv : v ∈ items) (h : Mentions location v) :
      Mentions location (.tuple items)
  | key {entries : List (Key × Value)} {e : Key × Value} (he : e ∈ entries)
      (h : e.1.Mentions location) : Mentions location (.frozen entries)
  | entry {entries : List (Key × Value)} {e : Key × Value} (he : e ∈ entries)
      (h : Mentions location e.2) : Mentions location (.frozen entries)
  | owner {owner : Value} {name : String} (h : Mentions location owner) :
      Mentions location (.method owner name)

/-- The value mentions locations of a set only. -/
def Value.Within (P : Loc → Prop) (v : Value) : Prop := ∀ location, v.Mentions location → P location

variable {ω : Type} {leadsTo : ω → Loc → Prop} {P Q P' Q' : Loc → Prop}

/-- The location stands in the cell, or the object in it leads there. -/
inductive Cell.Mentions (leadsTo : ω → Loc → Prop) (location : Loc) : Cell ω → Prop
  | item {items : List Value} {v : Value} (hv : v ∈ items) (h : v.Mentions location) :
      Mentions leadsTo location (.list items)
  | key {entries : Entries Value} {e : Key × Value} (he : e ∈ entries)
      (h : e.1.Mentions location) : Mentions leadsTo location (.map entries)
  | entry {entries : Entries Value} {e : Key × Value} (he : e ∈ entries)
      (h : e.2.Mentions location) : Mentions leadsTo location (.map entries)
  | object {o : ω} (h : leadsTo o location) : Mentions leadsTo location (.object o)
  | function {scope : Nat} {function : ω} {attributes : List (String × Value)}
      (h : leadsTo function location) : Mentions leadsTo location (.hook scope function attributes)
  | set {scope : Nat} {function : ω} {attributes : List (String × Value)}
      {e : String × Value} (he : e ∈ attributes) (h : e.2.Mentions location) :
      Mentions leadsTo location (.hook scope function attributes)

namespace Value.Within

variable {v : Value}

theorem mono (hPQ : ∀ location, P location → Q location) (h : v.Within P) : v.Within Q :=
  fun location hv => hPQ location (h location hv)

/-- An attribute of a value mentions nothing that the value does not. -/
theorem of_attribute {u : Value} {name : String} (h : v.Within P)
    (hu : v.attribute? name = some u) : u.Within P := by
  intro location hmentions
  unfold Value.attribute? at hu
  split at hu
  all_goals cases hu
  all_goals cases hmentions
  all_goals exact h location ‹_›

end Value.Within

/-! ## Reaching -/

namespace Store

variable {s s' s'' : Store ω} {v : Value} {location : Loc}

/-- The location is mentioned by the value, or by a cell that is reached from it. -/
inductive Reaches (leadsTo : ω → Loc → Prop) (s : Store ω) (v : Value) : Loc → Prop
  | mentioned {location : Loc} (h : v.Mentions location) : Reaches leadsTo s v location
  | through {location further : Loc} {cell : Cell ω} (h : Reaches leadsTo s v location)
      (hcell : s.get? location = some cell) (hmentions : cell.Mentions leadsTo further) :
      Reaches leadsTo s v further

/-- A set of cells, closed under mentioning; what is set on the markers is within it. -/
structure Closed (leadsTo : ω → Loc → Prop) (P : Loc → Prop) (s : Store ω) : Prop where
  lt : ∀ location, P location → location < s.cells.size
  mentioned : ∀ location cell, P location → s.get? location = some cell →
    ∀ further, cell.Mentions leadsTo further → P further
  marks : ∀ marker, ∀ e ∈ s.marks marker, e.2.Within P

/-- What is reached from a value within a closed set lies in the set. -/
theorem Reaches.within (h : s.Reaches leadsTo v location) (hclosed : s.Closed leadsTo P)
    (hv : v.Within P) : P location := by
  induction h with
  | mentioned hmentions => exact hv _ hmentions
  | through _ hcell hmentions ih => exact hclosed.mentioned _ _ ih hcell _ hmentions

/-- Code that can reach the locations of `P` left a store in which it can reach those of `P'`:
the additional ones are new, and the cells that it could not reach are as they were. -/
structure Sees (leadsTo : ω → Loc → Prop) (P P' : Loc → Prop) (s s' : Store ω) : Prop where
  mono : ∀ location, P location → P' location
  fresh : ∀ location, P' location → P location ∨ s.cells.size ≤ location
  size_le : s.cells.size ≤ s'.cells.size
  kept : ∀ location, location < s.cells.size → ¬ P location → s'.get? location = s.get? location
  closed : s'.Closed leadsTo P'

/-- A closed part of the store sees itself. -/
theorem Sees.refl (h : s.Closed leadsTo P) : s.Sees leadsTo P P s where
  mono := fun _ h => h
  fresh := fun _ h => Or.inl h
  size_le := Nat.le_refl _
  kept := fun _ _ _ => rfl
  closed := h

/-- What is seen later is seen from before. -/
theorem Sees.trans (h : s.Sees leadsTo P P' s') (h' : s'.Sees leadsTo P' Q s'') :
    s.Sees leadsTo P Q s'' where
  mono := fun location hP => h'.mono location (h.mono location hP)
  fresh := by
    intro location hQ
    rcases h'.fresh location hQ with hP' | hnew
    · exact h.fresh location hP'
    · exact Or.inr (Nat.le_trans h.size_le hnew)
  size_le := Nat.le_trans h.size_le h'.size_le
  kept := by
    intro location hlt hP
    have hP' : ¬ P' location := by
      intro hP'
      rcases h.fresh location hP' with hold | hnew
      · exact hP hold
      · exact absurd hnew (Nat.not_le_of_lt hlt)
    rw [h'.kept location (Nat.lt_of_lt_of_le hlt h.size_le) hP', h.kept location hlt hP]
  closed := h'.closed

/-- The cells that were there are there after a new one is made. -/
theorem get?_alloc_of_lt (hlt : location < s.cells.size) (cell : Cell ω) :
    (s.alloc cell).2.get? location = s.get? location := by
  unfold alloc get?
  simp [Array.getElem?_push, Nat.ne_of_lt hlt]

theorem get?_alloc_self (s : Store ω) (cell : Cell ω) :
    (s.alloc cell).2.get? s.cells.size = some cell := by
  unfold alloc get?
  simp

theorem size_alloc (s : Store ω) (cell : Cell ω) :
    (s.alloc cell).2.cells.size = s.cells.size + 1 :=
  Array.size_push cell

/-- The items of a list stand in its cell. -/
theorem exists_of_mem_items (h : v ∈ s.items location) :
    ∃ items, s.get? location = some (.list items) ∧ v ∈ items := by
  unfold items at h
  split at h
  · next items hcell => exact ⟨items, hcell, h⟩
  · exact absurd h List.not_mem_nil

/-- The entries of a mapping stand in its cell. -/
theorem exists_of_mem_entries {e : Key × Value} (h : e ∈ s.entries location) :
    ∃ entries, s.get? location = some (.map entries) ∧ e ∈ entries := by
  unfold entries at h
  split at h
  · next entries hcell => exact ⟨entries, hcell, h⟩
  · exact absurd h List.not_mem_nil

/-- A new cell is out of reach of all that could be reached before. -/
theorem Sees.alloc (h : s.Closed leadsTo P) (cell : Cell ω) :
    s.Sees leadsTo P P (s.alloc cell).2 where
  mono := fun _ h => h
  fresh := fun _ h => Or.inl h
  size_le := by
    rw [size_alloc]
    exact Nat.le_succ _
  kept := fun location hlt _ => get?_alloc_of_lt hlt cell
  closed :=
    { lt := by
        intro location hP
        rw [size_alloc]
        exact Nat.lt_succ_of_lt (h.lt location hP)
      mentioned := by
        intro location other hP hcell
        rw [get?_alloc_of_lt (h.lt location hP)] at hcell
        exact h.mentioned location other hP hcell
      marks := h.marks }

end Store

/-- Reading an attribute changes only what can be reached, and gives what can be reached
afterwards: `P` stands for what the reader can reach. -/
def Implementation.ReadsWithin (impl : Implementation ω) (leadsTo : ω → Loc → Prop) : Prop :=
  ∀ (P : Loc → Prop) (s : Store ω) (location : Loc) (o : ω) (name : String),
    s.Closed leadsTo P → P location → s.get? location = some (.object o) →
    ∃ P', s.Sees leadsTo P P' (runFrom (impl.read location o name) s).2 ∧
      ∀ v, (runFrom (impl.read location o name) s).1 = .ok v → v.Within P'

/-! ## Lookups -/

/-- The members of the owner are within a set. -/
def Owner.Within (P : Loc → Prop) (w : World ω) : Owner → Prop
  | .scope id => ∀ e ∈ w.bindings id, e.2.Within P
  | .value v => v.Within P

/-- Every location that stands in a cell, on a marker or in the scope exists. -/
structure World.Grounded (leadsTo : ω → Loc → Prop) (w : World ω) (scope : ScopeId) : Prop where
  store : w.store.Closed leadsTo (· < w.store.cells.size)
  bindings : (Owner.scope scope).Within (· < w.store.cells.size) w

/-- The world has changed in its store alone, and there as code leaves it that can reach the
locations of a set. -/
structure World.Sees (leadsTo : ω → Loc → Prop) (P P' : Loc → Prop) (w w' : World ω) : Prop where
  world : ∃ store, w' = { w with store }
  store : w.store.Sees leadsTo P P' w'.store

namespace World.Sees

variable {w w' w'' : World ω}

theorem refl (h : w.store.Closed leadsTo P) : World.Sees leadsTo P P w w :=
  ⟨⟨w.store, rfl⟩, .refl h⟩

theorem trans (h : World.Sees leadsTo P P' w w') (h' : World.Sees leadsTo P' Q w' w'') :
    World.Sees leadsTo P Q w w'' := by
  refine ⟨?_, h.store.trans h'.store⟩
  obtain ⟨store, rfl⟩ := h.world
  obtain ⟨store', rfl⟩ := h'.world
  exact ⟨store', rfl⟩

/-- An owner in sight stays in sight. -/
theorem owner {owner : Owner} (h : World.Sees leadsTo P P' w w') (howner : owner.Within P w) :
    owner.Within P' w' := by
  obtain ⟨store, rfl⟩ := h.world
  cases owner with
  | scope id => exact fun e he => (howner e he).mono h.store.mono
  | value v => exact Value.Within.mono h.store.mono howner

end World.Sees

/-- From where `P` can be reached, the step changes only that, and `R` holds of what can be reached
then, of the world and of what the step gives. -/
def Confined {α : Type} (leadsTo : ω → Loc → Prop) (P : Loc → Prop) (w : World ω) (step : Exec ω α)
    (R : (Loc → Prop) → World ω → α → Prop) : Prop :=
  ∃ P', World.Sees leadsTo P P' w (runFrom step w).2 ∧
    ∀ a, (runFrom step w).1 = .ok a → R P' (runFrom step w).2 a

namespace Confined

variable {α β : Type} {w : World ω} {R : (Loc → Prop) → World ω → α → Prop}
  {S : (Loc → Prop) → World ω → β → Prop}

/-- A step that changes nothing. -/
theorem unchanged {step : Exec ω α} {result : Except Fault α} (hclosed : w.store.Closed leadsTo P)
    (hstep : runFrom step w = (result, w)) (h : ∀ a, result = .ok a → R P w a) :
    Confined leadsTo P w step R := by
  refine ⟨P, ?_, ?_⟩
  · rw [hstep]
    exact .refl hclosed
  · rw [hstep]
    exact h

/-- A sequence is confined if its second part is, in all that the first may leave in sight. -/
theorem bind {step : Exec ω α} {next : α → Exec ω β} (h : Confined leadsTo P w step R)
    (hnext : ∀ P' w' a, World.Sees leadsTo P P' w w' → R P' w' a →
      Confined leadsTo P' w' (next a) S) : Confined leadsTo P w (step >>= next) S := by
  obtain ⟨P', hsees, hresult⟩ := h
  unfold Confined
  rw [runFrom_bind]
  rcases hrun : runFrom step w with ⟨fault | a, w₁⟩
  · rw [hrun] at hsees
    exact ⟨P', hsees, nofun⟩
  · rw [hrun] at hsees hresult
    obtain ⟨P'', hlater, hgiven⟩ := hnext P' w₁ a hsees (hresult a rfl)
    exact ⟨P'', hsees.trans hlater, hgiven⟩

/-- A look at the world. -/
theorem look {next : World ω → Exec ω α} (h : Confined leadsTo P w (next w) R) :
    Confined leadsTo P w (Exec.world >>= next) R := by
  unfold Confined
  rw [runFrom_bind_of_ok (runFrom_world w)]
  exact h

end Confined

namespace Scope

variable {impl : Implementation ω} {w : World ω} {owner : Owner} {name path : String}

/-- What is found in an owner is within what can be reached. -/
def FoundWithin (P : Loc → Prop) (_ : World ω) (found : Option Value) : Prop :=
  ∀ v, found = some v → v.Within P

variable (h : impl.ReadsWithin leadsTo)
include h

/-- An attribute of an object in sight is in sight. -/
theorem objectAttribute_confined {location : Loc} (hclosed : w.store.Closed leadsTo P)
    (hlocation : P location) :
    Confined leadsTo P w (objectAttribute impl location name) FoundWithin := by
  unfold objectAttribute
  refine .look ?_
  split
  · next o hcell =>
      obtain ⟨P', hsees, hgiven⟩ := h P w.store location o name hclosed hlocation hcell
      have hread : Confined leadsTo P w (Exec.attempt (Exec.code (impl.read location o name)))
          fun P' _ result => ∀ v, result = .ok v → v.Within P' := by
        refine ⟨P', ⟨⟨_, rfl⟩, hsees⟩, fun result hresult v hv => ?_⟩
        cases hresult
        exact hgiven v hv
      refine .bind hread fun P' w' result hlater hwithin => ?_
      cases result with
      | ok v =>
          refine .unchanged hlater.store.closed rfl fun a ha => ?_
          cases ha
          exact fun u hu => Option.some.inj hu ▸ hwithin v rfl
      | error fault =>
          dsimp only
          split
          · exact .unchanged hlater.store.closed rfl fun a ha => by cases ha; exact nofun
          · exact .unchanged hlater.store.closed rfl nofun
  · next scope function attributes hcell =>
      refine .unchanged hclosed rfl fun a ha v hv further hmentions => ?_
      cases ha
      obtain ⟨e, he, rfl⟩ := mem_of_named? hv
      exact hclosed.mentioned location _ hlocation hcell further (.set he hmentions)
  · exact .unchanged hclosed rfl fun a ha => by cases ha; exact nofun

omit h in
/-- A member of an owner that can be reached can be reached. -/
theorem within_of_hasMember {v : Value} (hclosed : w.store.Closed leadsTo P)
    (howner : owner.Within P w) (hv : owner.HasMember w v) : v.Within P := by
  cases hv with
  | binding he => exact howner _ he
  | @entry location e he =>
      obtain ⟨entries, hcell, hentries⟩ := Store.exists_of_mem_entries he
      have hmentioned := hclosed.mentioned location _ (howner location .map) hcell
      exact fun further hmentions => hmentioned further (.entry hentries hmentions)
  | frozen he => exact fun further hmentions => howner further (.entry he hmentions)
  | @item location v hv =>
      obtain ⟨items, hcell, hitems⟩ := Store.exists_of_mem_items hv
      have hmentioned := hclosed.mentioned location _ (howner location .list) hcell
      exact fun further hmentions => hmentioned further (.item hitems hmentions)
  | component hv => exact fun further hmentions => howner further (.item hv hmentions)
  | set he => exact hclosed.marks _ _ he
  | own hv => exact Value.Within.of_attribute howner hv

/-- **Reading a member** of an owner that can be reached changes only what can be reached, and
gives what can be reached. -/
theorem memberAs_confined (hclosed : w.store.Closed leadsTo P) (howner : owner.Within P w) :
    Confined leadsTo P w (memberAs impl owner name) FoundWithin := by
  by_cases hobject : ∃ location, owner = .value (.object location)
  · obtain ⟨location, rfl⟩ := hobject
    exact objectAttribute_confined h hclosed (howner location .object)
  · rw [not_exists] at hobject
    by_cases hname : owner.IsSequence ∧ Name.IsBareDigits name
    · exact .unchanged hclosed (memberAs_of_digits hname.1 hname.2) nofun
    · obtain ⟨found, hread, hmember⟩ := memberAs_found impl w hobject hname
      refine .unchanged hclosed hread fun a ha v hv => ?_
      cases ha
      exact within_of_hasMember hclosed howner (hmember v hv)

/-- So is a member under any of several spellings. -/
theorem firstMember_confined (names : List String) (hclosed : w.store.Closed leadsTo P)
    (howner : owner.Within P w) :
    Confined leadsTo P w (firstMember impl owner names) FoundWithin := by
  induction names generalizing P w with
  | nil => exact .unchanged hclosed rfl fun a ha => by cases ha; exact nofun
  | cons name names ih =>
      unfold firstMember
      refine .bind (memberAs_confined h hclosed howner) fun P' w' found hsees hfound => ?_
      cases found with
      | none => exact ih hsees.store.closed (hsees.owner howner)
      | some v =>
          refine .unchanged hsees.store.closed rfl fun a ha => ?_
          cases ha
          exact hfound

/-- **Walking a path** from an owner that can be reached. -/
theorem walk_confined (names : List String) (walked : List String)
    (hclosed : w.store.Closed leadsTo P) (howner : owner.Within P w) :
    Confined leadsTo P w (walk impl owner walked names)
      fun P' w' found => found.1.Within P' w' := by
  induction names generalizing P w owner walked with
  | nil =>
      refine .unchanged hclosed rfl fun a ha => ?_
      cases ha
      exact howner
  | cons name names ih =>
      cases names with
      | nil =>
          refine .unchanged hclosed rfl fun a ha => ?_
          cases ha
          exact howner
      | cons next rest =>
          unfold walk
          refine .bind (firstMember_confined h _ hclosed howner) fun P' w' found hsees hfound => ?_
          cases found with
          | none => exact .unchanged hsees.store.closed rfl fun a ha => by cases ha
          | some v =>
              have hv : (Owner.value v).Within P' w' := hfound v rfl
              exact ih _ hsees.store.closed hv

/-- **Looking up a path** changes only what can be reached, and gives what can be reached. -/
theorem get_confined {scope : ScopeId} (path : String) (hclosed : w.store.Closed leadsTo P)
    (hscope : (Owner.scope scope).Within P w) :
    Confined leadsTo P w (get impl scope path) fun P' _ v => v.Within P' := by
  have hlocate : Confined leadsTo P w (locate impl scope path)
      fun P' w' found => found.1.Within P' w' := by
    unfold locate
    split
    · exact .unchanged hclosed rfl nofun
    · exact walk_confined h _ _ hclosed hscope
  unfold get
  refine .bind hlocate fun P' w' found hsees howner => ?_
  have hmember := firstMember_confined h (Name.spellings found.2) hsees.store.closed howner
  refine .bind hmember fun P'' w'' member hlater hwithin => ?_
  cases member with
  | none => exact .unchanged hlater.store.closed rfl nofun
  | some v =>
      refine .unchanged hlater.store.closed rfl fun a ha => ?_
      cases ha
      exact hwithin v rfl

end Scope

/-! ## The sample implementation -/

namespace Sample

/-- Where a sample object leads: to what is set on it, and from an instance to its class. -/
def leads : Object → Loc → Prop
  | .class_ _ attributes, location => ∃ e ∈ attributes, e.2.Mentions location
  | .instance_ c attributes, location =>
    location = c.location ∨ ∃ e ∈ attributes, e.2.Mentions location
  | .bag b, location | .module _ b _, location => ∃ e ∈ b.attributes, e.2.Mentions location
  | .pending (.value v), location | .pending (.again v), location => v.Mentions location
  | _, _ => False

theorem Bag.found_mem {b : Bag} {missing : Fault} {name : String} {v : Value}
    (h : b.found missing name = .ok v) : ∃ e ∈ b.attributes, e.2 = v := by
  unfold found at h
  split at h
  · cases h
  · split at h
    · next u hu =>
        cases h
        exact mem_of_named? hu
    · cases h

/-- What is set on a class stands in its cell. -/
theorem exists_of_mem_membersOf {s : Store Object} {c : ClassName} {e : String × Value}
    (h : e ∈ membersOf s c) : ∃ d attributes,
      s.get? c.location = some (.object (.class_ d attributes)) ∧ e ∈ attributes := by
  unfold membersOf Store.object? at h
  split at h
  · next d attributes hmembers =>
      split at hmembers
      · next hcell =>
          cases hmembers
          exact ⟨d, attributes, hcell, h⟩
      · cases hmembers
  · exact absurd h List.not_mem_nil

/-- **Sample objects** are read within what they lead to. -/
theorem implementation_readsWithin (packages : List Package) :
    (implementation packages).ReadsWithin leads := by
  intro P s location o name hclosed hlocation hcell
  change ∃ P', s.Sees leads P P' (runFrom (readAttribute location o name) s).2 ∧
    ∀ v, (runFrom (readAttribute location o name) s).1 = .ok v → v.Within P'
  rw [runFrom_readAttribute]
  refine ⟨P, .refl hclosed, fun v hv further hmentions => ?_⟩
  have hown := hclosed.mentioned location _ hlocation hcell
  cases o with
  | class_ c attributes =>
      unfold found at hv
      dsimp only at hv
      split at hv
      · next u hu =>
          cases hv
          obtain ⟨e, he, rfl⟩ := mem_of_named? hu
          exact hown further (.object ⟨e, he, hmentions⟩)
      · cases hv
  | instance_ c attributes =>
      unfold found at hv
      dsimp only at hv
      split at hv
      · next u hu =>
          cases hv
          obtain ⟨e, he, rfl⟩ := mem_of_named? hu
          exact hown further (.object (Or.inr ⟨e, he, hmentions⟩))
      · have hclass : P c.location := hown _ (.object (Or.inl rfl))
        unfold inheritedFrom at hv
        split at hv
        · next u hu =>
            cases hv
            obtain ⟨e, he, rfl⟩ := mem_of_named? hu
            obtain ⟨d, members, hmembers, he⟩ := exists_of_mem_membersOf he
            exact hclosed.mentioned _ _ hclass hmembers further (.object ⟨e, he, hmentions⟩)
        · split at hv
          · cases hv
            cases hmentions with
            | owner howner =>
                cases howner
                exact hlocation
          · cases hv
  | bag b =>
      obtain ⟨e, he, rfl⟩ := Bag.found_mem hv
      exact hown further (.object ⟨e, he, hmentions⟩)
  | module module b exports =>
      obtain ⟨e, he, rfl⟩ := Bag.found_mem hv
      exact hown further (.object ⟨e, he, hmentions⟩)
  | _ => cases hv

end Sample

end Conformance
