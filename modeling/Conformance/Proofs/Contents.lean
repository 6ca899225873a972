import Conformance.Proofs.Attributes
import Conformance.Proofs.Lookups
import Conformance.Proofs.WrittenMember

/-!
# Contents of lists and mappings

What a list or a mapping contains is in the store, so that a write to one of them is seen
in every value that has it as a part.  `Store.Contains` says which these are, and
`Store.SameWithin` that no list or mapping that is a part of a value has other contents in
one store than in another.

An assignment changes the contents of one list or mapping at most, the one that its path
leads into (`assign_sameAt`).  Objects of the implementation run code of their own as their
attributes are read and set; `Implementation.KeepsContents` says that this code changes no
list and no mapping.
-/

namespace Conformance

variable {ω : Type}

/-- The cell is an object, of the implementation or a hook. -/
def Cell.IsObject : Cell ω → Prop
  | .object _ | .hook _ _ _ => True
  | .list _ | .map _ => False

namespace Store

/-! ## Equal contents -/

/-- The list or mapping at a location has the same content. -/
def SameAt (s s' : Store ω) (location : Loc) : Prop :=
  s'.items location = s.items location ∧ s'.entries location = s.entries location

/-- All lists and mappings have the same content. -/
def SameContents (s s' : Store ω) : Prop := ∀ location, s.SameAt s' location

variable {s s' s'' t t' : Store ω} {location other : Loc}

/-- One cell has one content. -/
theorem SameAt.of_get? (h : s'.get? location = s.get? location) : s.SameAt s' location := by
  unfold SameAt items entries
  rw [h]
  exact ⟨rfl, rfl⟩

theorem SameAt.symm (h : s.SameAt s' location) : s'.SameAt s location := ⟨h.1.symm, h.2.symm⟩

theorem SameAt.trans (h : s.SameAt s' location) (h' : s'.SameAt s'' location) :
    s.SameAt s'' location :=
  ⟨h'.1.trans h.1, h'.2.trans h.2⟩

instance : Std.Refl (SameContents : Store ω → Store ω → Prop) where
  refl _ _ := ⟨rfl, rfl⟩

instance : IsTrans (Store ω) SameContents where
  trans _ _ _ h h' location := (h location).trans (h' location)

/-- Writing a cell leaves the content of all others. -/
theorem sameAt_put_of_ne (hne : location ≠ other) (cell : Cell ω) :
    s.SameAt (s.put location cell) other :=
  .of_get? (get?_put_of_ne hne cell)

/-- Changing an object changes no list and no mapping. -/
theorem sameContents_put {cell cell' : Cell ω} (hcell : s.get? location = some cell)
    (hbefore : cell.IsObject) (hafter : cell'.IsObject) :
    s.SameContents (s.put location cell') := by
  intro other
  by_cases hother : location = other
  · subst hother
    unfold SameAt items entries
    rw [get?_put_self (lt_of_get? hcell), hcell]
    cases cell <;> cases cell' <;> first | exact ⟨rfl, rfl⟩ | exact hbefore.elim | exact hafter.elim
  · exact sameAt_put_of_ne hother cell'

/-! ## Parts of values -/

/-- The list or mapping at a location is the value, or a part of it.  An object is not
looked into, and a method not into its owner. -/
inductive Contains (s : Store ω) (location : Loc) : Value → Prop
  | list : Contains s location (.list location)
  | map : Contains s location (.map location)
  | item {outer : Loc} {v : Value} (hmem : v ∈ s.items outer) (h : Contains s location v) :
      Contains s location (.list outer)
  | entry {outer : Loc} {e : Key × Value} (hmem : e ∈ s.entries outer)
      (h : Contains s location e.2) : Contains s location (.map outer)
  | tuple {items : List Value} {v : Value} (hmem : v ∈ items) (h : Contains s location v) :
      Contains s location (.tuple items)
  | frozen {entries : List (Key × Value)} {e : Key × Value} (hmem : e ∈ entries)
      (h : Contains s location e.2) : Contains s location (.frozen entries)

/-- A value has the same parts where the contents are the same. -/
theorem Contains.of_sameContents {v : Value} (hsame : s.SameContents t)
    (h : t.Contains location v) : s.Contains location v := by
  induction h with
  | list => exact .list
  | map => exact .map
  | item hmem _ ih => exact .item ((hsame _).1 ▸ hmem) ih
  | entry hmem _ ih => exact .entry ((hsame _).2 ▸ hmem) ih
  | tuple hmem _ ih => exact .tuple hmem ih
  | frozen hmem _ ih => exact .frozen hmem ih

/-- No list or mapping that is the value or a part of it has another content. -/
def SameWithin (s s' : Store ω) (v : Value) : Prop :=
  ∀ location, s.Contains location v → s.SameAt s' location

namespace SameWithin

/-- The items of a list have the same content if the list has. -/
theorem item {v : Value} (h : s.SameWithin s' (.list location)) (hmem : v ∈ s.items location) :
    s.SameWithin s' v :=
  fun _ hpart => h _ (.item hmem hpart)

/-- So have the values of a mapping. -/
theorem entry {e : Key × Value} (h : s.SameWithin s' (.map location))
    (hmem : e ∈ s.entries location) : s.SameWithin s' e.2 :=
  fun _ hpart => h _ (.entry hmem hpart)

/-- The items of a tuple have the same content if the tuple has. -/
theorem tuple {items : List Value} {v : Value} (h : s.SameWithin s' (.tuple items))
    (hmem : v ∈ items) : s.SameWithin s' v :=
  fun _ hpart => h _ (.tuple hmem hpart)

/-- So have the values of a read-only mapping. -/
theorem frozen {entries : List (Key × Value)} {e : Key × Value}
    (h : s.SameWithin s' (.frozen entries)) (hmem : e ∈ entries) : s.SameWithin s' e.2 :=
  fun _ hpart => h _ (.frozen hmem hpart)

/-- Both stores may move on to others with the same contents. -/
theorem move {v : Value} (h : s.SameWithin s' v) (hs : s.SameContents t)
    (hs' : s'.SameContents t') : t.SameWithin t' v := by
  intro location hpart
  have hkept := h location (hpart.of_sameContents hs)
  exact (hs location).symm.trans (hkept.trans (hs' location))

end SameWithin

end Store

/-! ## Code that changes no list and no mapping -/

/-- Reading and setting attributes of objects changes no list and no mapping. -/
structure Implementation.KeepsContents (impl : Implementation ω) : Prop where
  read : ∀ location o name, Moves Store.SameContents (impl.read location o name)
  write : ∀ location o name v (s : Store ω), s.get? location = some (.object o) →
    s.SameContents (runFrom (impl.write location o name v) s).2

/-- Sample objects keep their attributes to themselves. -/
theorem Sample.implementation_keepsContents (packages : List Package) :
    (implementation packages).KeepsContents where
  read := by
    intro location o name s
    change s.SameContents (runFrom (readAttribute location o name) s).2
    rw [runFrom_readAttribute]
    exact Std.Refl.refl s
  write := by
    intro location o name v s hobject
    change s.SameContents (runFrom (writeAttribute location o name v) s).2
    rcases hset : runFrom (writeAttribute location o name v) s with ⟨fault | ⟨⟩, s'⟩
    · rw [writeAttribute_error hset]
      exact Std.Refl.refl s
    · rw [writeAttribute_ok hset]
      exact Store.sameContents_put hobject trivial trivial

/-! ## Assignments -/

namespace Owner

/-- Where the list or mapping lives whose members are set through the owner. -/
def contents? : Owner → Option Loc
  | .value (.list location) | .value (.map location) => some location
  | _ => none

end Owner

namespace Scope

variable {impl : Implementation ω} {scope : ScopeId} {path name : String} {owner : Owner}
  {v : Value} {w w' : World ω} {location : Loc}

/-- **A write changes the contents of its owner** and of no other list or mapping. -/
theorem write_sameAt (h : impl.KeepsContents)
    (hset : runFrom (write impl owner name v) w = (.ok (), w'))
    (hother : owner.contents? ≠ some location) : w.store.SameAt w'.store location := by
  cases write_ok hset with
  | scope id => exact Store.SameAt.of_get? rfl
  | entry location => exact Store.sameAt_put_of_ne (fun heq => hother (congrArg some heq)) _
  | item => exact Store.sameAt_put_of_ne (fun heq => hother (congrArg some heq)) _
  | @object _ o store hobject hwrite =>
      have hkept := h.write _ o name v w.store hobject
      rw [hwrite] at hkept
      exact hkept location
  | @hook _ scope function attributes hhook =>
      have hobject : (Cell.hook scope function (setNamed attributes name v)).IsObject := trivial
      exact Store.sameContents_put hhook trivial hobject location
  | mark => exact Store.SameAt.of_get? rfl

variable (impl) in
/-- The path leads to a member of the list or mapping at a location. -/
def LeadsInto (w : World ω) (scope : ScopeId) (path : String) (location : Loc) : Prop :=
  ∃ owner name, (runFrom (locate impl scope path) w).1 = .ok (owner, name) ∧
    owner.contents? = some location

/-- **An assignment changes the contents** of the list or mapping that its path leads into,
and of no other. -/
theorem assign_sameAt (h : impl.KeepsContents)
    (hassigned : runFrom (assign impl scope path v) w = (.ok (), w'))
    (hother : ¬ LeadsInto impl w scope path location) : w.store.SameAt w'.store location := by
  obtain ⟨owner, name, w₁, w₂, w₃, log, hfound, hfree, hset, rfl⟩ := assign_ok impl hassigned
  have hlooks := StoreMoved.looks h.read
  obtain ⟨s₁, hwalked, hwalk⟩ := locate_kept hlooks scope path w
  obtain ⟨s₂, hchecked, hcheck⟩ := isBoundConstant_kept hlooks owner name w₁
  rw [hfound] at hwalked
  rw [hfree] at hchecked
  cases hwalked
  cases hchecked
  have hwritten := write_sameAt h hset fun howner =>
    hother ⟨owner, name, congrArg Prod.fst hfound, howner⟩
  exact (hwalk location).trans ((hcheck location).trans hwritten)

end Scope

end Conformance
