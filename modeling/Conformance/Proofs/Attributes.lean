import Conformance.Proofs.Binding
import Conformance.Sample.Implementation

/-!
# Attributes of objects

An implementation reads and sets the attributes of its objects by code of its own.  What
an assignment can promise rests on that code, and here it is said of it:

* `RefusesWithin R`: reading an attribute, and refusing to set one, moves the store no
  further than the preorder `R`.
* `KeepsAttributes looksAt`: reading changes nothing and depends on the cells that an
  object looks at alone; setting an attribute changes the object's own cell alone, and
  the attribute then reads as what it was set to.
* `SeparatesAttributes looksAt`: moreover no other attribute reads otherwise.

The sample implementation has all of them: an instance looks at its class, and no other
object looks at a cell but its own.
-/

namespace Conformance

/-! ## Cells -/

namespace Store

variable {ω : Type} {s : Store ω} {location other : Loc} {cell : Cell ω}

theorem lt_of_get? (h : s.get? location = some cell) : location < s.cells.size :=
  (Array.getElem?_eq_some_iff.mp h).1

/-- A cell that was changed. -/
theorem get?_put_self (h : location < s.cells.size) (cell : Cell ω) :
    (s.put location cell).get? location = some cell := by
  unfold get? put
  simp [h]

/-- The other cells. -/
theorem get?_put_of_ne (hne : location ≠ other) (cell : Cell ω) :
    (s.put location cell).get? other = s.get? other := by
  unfold get? put
  simp [hne]

theorem items_put_self (h : location < s.cells.size) (items : List Value) :
    (s.put location (.list items)).items location = items := by
  unfold Store.items
  rw [get?_put_self h]

theorem entries_put_self (h : location < s.cells.size) (entries : Entries Value) :
    (s.put location (.map entries)).entries location = entries := by
  unfold Store.entries
  rw [get?_put_self h]

end Store

/-! ## What the code of an implementation does -/

namespace Implementation

variable {ω : Type}

/-- Reading an attribute of the implementation, and refusing to set one, moves the store
by the relation. -/
structure RefusesWithin (impl : Implementation ω) (R : Store ω → Store ω → Prop) : Prop where
  read : ∀ location o name, Moves R (impl.read location o name)
  refused : ∀ location o name v s s' fault,
    runFrom (impl.write location o name v) s = (.error fault, s') → R s s'

/-- An attribute that is set changes the object's own cell, and reads as the value if it
can be read.  Reading only looks: at the object, and at the cells the object looks at. -/
structure KeepsAttributes (impl : Implementation ω) (looksAt : ω → Loc → Prop) : Prop where
  read_unchanged : ∀ location o name, Moves Eq (impl.read location o name)
  read_cells : ∀ location o name s s', (∀ cell, looksAt o cell → s'.get? cell = s.get? cell) →
    (runFrom (impl.read location o name) s').1 = (runFrom (impl.read location o name) s).1
  written : ∀ location o name v s s', s.get? location = some (.object o) →
    runFrom (impl.write location o name v) s = (.ok (), s') →
    ∃ o', s' = s.put location (.object o') ∧
      ∀ u, (runFrom (impl.read location o' name) s').1 = .ok u → u = v

/-- Moreover, an attribute that is set leaves the others of the object alone. -/
structure SeparatesAttributes (impl : Implementation ω) (looksAt : ω → Loc → Prop) : Prop
    extends impl.KeepsAttributes looksAt where
  others : ∀ location o o' name other v s, s.get? location = some (.object o) →
    runFrom (impl.write location o name v) s = (.ok (), s.put location (.object o')) →
    other ≠ name →
    (runFrom (impl.read location o' other) (s.put location (.object o'))).1 =
      (runFrom (impl.read location o other) s).1

end Implementation

/-! ## The sample implementation -/

namespace Sample

/-- What reading an attribute of a bag gives. -/
def Bag.found (b : Bag) (missing : Fault) (name : String) : Except Fault Value :=
  if b.unreadable.contains name then .error (.raised .other "RuntimeError" ("cannot read " ++ name))
  else match named? b.attributes name with
    | some v => .ok v
    | none => .error missing

theorem Bag.runFrom_read (b : Bag) (missing : Fault) (name : String) (s : Store Object) :
    runFrom (b.read missing name) s = (b.found missing name, s) := by
  unfold read found
  split
  · rfl
  · cases named? b.attributes name with
    | none => rfl
    | some v => rfl

/-- The attributes set on a class, as things are in a store. -/
def membersOf (s : Store Object) (c : ClassName) : List (String × Value) :=
  match s.object? c.location with
  | some (.class_ _ attributes) => attributes
  | _ => []

/-- What reading an attribute that an instance does not have itself gives. -/
def inheritedFrom (members : List (String × Value)) (location : Loc) (c : ClassName)
    (name : String) : Except Fault Value :=
  match named? members name with
  | some v => .ok v
  | none =>
    if c = .counter && counterMethods.contains name then .ok (.method (.object location) name)
    else .error (.noAttribute c.name name)

theorem runFrom_inherited (location : Loc) (c : ClassName) (name : String) (s : Store Object) :
    runFrom (inherited location c name) s =
      (inheritedFrom (membersOf s c) location c name, s) := by
  have hmembers : runFrom (classAttributes c) s = (.ok (membersOf s c), s) := by
    have hstore : runFrom (Code.store : Step (Store Object)) s = (.ok s, s) := rfl
    unfold classAttributes membersOf
    rw [runFrom_bind_of_ok hstore]
    rcases s.object? c.location with _ | o
    · rfl
    · cases o <;> rfl
  unfold inherited inheritedFrom
  rw [runFrom_bind_of_ok hmembers]
  cases named? (membersOf s c) name with
  | some v => rfl
  | none =>
      dsimp only
      split
      · rfl
      · rfl

/-- The class of an instance is looked at. -/
def looksAt : Object → Loc → Prop
  | .instance_ c _, location => location = c.location
  | _, _ => False

/-- What reading an attribute gives. -/
def found (s : Store Object) (location : Loc) (o : Object) (name : String) : Except Fault Value :=
  match o with
  | .class_ c attributes =>
    match named? attributes name with
    | some v => .ok v
    | none => .error (.noAttribute ("type object '" ++ c.name ++ "'") name)
  | .instance_ c attributes =>
    match named? attributes name with
    | some v => .ok v
    | none => inheritedFrom (membersOf s c) location c name
  | .bag b => b.found (.noAttribute "Obj" name) name
  | .module module b _ =>
    b.found (.raised .attribute "AttributeError"
      ("module '" ++ module ++ "' has no attribute '" ++ name ++ "'")) name
  | o => .error (.noAttribute o.typeName name)

/-- **Reading an attribute** of a sample object changes nothing. -/
theorem runFrom_readAttribute (location : Loc) (o : Object) (name : String) (s : Store Object) :
    runFrom (readAttribute location o name) s = (found s location o name, s) := by
  unfold readAttribute found
  cases o with
  | class_ c attributes =>
      dsimp only
      cases named? attributes name with
      | none => rfl
      | some v => rfl
  | instance_ c attributes =>
      dsimp only
      cases named? attributes name with
      | none => exact runFrom_inherited location c name s
      | some v => rfl
  | bag b => exact b.runFrom_read _ name s
  | module module b exports => exact b.runFrom_read _ name s
  | _ => rfl

/-- What an object reads as depends on the cells it looks at. -/
theorem found_congr {s s' : Store Object} {location : Loc} {o : Object} {name : String}
    (h : ∀ cell, looksAt o cell → s'.get? cell = s.get? cell) :
    found s' location o name = found s location o name := by
  cases o with
  | instance_ c attributes =>
      have hclass : membersOf s' c = membersOf s c := by
        unfold membersOf Store.object?
        rw [h c.location rfl]
      unfold found
      simp only [hclass]
  | _ => rfl

/-- A bag that takes an attribute has it set, and guards the same names. -/
theorem Bag.write_ok {b b' : Bag} {name : String} {v : Value} {s s' : Store Object}
    (h : runFrom (b.write name v) s = (.ok b', s')) :
    b' = { b with attributes := setNamed b.attributes name v } ∧ s' = s := by
  unfold write at h
  split at h
  · cases h
  · split at h
    · cases h
    · cases h
      exact ⟨rfl, rfl⟩

theorem Bag.write_error {b : Bag} {name : String} {v : Value} {s s' : Store Object} {fault : Fault}
    (h : runFrom (b.write name v) s = (.error fault, s')) : s' = s := by
  unfold write at h
  split at h
  · cases h
    rfl
  · split at h
    · cases h
      rfl
    · cases h

/-- The object with an attribute set. -/
def withAttribute (name : String) (v : Value) : Object → Object
  | .class_ c attributes => .class_ c (setNamed attributes name v)
  | .instance_ c attributes => .instance_ c (setNamed attributes name v)
  | .bag b => .bag { b with attributes := setNamed b.attributes name v }
  | .module module b exports =>
    .module module { b with attributes := setNamed b.attributes name v } exports
  | o => o

/-- An object that takes an attribute has it set, and nothing else changes. -/
theorem writeAttribute_ok {location : Loc} {o : Object} {name : String} {v : Value}
    {s s' : Store Object} (h : runFrom (writeAttribute location o name v) s = (.ok (), s')) :
    s' = s.put location (.object (withAttribute name v o)) := by
  unfold writeAttribute at h
  split at h
  · cases h
    rfl
  · cases h
    rfl
  · obtain ⟨b', s₁, hbag, hput⟩ := bind_eq_ok_iff.mp h
    obtain ⟨rfl, rfl⟩ := Bag.write_ok hbag
    cases hput
    rfl
  · obtain ⟨b', s₁, hbag, hput⟩ := bind_eq_ok_iff.mp h
    obtain ⟨rfl, rfl⟩ := Bag.write_ok hbag
    cases hput
    rfl
  · cases h

/-- An object that refuses an attribute changes nothing. -/
theorem writeAttribute_error {location : Loc} {o : Object} {name : String} {v : Value}
    {s s' : Store Object} {fault : Fault}
    (h : runFrom (writeAttribute location o name v) s = (.error fault, s')) : s' = s := by
  unfold writeAttribute at h
  split at h
  · cases h
  · cases h
  · rcases bind_eq_error_iff.mp h with hbag | ⟨b', s₁, -, hput⟩
    · exact Bag.write_error hbag
    · cases hput
  · rcases bind_eq_error_iff.mp h with hbag | ⟨b', s₁, -, hput⟩
    · exact Bag.write_error hbag
    · cases hput
  · cases h
    rfl

/-- An attribute that was set reads as the value, unless it cannot be read. -/
theorem found_withAttribute_self {location : Loc} {o : Object} {name : String} {u v : Value}
    {s s' : Store Object} (h : runFrom (writeAttribute location o name v) s = (.ok (), s'))
    (hread : found s' location (withAttribute name v o) name = .ok u) : u = v := by
  cases o with
  | class_ c attributes =>
      unfold found withAttribute at hread
      simp only [named?_setNamed_self] at hread
      exact (Except.ok.inj hread).symm
  | instance_ c attributes =>
      unfold found withAttribute at hread
      simp only [named?_setNamed_self] at hread
      exact (Except.ok.inj hread).symm
  | bag b =>
      unfold found withAttribute Bag.found at hread
      simp only [named?_setNamed_self] at hread
      split at hread
      · cases hread
      · exact (Except.ok.inj hread).symm
  | module module b exports =>
      unfold found withAttribute Bag.found at hread
      simp only [named?_setNamed_self] at hread
      split at hread
      · cases hread
      · exact (Except.ok.inj hread).symm
  | _ => cases h

/-- The class of an instance is the same when an instance was set. -/
theorem membersOf_put {s : Store Object} {location : Loc} {c d : ClassName}
    {attributes attributes' : List (String × Value)}
    (h : s.get? location = some (.object (.instance_ c attributes))) :
    membersOf (s.put location (.object (.instance_ c attributes'))) d = membersOf s d := by
  unfold membersOf Store.object?
  by_cases hself : location = d.location
  · rw [← hself, Store.get?_put_self (Store.lt_of_get? h), h]
  · rw [Store.get?_put_of_ne hself]

/-- The other attributes read as before. -/
theorem found_withAttribute_other {location : Loc} {o : Object} {name other : String} {v : Value}
    {s : Store Object} (h : s.get? location = some (.object o)) (hne : other ≠ name) :
    found (s.put location (.object (withAttribute name v o))) location (withAttribute name v o) other =
      found s location o other := by
  cases o with
  | class_ c attributes =>
      unfold withAttribute found
      simp only [named?_setNamed_of_ne _ v hne.symm]
  | instance_ c attributes =>
      unfold withAttribute found
      simp only [named?_setNamed_of_ne _ v hne.symm, membersOf_put h]
  | bag b =>
      unfold withAttribute found Bag.found
      simp only [named?_setNamed_of_ne _ v hne.symm]
  | module module b exports =>
      unfold withAttribute found Bag.found
      simp only [named?_setNamed_of_ne _ v hne.symm]
  | _ => rfl

variable (packages : List Package)

/-- A sample object that refuses an attribute, or is read, changes nothing. -/
theorem implementation_refusesWithin : (implementation packages).RefusesWithin Eq where
  read := fun location o name s => (congrArg Prod.snd (runFrom_readAttribute location o name s)).symm
  refused := fun _ _ _ _ _ _ _ h => (writeAttribute_error h).symm

/-- **Sample objects keep the attributes that are set on them**, each by itself. -/
theorem implementation_separatesAttributes :
    (implementation packages).SeparatesAttributes looksAt where
  read_unchanged := (implementation_refusesWithin packages).read
  read_cells := by
    intro location o name s s' h
    change (runFrom (readAttribute location o name) s').1 =
      (runFrom (readAttribute location o name) s).1
    rw [runFrom_readAttribute, runFrom_readAttribute, found_congr h]
  written := by
    intro location o name v s s' _ hset
    refine ⟨withAttribute name v o, writeAttribute_ok hset, ?_⟩
    intro u hread
    change (runFrom (readAttribute location (withAttribute name v o) name) s').1 = .ok u at hread
    rw [runFrom_readAttribute] at hread
    exact found_withAttribute_self hset hread
  others := by
    intro location o o' name other v s hobject hset hne
    have hput := writeAttribute_ok hset
    have hsame : o' = withAttribute name v o := by
      have hcell := congrArg (fun t => t.get? location) hput
      simp only [Store.get?_put_self (Store.lt_of_get? hobject)] at hcell
      exact Cell.object.inj (Option.some.inj hcell)
    subst hsame
    change (runFrom (readAttribute location _ other) _).1 =
      (runFrom (readAttribute location o other) s).1
    rw [runFrom_readAttribute, runFrom_readAttribute, found_withAttribute_other hobject hne]

end Sample

end Conformance
