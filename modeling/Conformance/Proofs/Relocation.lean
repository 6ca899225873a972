import Conformance.Data.Named
import Conformance.Live.Implementation
import Conformance.Run.Judge
import Mathlib.Logic.Basic

/-!
# Data at other locations

`shift n` moves every location in a value on by `n`.  No function on data looks
at a location other than to compare it with another, so each of them commutes
with `shift`: keys are the same or not, entries are found and set, canonical
forms and texts are made as before.
-/

namespace Conformance

/-- Locations are the same after moving exactly if they were the same before. -/
theorem add_left_beq (n l m : Loc) : (n + l == n + m) = (l == m) := by
  rw [Bool.eq_iff_iff, beq_iff_eq, beq_iff_eq]
  exact Nat.add_left_cancel_iff

/-! ## Keys -/

namespace Key

mutual

/-- The key with every location moved on. -/
def shift (n : Nat) : Key → Key
  | .tuple items => .tuple (shiftAll n items)
  | .object location => .object (n + location)
  | key => key

/-- Keys with every location moved on. -/
def shiftAll (n : Nat) : List Key → List Key
  | [] => []
  | k :: ks => shift n k :: shiftAll n ks

end

mutual

/-- Keys are the same before moving exactly if they are the same after. -/
@[simp] theorem same_shift (n : Nat) : ∀ a b : Key, (a.shift n).same (b.shift n) = a.same b
  | .tuple as, b => by
      cases b with
      | tuple bs => simpa only [shift, same] using sameAll_shift n as bs
      | _ => rfl
  | .object l, b => by
      cases b with
      | object m => exact add_left_beq n l m
      | _ => rfl
  | .scalar s, b => by cases b <;> rfl
  | .reference path, b => by cases b <;> rfl
  | .flag x, b => by cases b <;> rfl

/-- The same of the items of tuples, one by one. -/
theorem sameAll_shift (n : Nat) :
    ∀ as bs : List Key, sameAll (shiftAll n as) (shiftAll n bs) = sameAll as bs
  | [], [] => rfl
  | [], b :: bs => rfl
  | a :: as, [] => rfl
  | a :: as, b :: bs => by
      simp only [shiftAll, sameAll, same_shift n a b, sameAll_shift n as bs]

end

/-- A key that is a text stays that text. -/
@[simp] theorem text?_shift (n : Nat) (k : Key) : (k.shift n).text? = k.text? := by
  cases k <;> rfl

mutual

/-- The text of a key has no locations. -/
@[simp] theorem shown_shift (n : Nat) : ∀ k : Key, (k.shift n).shown = k.shown
  | .tuple items => congrArg parenthesized (shownAll_shift n items)
  | .object _ | .scalar _ | .reference _ | .flag _ => rfl

/-- The texts of the items of a tuple have no locations. -/
theorem shownAll_shift (n : Nat) : ∀ ks : List Key, shownAll (shiftAll n ks) = shownAll ks
  | [] => rfl
  | k :: ks => congrArg₂ List.cons (shown_shift n k) (shownAll_shift n ks)

end

mutual

/-- The canonical form of a key moves with it. -/
@[simp] theorem canonical_shift (n : Nat) :
    ∀ k : Key, (k.shift n).canonical = k.canonical.map (Option.map (shift n))
  | .tuple items => by
      simp only [shift, canonical, canonicalAll_shift n items]
      cases canonicalAll items <;> rfl
  | .object l => rfl
  | .scalar s => by
      simp only [shift, canonical]
      cases s.canonical <;> rfl
  | .reference path => rfl
  | .flag x => rfl

/-- Items of a tuple have canonical forms or none, wherever they lie. -/
theorem canonicalAll_shift (n : Nat) :
    ∀ ks : List Key, canonicalAll (shiftAll n ks) = canonicalAll ks
  | [] => rfl
  | k :: ks => by
      simp only [shiftAll, canonicalAll, canonical_shift n k, canonicalAll_shift n ks]
      cases k.canonical <;> rfl

end

/-- Booleans are told apart from numbers before or after moving. -/
@[simp] theorem strict_shift (n : Nat) (k : Key) : (k.shift n).strict = k.strict.shift n := by
  cases k with
  | scalar s => cases s <;> rfl
  | _ => rfl

/-- The name of a key in JSON text has no locations. -/
@[simp] theorem jsonName?_shift (n : Nat) (k : Key) : (k.shift n).jsonName? = k.jsonName? := by
  cases k <;> rfl

end Key

/-! ## Entries -/

namespace Entries

variable {α β : Type}

/-- The entries with every location in a key moved on, and their values mapped. -/
def shift (n : Nat) (f : α → β) (entries : Entries α) : Entries β :=
  entries.map fun e => (e.1.shift n, f e.2)

@[simp] theorem length_shift (n : Nat) (f : α → β) (entries : Entries α) :
    List.length (entries.shift n f) = List.length entries := List.length_map _

/-- A key leads to the moved value, in entries that have moved with it. -/
theorem find?_shift (n : Nat) (f : α → β) (entries : Entries α) (key : Key) :
    Entries.find? (entries.shift n f) (key.shift n) = (Entries.find? entries key).map f := by
  unfold Entries.find? shift
  rw [List.find?_map]
  simp only [Function.comp_def, Key.same_shift, Option.map_map]

/-- Setting a key and moving the entries commute. -/
theorem set_shift (n : Nat) (f : α → β) (entries : Entries α) (key : Key) (v : α) :
    Entries.set (entries.shift n f) (key.shift n) (f v) = (Entries.set entries key v).shift n f := by
  induction entries with
  | nil => rfl
  | cons e rest ih =>
      simp only [shift, List.map_cons] at ih ⊢
      unfold Entries.set
      rw [Key.same_shift]
      by_cases h : e.1.same key = true
      · simp [h]
      · simp [h, ih]

end Entries

section Named

variable {α β : Type} (f : α → β)

/-- A name is looked up before or after the values are mapped. -/
theorem named?_map (entries : List (String × α)) (name : String) :
    named? (entries.map fun e => (e.1, f e.2)) name = (named? entries name).map f := by
  unfold named?
  rw [List.find?_map]
  simp only [Function.comp_def, Option.map_map]

/-- A name is set before or after the values are mapped. -/
theorem setNamed_map (entries : List (String × α)) (name : String) (v : α) :
    setNamed (entries.map fun e => (e.1, f e.2)) name (f v) =
      (setNamed entries name v).map fun e => (e.1, f e.2) := by
  induction entries with
  | nil => rfl
  | cons e rest ih =>
      rw [List.map_cons]
      unfold setNamed
      by_cases h : e.1 = name
      · simp [h]
      · simp [h, ih]

end Named

/-! ## Values -/

namespace Value

mutual

/-- The value with every location moved on. -/
def shift (n : Nat) : Value → Value
  | .scalar s => .scalar s
  | .reference path => .reference path
  | .tuple items => .tuple (shiftAll n items)
  | .frozen entries => .frozen (shiftEntries n entries)
  | .list location => .list (n + location)
  | .map location => .map (n + location)
  | .object location => .object (n + location)
  | .method owner name => .method (shift n owner) name

/-- Values with every location moved on. -/
def shiftAll (n : Nat) : List Value → List Value
  | [] => []
  | v :: vs => shift n v :: shiftAll n vs

/-- Entries with every location moved on. -/
def shiftEntries (n : Nat) : List (Key × Value) → List (Key × Value)
  | [] => []
  | (k, v) :: es => (k.shift n, shift n v) :: shiftEntries n es

end

/-- Moving values is moving each of them. -/
@[simp] theorem shiftAll_eq (n : Nat) (vs : List Value) : shiftAll n vs = vs.map (shift n) := by
  induction vs with
  | nil => rfl
  | cons v vs ih => rw [shiftAll, ih, List.map_cons]

/-- Moving entries is moving each key and each value. -/
@[simp] theorem shiftEntries_eq (n : Nat) (es : List (Key × Value)) :
    shiftEntries n es = Entries.shift n (shift n) es := by
  induction es with
  | nil => rfl
  | cons e es ih => rw [shiftEntries, ih]; rfl

@[simp] theorem shift_scalar (n : Nat) (s : Scalar) : (Value.scalar s).shift n = .scalar s := rfl

/-- The type of a value stays the same. -/
@[simp] theorem typeName_shift (n : Nat) (v : Value) : (v.shift n).typeName = v.typeName := by
  cases v <;> rfl

mutual

/-- The key of a value moves with it, and what cannot be a key still cannot. -/
@[simp] theorem toKey_shift (n : Nat) :
    ∀ v : Value, (v.shift n).toKey = v.toKey.map (Key.shift n)
  | .tuple items => by
      have hitems := toKeyAll_shift n items
      rw [shiftAll_eq] at hitems
      simp only [shift, shiftAll_eq, toKey, hitems]
      cases toKeyAll items <;> rfl
  | .scalar s => rfl
  | .reference path => rfl
  | .object l => rfl
  | .frozen entries => rfl
  | .list l => rfl
  | .map l => rfl
  | .method owner name => rfl

/-- The same of the items of a tuple. -/
theorem toKeyAll_shift (n : Nat) :
    ∀ vs : List Value, toKeyAll (shiftAll n vs) = (toKeyAll vs).map (Key.shiftAll n)
  | [] => rfl
  | v :: vs => by
      simp only [shiftAll, toKeyAll, toKey_shift n v, toKeyAll_shift n vs]
      cases v.toKey with
      | error e => rfl
      | ok k => cases toKeyAll vs <;> rfl

end

/-- The attributes of a value move with it. -/
theorem attribute?_shift (n : Nat) (v : Value) (name : String) :
    (v.shift n).attribute? name = (v.attribute? name).map (shift n) := by
  cases v with
  | scalar s =>
      unfold attribute?
      simp only [shift]
      split <;> simp_all [shift, str]
  | reference path =>
      unfold attribute?
      simp only [shift]
      split <;> simp_all [shift, str]
  | list l =>
      unfold attribute?
      simp only [shift]
      split <;> simp_all [shift]
  | _ => rfl

/-- Why an attribute cannot be set has nothing to do with locations. -/
theorem attributeFault_shift (n : Nat) (v : Value) (name : String) :
    (v.shift n).attributeFault name = v.attributeFault name := by
  have hattribute := attribute?_shift n v name
  cases v with
  | list l =>
      unfold attributeFault
      simp only [shift] at hattribute ⊢
      rw [hattribute]
      cases attribute? (.list l) name with
      | none => rfl
      | some u => cases u <;> rfl
  | _ => rfl

/-- The key that stands for the owner of a method. -/
theorem ownerKey_shift (n : Nat) (v : Value) : (v.shift n).ownerKey = v.ownerKey.shift n := by
  have hkey := toKey_shift n v
  cases v with
  | tuple items =>
      unfold ownerKey
      simp only [shift] at hkey ⊢
      rw [hkey]
      cases (Value.tuple items).toKey <;> rfl
  | _ => rfl

end Value

/-! ## Data -/

namespace Datum

mutual

/-- The datum with every location moved on. -/
def shift (n : Nat) : Datum → Datum
  | .tuple items => .tuple (shiftAll n items)
  | .list items => .list (shiftAll n items)
  | .map entries => .map (shiftEntries n entries)
  | .frozen entries => .frozen (shiftEntries n entries)
  | .object location shown => .object (n + location) shown
  | .method owner name => .method (owner.shift n) name
  | d => d

/-- Data with every location moved on. -/
def shiftAll (n : Nat) : List Datum → List Datum
  | [] => []
  | d :: ds => shift n d :: shiftAll n ds

/-- Entries with every location moved on. -/
def shiftEntries (n : Nat) : List (Key × Datum) → List (Key × Datum)
  | [] => []
  | (k, d) :: es => (k.shift n, shift n d) :: shiftEntries n es

end

/-- Moving data is moving each of them. -/
theorem shiftAll_eq (n : Nat) (ds : List Datum) : shiftAll n ds = ds.map (shift n) := by
  induction ds with
  | nil => rfl
  | cons d ds ih => rw [shiftAll, ih, List.map_cons]

/-- Moving entries of data is moving each key and each datum. -/
theorem shiftEntries_eq (n : Nat) (es : List (Key × Datum)) :
    shiftEntries n es = Entries.shift n (shift n) es := by
  induction es with
  | nil => rfl
  | cons e es ih => rw [shiftEntries, ih]; rfl

/-- Moving keeps the number of items. -/
theorem length_shiftAll (n : Nat) (ds : List Datum) : (shiftAll n ds).length = ds.length := by
  rw [shiftAll_eq, List.length_map]

/-- Moving keeps the number of entries. -/
theorem length_shiftEntries (n : Nat) (es : List (Key × Datum)) :
    (shiftEntries n es).length = es.length := by
  rw [shiftEntries_eq, Entries.length_shift]

@[simp] theorem isError_shift (n : Nat) (d : Datum) : (d.shift n).isError = d.isError := by
  cases d <;> rfl

/-- What every outcome meets, every outcome still meets. -/
@[simp] theorem isOpen_shift (n : Nat) (d : Datum) : Run.isOpen (d.shift n) = Run.isOpen d := by
  cases d <;> rfl

mutual

/-- Messages do not show locations. -/
@[simp] theorem shown_shift (n : Nat) : ∀ d : Datum, (d.shift n).shown = d.shown
  | .tuple items => congrArg parenthesized (shownAll_shift n items)
  | .list items => congrArg bracketed (shownAll_shift n items)
  | .map entries => congrArg braced (shownEntries_shift n entries)
  | .frozen entries =>
      congrArg (fun parts => "mappingproxy(".toList ++ braced parts ++ [')'])
        (shownEntries_shift n entries)
  | .object _ _ | .method _ _ | .scalar _ | .flag _ | .reference _ | .endless _ => rfl

/-- The texts of items have no locations. -/
theorem shownAll_shift (n : Nat) : ∀ ds : List Datum, shownAll (shiftAll n ds) = shownAll ds
  | [] => rfl
  | d :: ds => congrArg₂ List.cons (shown_shift n d) (shownAll_shift n ds)

/-- The texts of entries have no locations. -/
theorem shownEntries_shift (n : Nat) :
    ∀ es : List (Key × Datum), shownEntries (shiftEntries n es) = shownEntries es
  | [] => rfl
  | (k, d) :: es =>
      congrArg₂ List.cons
        (congrArg₂ (fun key part => key ++ ": ".toList ++ part) (Key.shown_shift n k)
          (shown_shift n d))
        (shownEntries_shift n es)

end

mutual

/-- The canonical form moves with the datum. -/
@[simp] theorem canonical_shift (n : Nat) :
    ∀ d : Datum, (d.shift n).canonical = d.canonical.map (shift n)
  | .tuple items | .list items => by
      simp only [shift, canonical, canonicalAll_shift n items]
      cases canonicalAll items <;> rfl
  | .map entries => by
      have h := canonicalEntries_shift n [] entries
      simp only [shiftEntries] at h
      simp only [shift, canonical, h]
      cases canonicalEntries [] entries <;> rfl
  | .scalar s => by
      simp only [shift, canonical]
      cases s.canonical <;> rfl
  | .endless _ => rfl
  | .frozen _ | .object _ _ | .method _ _ | .flag _ | .reference _ => by
      simp only [shift, canonical]
      rfl

/-- The canonical forms of items move with them, up to the first that has none. -/
theorem canonicalAll_shift (n : Nat) :
    ∀ ds : List Datum, canonicalAll (shiftAll n ds) = (canonicalAll ds).map (shiftAll n)
  | [] => rfl
  | d :: ds => by
      simp only [shiftAll, canonicalAll, canonical_shift n d, canonicalAll_shift n ds]
      cases d.canonical with
      | error fault => rfl
      | ok c => cases canonicalAll ds <;> rfl

/-- Canonical entries are gathered alike: keys that become one before moving become one after. -/
theorem canonicalEntries_shift (n : Nat) (done : Entries Datum) :
    ∀ es : List (Key × Datum),
      canonicalEntries (shiftEntries n done) (shiftEntries n es) =
        (canonicalEntries done es).map (shiftEntries n)
  | [] => by simp only [shiftEntries, canonicalEntries]; rfl
  | (k, d) :: es => by
      simp only [shiftEntries, canonicalEntries, Key.canonical_shift, canonical_shift n d]
      cases k.canonical with
      | error fault => rfl
      | ok key =>
          cases d.canonical with
          | error fault => rfl
          | ok c =>
              cases key with
              | none => rfl
              | some key =>
                  have hset : Entries.set (shiftEntries n done) (key.shift n) (c.shift n) =
                      shiftEntries n (Entries.set done key c) := by
                    rw [shiftEntries_eq, shiftEntries_eq, Entries.set_shift]
                  exact (congrArg (canonicalEntries · (shiftEntries n es)) hset).trans
                    (canonicalEntries_shift n (Entries.set done key c) es)

end

mutual

/-- The strict form moves with the datum. -/
@[simp] theorem strict_shift (n : Nat) : ∀ d : Datum, (d.shift n).strict = d.strict.shift n
  | .scalar s => by cases s <;> rfl
  | .list items => by simp only [shift, strict, strictAll_shift n items]
  | .map entries => by simp only [shift, strict, strictEntries_shift n entries]
  | .tuple _ | .frozen _ | .object _ _ | .method _ _ | .flag _ | .reference _ | .endless _ => by
      simp only [shift, strict]

/-- The same of items. -/
theorem strictAll_shift (n : Nat) :
    ∀ ds : List Datum, strictAll (shiftAll n ds) = shiftAll n (strictAll ds)
  | [] => rfl
  | d :: ds => by simp only [shiftAll, strictAll, strict_shift n d, strictAll_shift n ds]

/-- The same of entries and their keys. -/
theorem strictEntries_shift (n : Nat) :
    ∀ es : List (Key × Datum), strictEntries (shiftEntries n es) = shiftEntries n (strictEntries es)
  | [] => rfl
  | (k, d) :: es => by
      simp only [shiftEntries, strictEntries, Key.strict_shift, strict_shift n d,
        strictEntries_shift n es]

end

mutual

/-- JSON text has no locations. -/
@[simp] theorem json?_shift (n : Nat) : ∀ d : Datum, (d.shift n).json? = d.json?
  | .tuple items | .list items => by simp only [shift, json?, jsonAll?_shift n items]
  | .map entries => by simp only [shift, json?, jsonEntries?_shift n entries]
  | .frozen entries => congrArg (fun text => some (Text.json text)) (shown_shift n (.frozen entries))
  | .object _ _ | .method _ _ | .scalar _ | .flag _ | .reference _ | .endless _ => rfl

/-- The JSON texts of items have no locations. -/
theorem jsonAll?_shift (n : Nat) : ∀ ds : List Datum, jsonAll? (shiftAll n ds) = jsonAll? ds
  | [] => by simp only [shiftAll]
  | d :: ds => by simp only [shiftAll, jsonAll?, json?_shift n d, jsonAll?_shift n ds]

/-- The JSON texts of entries have no locations. -/
theorem jsonEntries?_shift (n : Nat) :
    ∀ es : List (Key × Datum), jsonEntries? (shiftEntries n es) = jsonEntries? es
  | [] => by simp only [shiftEntries]
  | (k, d) :: es => by
      simp only [shiftEntries, jsonEntries?, Key.jsonName?_shift, json?_shift n d,
        jsonEntries?_shift n es]

end

/-- The text of a value in the detail of a failure has no locations. -/
@[simp] theorem detail_shift (n : Nat) (d : Datum) : (d.shift n).detail = d.detail := by
  unfold detail
  rw [canonical_shift, shown_shift]
  cases d.canonical with
  | error fault => rfl
  | ok c => simp only [Except.map, json?_shift]

end Datum

/-! ## Authored data -/

namespace Literal

/-- A mapping key as documents have them. -/
def isScalarKey : Key → Bool
  | .scalar _ => true
  | _ => false

mutual

/-- The value is made of scalars, lists and mappings with scalar keys, and of the
references that stand for markers. -/
def isYamlShaped : Literal → Bool
  | .scalar _ => true
  | .reference _ => true
  | .tuple _ => false
  | .list items => isYamlShapedAll items
  | .map entries => isYamlShapedEntries entries

/-- All values are made so. -/
def isYamlShapedAll : List Literal → Bool
  | [] => true
  | v :: vs => isYamlShaped v && isYamlShapedAll vs

/-- All entries are made so. -/
def isYamlShapedEntries : List (Key × Literal) → Bool
  | [] => true
  | (k, v) :: es => isScalarKey k && isYamlShaped v && isYamlShapedEntries es

end

/-- Values are YAML-shaped together if each of them is. -/
theorem isYamlShapedAll_iff {vs : List Literal} :
    isYamlShapedAll vs = true ↔ ∀ v ∈ vs, v.isYamlShaped = true := by
  induction vs with
  | nil => simp [isYamlShapedAll]
  | cons v vs ih => rw [isYamlShapedAll, Bool.and_eq_true, ih, List.forall_mem_cons]

/-- Entries are YAML-shaped together if their values are and their keys are scalars. -/
theorem isYamlShapedEntries_iff {es : List (Key × Literal)} :
    isYamlShapedEntries es = true ↔
      ∀ e ∈ es, isScalarKey e.1 = true ∧ e.2.isYamlShaped = true := by
  induction es with
  | nil => simp [isYamlShapedEntries]
  | cons e es ih =>
      rw [isYamlShapedEntries, Bool.and_eq_true, Bool.and_eq_true, ih, List.forall_mem_cons]

mutual

/-- Paths of the references in a value. -/
def paths : Literal → List String
  | .scalar _ => []
  | .reference path => [path]
  | .tuple items => pathsAll items
  | .list items => pathsAll items
  | .map entries => pathsEntries entries

/-- Paths of the references in values. -/
def pathsAll : List Literal → List String
  | [] => []
  | v :: vs => paths v ++ pathsAll vs

/-- Paths of the references in entries. -/
def pathsEntries : List (Key × Literal) → List String
  | [] => []
  | (_, v) :: es => paths v ++ pathsEntries es

end

/-- A scalar key has no locations. -/
theorem shift_of_isScalarKey {k : Key} (h : isScalarKey k = true) (n : Nat) : k.shift n = k := by
  cases k with
  | scalar s => rfl
  | _ => cases h

mutual

/-- Authored data has no locations. -/
theorem datum_shift (n : Nat) : ∀ v : Literal, v.isYamlShaped = true → v.datum.shift n = v.datum
  | .scalar _, _ | .reference _, _ => rfl
  | .tuple _, h => by cases h
  | .list items, h => congrArg Datum.list (datumAll_shift n items h)
  | .map entries, h => congrArg Datum.map (datumEntries_shift n entries h)

/-- Authored items have no locations. -/
theorem datumAll_shift (n : Nat) : ∀ vs : List Literal, isYamlShapedAll vs = true →
    Datum.shiftAll n (datumAll vs) = datumAll vs
  | [], _ => rfl
  | v :: vs, h => by
      rw [isYamlShapedAll, Bool.and_eq_true] at h
      exact congrArg₂ List.cons (datum_shift n v h.1) (datumAll_shift n vs h.2)

/-- Authored entries have no locations. -/
theorem datumEntries_shift (n : Nat) : ∀ es : List (Key × Literal), isYamlShapedEntries es = true →
    Datum.shiftEntries n (datumEntries es) = datumEntries es
  | [], _ => rfl
  | (k, v) :: es, h => by
      rw [isYamlShapedEntries, Bool.and_eq_true, Bool.and_eq_true] at h
      exact congrArg₂ List.cons
        (congrArg₂ Prod.mk (shift_of_isScalarKey h.1.1 n) (datum_shift n v h.1.2))
        (datumEntries_shift n es h.2)

end

end Literal

end Conformance
