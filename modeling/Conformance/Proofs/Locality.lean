import Conformance.Proofs.Past
import Conformance.Scope.Call
import Mathlib.Data.List.Perm.Subperm

/-!
# Implementations that keep to their own

An implementation is local if its code neither depends on where things live nor
touches cells that it cannot reach from what it is given: in the presence of any
past it does what it does without.  A loader that is local builds an equal
package of fresh cells at each call, and a hook that is local keeps no state of
its own.

The datum of a value and the equality of data look at the store as well.  They
follow along for a local implementation; for the datum this needs that the
number of cells is depth enough, whatever the number of cells of the past.
-/

namespace Conformance

variable {ω : Type} [Relocatable ω]

/-! ## Local implementations -/

/-- The part of a text of an object, moved on. -/
def Piece.shift (n : Nat) : Piece → Piece
  | .text s => .text s
  | .value v => .value (v.shift n)

/-- The path does not start at the importer. -/
def AvoidsImporter (path : String) : Prop :=
  ∀ name ∈ (pathNames path).take 1, Run.importName ∉ Name.spellings name

instance (path : String) : Decidable (AvoidsImporter path) :=
  inferInstanceAs (Decidable (∀ name ∈ (pathNames path).take 1, _))

/-- A hook at work in the presence of a past does what another does without. -/
inductive Past.ScriptFollows (p : Past ω) : Script ω → Script ω → Prop
  | done {r r' : Except Fault Value} (h : ResultRel (IsImage (Value.shift p.size)) r r') :
      p.ScriptFollows (.done r) (.done r')
  | get {path : String} {next next' : Except Fault Value → Script ω}
      (hpath : AvoidsImporter path)
      (h : ∀ r r', ResultRel (IsImage (Value.shift p.size)) r r' →
        p.ScriptFollows (next r) (next' r')) :
      p.ScriptFollows (.get path next) (.get path next')
  | assign {path : String} {v : Value} {next next' : Except Fault Unit → Script ω}
      (hpath : AvoidsImporter path) (h : ∀ r, p.ScriptFollows (next r) (next' r)) :
      p.ScriptFollows (.assign path v next) (.assign path (v.shift p.size) next')
  | names {next next' : List String → Script ω}
      (h : ∀ all, p.ScriptFollows (next all) (next' all)) :
      p.ScriptFollows (.names next) (.names next')
  | code {step step' : Code ω Value} {next next' : Except Fault Value → Script ω}
      (hstep : Follows p.StoreAround (IsImage (Value.shift p.size)) step step')
      (h : ∀ r r', ResultRel (IsImage (Value.shift p.size)) r r' →
        p.ScriptFollows (next r) (next' r')) :
      p.ScriptFollows (.code step next) (.code step' next')

/-- The implementation keeps to its own. -/
structure Implementation.Local (impl : Implementation ω) : Prop where
  /-- Loading builds an equal package at each call. -/
  load : ∀ (p : Past ω) name,
    Follows p.StoreAround (IsImage (Value.shift p.size)) (impl.load name) (impl.load name)
  callable : ∀ n o, impl.callable (Relocatable.shift n o) = impl.callable o
  call : ∀ (p : Past ω) location o args,
    Follows p.StoreAround (IsImage (Value.shift p.size)) (impl.call location o args)
      (impl.call (p.size + location) (Relocatable.shift p.size o) (args.map (Value.shift p.size)))
  invoke : ∀ (p : Past ω) location o name args,
    Follows p.StoreAround (IsImage (Value.shift p.size)) (impl.invoke location o name args)
      (impl.invoke (p.size + location) (Relocatable.shift p.size o) name
        (args.map (Value.shift p.size)))
  await? : ∀ (p : Past ω) o,
    Option.Rel (Follows p.StoreAround (IsImage (Value.shift p.size))) (impl.await? o)
      (impl.await? (Relocatable.shift p.size o))
  read : ∀ (p : Past ω) location o name,
    Follows p.StoreAround (IsImage (Value.shift p.size)) (impl.read location o name)
      (impl.read (p.size + location) (Relocatable.shift p.size o) name)
  write : ∀ (p : Past ω) location o name v,
    Follows p.StoreAround (IsImage id) (impl.write location o name v)
      (impl.write (p.size + location) (Relocatable.shift p.size o) name (v.shift p.size))
  names : ∀ n o, impl.names (Relocatable.shift n o) = impl.names o
  exports? : ∀ n o, impl.exports? (Relocatable.shift n o) = impl.exports? o
  equality? : ∀ (p : Past ω) o,
    Option.Rel (fun decide decide' => ∀ d : Datum,
      Follows p.StoreAround (IsImage id) (decide d) (decide' (d.shift p.size)))
      (impl.equality? o) (impl.equality? (Relocatable.shift p.size o))
  shown : ∀ n o, impl.shown (Relocatable.shift n o) = (impl.shown o).map (Piece.shift n)
  /-- Hooks keep no state. -/
  script : ∀ (p : Past ω) f args, Relocatable.isHook f →
    p.ScriptFollows (impl.script f args) (impl.script f (args.map (Value.shift p.size)))

/-! ## Data of live values -/

section Datum

variable {impl : Implementation ω} {p : Past ω}

mutual

/-- A datum moves on if the data of what lives in the store do. -/
theorem Value.datumBy_shift {n : Nat} {look look' : Value → Datum}
    (hlook : ∀ v, look' (v.shift n) = (look v).shift n) :
    ∀ v : Value, (v.shift n).datumBy look' = (v.datumBy look).shift n
  | .scalar _ | .reference _ => rfl
  | .tuple items => congrArg Datum.tuple (Value.datumAllBy_shift hlook items)
  | .frozen entries => congrArg Datum.frozen (Value.datumEntriesBy_shift hlook entries)
  | .method owner name => congrArg (Datum.method · name) (Value.ownerKey_shift n owner)
  | .list location => hlook (.list location)
  | .map location => hlook (.map location)
  | .object location => hlook (.object location)

theorem Value.datumAllBy_shift {n : Nat} {look look' : Value → Datum}
    (hlook : ∀ v, look' (v.shift n) = (look v).shift n) :
    ∀ vs : List Value, Value.datumAllBy look' (Value.shiftAll n vs) =
      Datum.shiftAll n (Value.datumAllBy look vs)
  | [] => rfl
  | v :: vs =>
      congrArg₂ List.cons (Value.datumBy_shift hlook v) (Value.datumAllBy_shift hlook vs)

theorem Value.datumEntriesBy_shift {n : Nat} {look look' : Value → Datum}
    (hlook : ∀ v, look' (v.shift n) = (look v).shift n) :
    ∀ es : List (Key × Value), Value.datumEntriesBy look' (Value.shiftEntries n es) =
      Datum.shiftEntries n (Value.datumEntriesBy look es)
  | [] => rfl
  | (k, v) :: es =>
      congrArg₂ List.cons (congrArg (Prod.mk (k.shift n)) (Value.datumBy_shift hlook v))
        (Value.datumEntriesBy_shift hlook es)

end

/-- The text of an object does not change as it moves on. -/
theorem Implementation.Local.shownBy (h : impl.Local) {n : Nat} (o : ω)
    {datum datum' : Value → Datum} (hdatum : ∀ v, datum' (v.shift n) = (datum v).shift n) :
    impl.shownBy (Relocatable.shift n o) datum' = impl.shownBy o datum := by
  unfold Implementation.shownBy
  rw [h.shown, List.map_map]
  congr 1
  refine List.map_congr_left fun piece _ => ?_
  cases piece with
  | text s => rfl
  | value v => simp only [Function.comp_apply, Piece.shift, hdatum, Datum.shown_shift]

/-- Whether a location was met before does not change as all move on. -/
theorem contains_map_add (n : Nat) (outer : List Loc) (location : Loc) :
    (outer.map (n + ·)).contains (n + location) = outer.contains location := by
  rw [Bool.eq_iff_iff, List.contains_iff_mem, List.contains_iff_mem]
  simp

section Moved

variable {names names' : ScopeId → List String}
  (hnames : ∀ scope, names' (p.scopes.size + scope) = names scope)
include hnames

/-- The text of an object or a bound function does not change as it moves on, if the scopes keep
their names. -/
theorem Implementation.Local.objectText (h : impl.Local) (t : Store ω) (location : Loc)
    {datum datum' : Value → Datum}
    (hdatum : ∀ v, datum' (v.shift p.size) = (datum v).shift p.size) :
    impl.objectText names' (p.store t) (p.size + location) datum' =
      impl.objectText names t location datum := by
  unfold Implementation.objectText
  rw [Past.get?_store]
  cases t.get? location with
  | none => rfl
  | some c =>
      cases c with
      | list items => rfl
      | map entries => rfl
      | object o => exact h.shownBy o hdatum
      | hook scope f attributes =>
          simp only [Option.map_some, Past.cell]
          rw [hnames]

/-- The datum of what lives at a location moves on if those of its parts do. -/
theorem Implementation.Local.cellDatum (h : impl.Local) (t : Store ω) (outer : List Loc)
    {inner inner' : Loc → Value → Datum}
    (hinner : ∀ location v, inner' (p.size + location) (v.shift p.size) =
      (inner location v).shift p.size) (v : Value) :
    impl.cellDatum names' (p.store t) (outer.map (p.size + ·)) inner' (v.shift p.size) =
      (impl.cellDatum names t outer inner v).shift p.size := by
  cases v with
  | list location =>
      simp only [Value.shift, Implementation.cellDatum]
      rw [contains_map_add, Past.items_store, List.map_map]
      split
      · rfl
      · rw [Datum.shift, Datum.shiftAll_eq, List.map_map]
        refine congrArg Datum.list (List.map_congr_left fun v _ => ?_)
        exact hinner location v
  | map location =>
      simp only [Value.shift, Implementation.cellDatum]
      rw [contains_map_add, Past.entries_store]
      split
      · rfl
      · rw [Datum.shift, Datum.shiftEntries_eq, Entries.shift, Entries.shift, List.map_map,
          List.map_map]
        refine congrArg Datum.map (List.map_congr_left fun e _ => ?_)
        exact congrArg (Prod.mk _) (hinner location e.2)
  | object location =>
      simp only [Value.shift, Implementation.cellDatum]
      rw [contains_map_add]
      split
      · rfl
      · rw [h.objectText hnames t location (hinner location)]
        rfl
  | _ => rfl

/-- Inside given cells and down to a given depth, a datum moves on with its value. -/
theorem Implementation.Local.datumTo (h : impl.Local) (t : Store ω) (n : Nat) :
    ∀ (outer : List Loc) (v : Value),
      impl.datumTo names' (p.store t) n (outer.map (p.size + ·)) (v.shift p.size) =
        (impl.datumTo names t n outer v).shift p.size := by
  induction n with
  | zero =>
      intro outer v
      unfold Implementation.datumTo
      exact Value.datumBy_shift (h.cellDatum hnames t outer fun _ _ => rfl) v
  | succ n ih =>
      intro outer v
      unfold Implementation.datumTo
      refine Value.datumBy_shift (h.cellDatum hnames t outer fun location u => ?_) v
      exact ih (location :: outer) u

end Moved

variable {names : ScopeId → List String}

omit [Relocatable ω] in
/-- The datum of what lives in a store needs the data of the parts of its cells
alone. -/
theorem cellDatum_congr {t : Store ω} {outer : List Loc} {inner inner' : Loc → Value → Datum}
    (hinner : ∀ location < t.cells.size, location ∉ outer → inner location = inner' location) :
    impl.cellDatum names t outer inner = impl.cellDatum names t outer inner' := by
  have hnone : ∀ location, ¬ location < t.cells.size → t.get? location = none := by
    intro location hlocation
    exact Array.getElem?_eq_none (Nat.le_of_not_lt hlocation)
  funext v
  cases v with
  | list location =>
      simp only [Implementation.cellDatum]
      split
      · rfl
      · next hnew =>
          by_cases hbound : location < t.cells.size
          · rw [hinner location hbound (by simpa using hnew)]
          · simp only [Store.items, hnone location hbound, List.map_nil]
  | map location =>
      simp only [Implementation.cellDatum]
      split
      · rfl
      · next hnew =>
          by_cases hbound : location < t.cells.size
          · rw [hinner location hbound (by simpa using hnew)]
          · simp only [Store.entries, hnone location hbound, List.map_nil]
  | object location =>
      simp only [Implementation.cellDatum]
      split
      · rfl
      · next hnew =>
          by_cases hbound : location < t.cells.size
          · rw [hinner location hbound (by simpa using hnew)]
          · simp only [Implementation.objectText, hnone location hbound]
  | _ => rfl

omit [Relocatable ω] in
/-- **Depth enough.**  With as many further cells as are not met yet, looking
deeper gives the same datum. -/
theorem datumTo_of_le {t : Store ω} (n : Nat) :
    ∀ (m : Nat) (outer : List Loc), outer.Nodup → (∀ location ∈ outer, location < t.cells.size) →
      t.cells.size ≤ n + outer.length → n ≤ m →
        impl.datumTo names t n outer = impl.datumTo names t m outer := by
  induction n with
  | zero =>
      intro m outer hnodup hbound hlength hle
      -- All cells were met, so that no part is looked at.
      have hall : ∀ location < t.cells.size, location ∈ outer := by
        have hsubset : outer ⊆ List.range t.cells.size :=
          fun location hmem => List.mem_range.mpr (hbound location hmem)
        have hperm := (List.subperm_of_subset hnodup hsubset).perm_of_length_le (by simpa using hlength)
        exact fun location hlocation => hperm.mem_iff.mpr (List.mem_range.mpr hlocation)
      cases m with
      | zero => rfl
      | succ m =>
          unfold Implementation.datumTo
          rw [cellDatum_congr fun location hlocation hnew => absurd (hall location hlocation) hnew]
  | succ n ih =>
      intro m outer hnodup hbound hlength hle
      obtain ⟨m, rfl⟩ : ∃ k, m = k + 1 := ⟨m - 1, by omega⟩
      unfold Implementation.datumTo
      rw [cellDatum_congr fun location hlocation hnew => ?_]
      refine ih m (location :: outer) (List.nodup_cons.mpr ⟨hnew, hnodup⟩) ?_ ?_ (by omega)
      · intro other hmem
        rcases List.mem_cons.mp hmem with rfl | hmem
        · exact hlocation
        · exact hbound other hmem
      · rw [List.length_cons]
        omega

/-- **The datum of a value moves on with it**, whatever the past. -/
theorem Implementation.Local.datum (h : impl.Local) {names' : ScopeId → List String}
    (hnames : ∀ scope, names' (p.scopes.size + scope) = names scope) (t : Store ω) (v : Value) :
    impl.datum names' (p.store t) (v.shift p.size) = (impl.datum names t v).shift p.size := by
  unfold Implementation.datum
  have hdepth : impl.datumTo names t (t.cells.size + 1) [] =
      impl.datumTo names t ((p.store t).cells.size + 1) [] := by
    refine datumTo_of_le _ _ [] List.nodup_nil (fun _ hmem => nomatch hmem) (by simp) ?_
    rw [Past.size_store]
    omega
  rw [hdepth]
  exact h.datumTo hnames t _ [] v

/-- The datum of a value is taken in the presence of a past as without. -/
theorem Past.datumNow_follows (h : impl.Local) (v : Value) :
    Follows p.Around (IsImage (Datum.shift p.size)) (impl.datumNow v)
      (impl.datumNow (v.shift p.size)) := by
  intro w w' hw
  refine ⟨.ok ?_, hw⟩
  change impl.datum w'.names w'.store _ = _
  rw [hw.store.1]
  exact h.datum (fun scope => (hw.own scope).names_eq) w.store v

end Datum

/-! ## Equality of data -/

section Equality

variable {impl : Implementation ω} {p : Past ω}

theorem identical_shift (n : Nat) (a b : Datum) :
    Implementation.identical (a.shift n) (b.shift n) = Implementation.identical a b := by
  cases a with
  | object l s =>
      cases b with
      | object m u =>
          exact add_left_beq n l m
      | _ => rfl
  | scalar s => cases b <;> simp [Implementation.identical, Datum.shift]
  | _ => cases b <;> rfl

/-- An object that decides its equality does so wherever it lives. -/
theorem Implementation.Local.ownEquality? (h : impl.Local) (t : Store ω) (a : Datum) :
    Option.Rel (fun decide decide' => ∀ d : Datum,
      Follows p.StoreAround (IsImage id) (decide d) (decide' (d.shift p.size)))
      (impl.ownEquality? t a) (impl.ownEquality? (p.store t) (a.shift p.size)) := by
  cases a with
  | object location shown =>
      simp only [Implementation.ownEquality?, Datum.shift, Past.object?_store]
      cases t.object? location with
      | none => exact .none
      | some o => exact h.equality? p o
  | _ => exact .none

omit [Relocatable ω] in
/-- The first of some entries is compared with that of its key in the others. -/
theorem Implementation.equalEntries_cons (k : Key) (x : Datum) (xs ys : List (Key × Datum)) :
    impl.equalEntries ((k, x) :: xs) ys =
      match Entries.find? ys k with
      | none => pure false
      | some y => (do if ← impl.equalMember y x then impl.equalEntries xs ys else pure false) := by
  rw [Implementation.equalEntries]
  split
  · next heq => rw [heq]
  · next y heq =>
      dsimp only
      rw [heq]

/-- A step that goes on if two members are equal. -/
theorem Follows.ifEqual {σ σ' : Type} {S : σ → σ' → Prop} {R : Bool → Bool → Prop}
    (hsame : ∀ a b, R a b ↔ b = a)
    {member next : ExceptT Fault (StateM σ) Bool} {member' next' : ExceptT Fault (StateM σ') Bool}
    (hmember : Follows S R member member') (hnext : Follows S R next next') :
    Follows S R (do if ← member then next else Pure.pure false)
      (do if ← member' then next' else Pure.pure false) := by
  refine Follows.bind hmember ?_
  intro same _ hequal
  obtain rfl := (hsame _ _).mp hequal
  exact Follows.ite hnext (Follows.pure ((hsame _ _).mpr rfl))

mutual

/-- **Comparing does not see the past.** -/
theorem Implementation.Local.equal (h : impl.Local) (a b : Datum) :
    Follows p.StoreAround (IsImage id) (impl.equal a b)
      (impl.equal (a.shift p.size) (b.shift p.size)) := by
  rw [Implementation.equal, Implementation.equal]
  refine Follows.bind Past.store_follows ?_
  intro t _ ht
  obtain ⟨rfl, -⟩ := ht
  have hown := h.ownEquality? (p := p) t a
  generalize impl.ownEquality? t a = own at hown ⊢
  generalize impl.ownEquality? (p.store t) (a.shift p.size) = own' at hown ⊢
  cases hown with
  | some hdecide => exact hdecide b
  | none =>
      have hother := h.ownEquality? (p := p) t b
      generalize impl.ownEquality? t b = other at hother ⊢
      generalize impl.ownEquality? (p.store t) (b.shift p.size) = other' at hother ⊢
      cases hother with
      | some hdecide => exact hdecide a
      | none => exact h.equalPlain a b
termination_by (sizeOf a + sizeOf b, 3)

theorem Implementation.Local.equalPlain (h : impl.Local) (a b : Datum) :
    Follows p.StoreAround (IsImage id) (impl.equalPlain a b)
      (impl.equalPlain (a.shift p.size) (b.shift p.size)) := by
  have hdefault : ∀ {step step' : Code ω Bool}, step = pure false → step' = pure false →
      Follows p.StoreAround (IsImage id) step step' := by
    intro _ _ heq heq'
    obtain rfl := heq
    obtain rfl := heq'
    exact Follows.pure rfl
  rw [Implementation.equalPlain.eq_def, Implementation.equalPlain.eq_def]
  cases a with
  | scalar x =>
      cases b with
      | scalar y => exact Follows.pure rfl
      | _ => exact hdefault rfl rfl
  | flag x =>
      cases b with
      | flag y => exact Follows.pure rfl
      | _ => exact hdefault rfl rfl
  | reference x =>
      cases b with
      | reference y => exact Follows.pure rfl
      | _ => exact hdefault rfl rfl
  | object l s =>
      cases b with
      | object m u =>
          simp only [Datum.shift]
          rw [add_left_beq]
          exact Follows.pure rfl
      | _ => exact hdefault rfl rfl
  | method x n =>
      cases b with
      | method y m =>
          simp only [Datum.shift]
          rw [Key.same_shift]
          exact Follows.pure rfl
      | _ => exact hdefault rfl rfl
  | tuple xs =>
      cases b with
      | tuple ys => exact h.equalItems xs ys
      | _ => exact hdefault rfl rfl
  | list xs =>
      cases b with
      | list ys =>
          simp only [Datum.shift]
          rw [Datum.length_shiftAll, Datum.length_shiftAll]
          exact Follows.ite (h.equalItems xs ys) (Follows.pure rfl)
      | _ => exact hdefault rfl rfl
  | map xs =>
      cases b with
      | map ys =>
          simp only [Datum.shift]
          rw [Datum.length_shiftEntries, Datum.length_shiftEntries]
          exact Follows.ite (h.equalEntries xs ys) (Follows.pure rfl)
      | frozen ys =>
          simp only [Datum.shift]
          rw [Datum.length_shiftEntries, Datum.length_shiftEntries]
          exact Follows.ite (h.equalEntries ys xs) (Follows.pure rfl)
      | _ => exact hdefault rfl rfl
  | frozen xs =>
      cases b with
      | map ys =>
          simp only [Datum.shift]
          rw [Datum.length_shiftEntries, Datum.length_shiftEntries]
          exact Follows.ite (h.equalEntries xs ys) (Follows.pure rfl)
      | frozen ys =>
          simp only [Datum.shift]
          rw [Datum.length_shiftEntries, Datum.length_shiftEntries]
          exact Follows.ite (h.equalEntries ys xs) (Follows.pure rfl)
      | _ => exact hdefault rfl rfl
  | endless s => cases b <;> exact hdefault rfl rfl
termination_by (sizeOf a + sizeOf b, 2)

theorem Implementation.Local.equalItems (h : impl.Local) : ∀ xs ys : List Datum,
    Follows p.StoreAround (IsImage id) (impl.equalItems xs ys)
      (impl.equalItems (Datum.shiftAll p.size xs) (Datum.shiftAll p.size ys))
  | [], [] => by
      rw [Datum.shiftAll, Implementation.equalItems]
      exact Follows.pure rfl
  | x :: xs, y :: ys => by
      rw [Datum.shiftAll, Datum.shiftAll, Implementation.equalItems, Implementation.equalItems]
      exact Follows.ifEqual (fun _ _ => Iff.rfl) (h.equalMember x y) (h.equalItems xs ys)
  | [], y :: ys => by
      rw [Implementation.equalItems.eq_def, Implementation.equalItems.eq_def]
      exact Follows.pure rfl
  | x :: xs, [] => by
      rw [Implementation.equalItems.eq_def, Implementation.equalItems.eq_def]
      exact Follows.pure rfl
termination_by xs ys => (sizeOf xs + sizeOf ys, 1)

theorem Implementation.Local.equalEntries (h : impl.Local) : ∀ xs ys : List (Key × Datum),
    Follows p.StoreAround (IsImage id) (impl.equalEntries xs ys)
      (impl.equalEntries (Datum.shiftEntries p.size xs) (Datum.shiftEntries p.size ys))
  | [], ys => by
      rw [Datum.shiftEntries, Implementation.equalEntries, Implementation.equalEntries]
      exact Follows.pure rfl
  | (k, x) :: xs, ys => by
      have hfind : Entries.find? (Datum.shiftEntries p.size ys) (k.shift p.size) =
          (Entries.find? ys k).map (Datum.shift p.size) := by
        rw [Datum.shiftEntries_eq, Entries.find?_shift]
      rw [Datum.shiftEntries, Implementation.equalEntries_cons, Implementation.equalEntries_cons,
        hfind]
      cases hy : Entries.find? ys k with
      | none => exact Follows.pure rfl
      | some y =>
          have hsize := Entries.sizeOf_find? hy
          exact Follows.ifEqual (fun _ _ => Iff.rfl) (h.equalMember y x) (h.equalEntries xs ys)
termination_by xs ys => (sizeOf xs + sizeOf ys, 1)

theorem Implementation.Local.equalMember (h : impl.Local) (a b : Datum) :
    Follows p.StoreAround (IsImage id) (impl.equalMember a b)
      (impl.equalMember (a.shift p.size) (b.shift p.size)) := by
  rw [Implementation.equalMember, Implementation.equalMember, identical_shift]
  exact Follows.ite (Follows.pure rfl) (h.equal a b)
termination_by (sizeOf a + sizeOf b, 4)

end

end Equality

end Conformance
