import Conformance.Proofs.Contents
import Conformance.Proofs.Locality

/-!
# Data that differ in the texts of objects

The datum of an object is its location and the text that messages show for it.  The text
may tell of the object's attributes, so it changes with them, but a comparison does not
look at it.  Data *resemble* each other if they differ in such texts at most.

Resembling data have resembling canonical forms, or none for the same reason, and comparing
them comes to the same (`AsksAlike.equal`), as far as the implementation's own equalities
answer alike: these may look at anything, and `Implementation.AsksAlike` says of two stores
that they make no difference to them.  The data of a value resemble each other in two
stores if all lists and mappings in it have the same content there (`datum_resembles`).
-/

namespace Conformance

/-! ## Results -/

namespace ResultRel

variable {α β γ δ : Type} {R : α → β → Prop} {Q : γ → δ → Prop} {r : Except Fault α}
  {r' : Except Fault β}

/-- Related results stay related when functions that agree with the relations are applied. -/
theorem images (h : ResultRel R r r') {f : α → γ} {g : β → δ} (himage : ∀ a b, R a b → Q (f a) (g b)) :
    ResultRel Q (r.map f) (r'.map g) := by
  cases h with
  | ok h => exact .ok (himage _ _ h)
  | error fault => exact .error fault

/-- Sequences of related parts come to related results. -/
theorem bind (h : ResultRel R r r') {next : α → Except Fault γ} {next' : β → Except Fault δ}
    (hnext : ∀ a b, R a b → ResultRel Q (next a) (next' b)) :
    ResultRel Q (r >>= next) (r' >>= next') := by
  cases h with
  | ok h => exact hnext _ _ h
  | error fault => exact .error fault

end ResultRel

/-! ## Resembling data -/

namespace Datum

mutual

/-- Data that differ in the texts of objects at most. -/
inductive Resembles : Datum → Datum → Prop
  | scalar (s : Scalar) : Resembles (.scalar s) (.scalar s)
  | flag (b : Bool) : Resembles (.flag b) (.flag b)
  | reference (path : String) : Resembles (.reference path) (.reference path)
  | tuple {xs ys : List Datum} (h : ResemblesAll xs ys) : Resembles (.tuple xs) (.tuple ys)
  | list {xs ys : List Datum} (h : ResemblesAll xs ys) : Resembles (.list xs) (.list ys)
  | map {xs ys : List (Key × Datum)} (h : ResemblesEntries xs ys) : Resembles (.map xs) (.map ys)
  | frozen {xs ys : List (Key × Datum)} (h : ResemblesEntries xs ys) :
      Resembles (.frozen xs) (.frozen ys)
  | object (location : Loc) (shown shown' : String) :
      Resembles (.object location shown) (.object location shown')
  | method (owner : Key) (name : String) : Resembles (.method owner name) (.method owner name)
  | endless (shown : String) : Resembles (.endless shown) (.endless shown)

/-- Pairwise resembling, and equally many. -/
inductive ResemblesAll : List Datum → List Datum → Prop
  | nil : ResemblesAll [] []
  | cons {x y : Datum} {xs ys : List Datum} (h : Resembles x y) (hs : ResemblesAll xs ys) :
      ResemblesAll (x :: xs) (y :: ys)

/-- Entries of the same keys with resembling values. -/
inductive ResemblesEntries : List (Key × Datum) → List (Key × Datum) → Prop
  | nil : ResemblesEntries [] []
  | cons (k : Key) {x y : Datum} {xs ys : List (Key × Datum)} (h : Resembles x y)
      (hs : ResemblesEntries xs ys) : ResemblesEntries ((k, x) :: xs) ((k, y) :: ys)

end

mutual

/-- A datum resembles itself. -/
theorem Resembles.refl : ∀ d : Datum, d.Resembles d
  | .scalar s => .scalar s
  | .flag b => .flag b
  | .reference path => .reference path
  | .tuple items => .tuple (ResemblesAll.refl items)
  | .list items => .list (ResemblesAll.refl items)
  | .map entries => .map (ResemblesEntries.refl entries)
  | .frozen entries => .frozen (ResemblesEntries.refl entries)
  | .object location shown => .object location shown shown
  | .method owner name => .method owner name
  | .endless shown => .endless shown

/-- Items resemble themselves. -/
theorem ResemblesAll.refl : ∀ ds : List Datum, ResemblesAll ds ds
  | [] => .nil
  | d :: ds => .cons (Resembles.refl d) (ResemblesAll.refl ds)

/-- Entries resemble themselves. -/
theorem ResemblesEntries.refl : ∀ es : List (Key × Datum), ResemblesEntries es es
  | [] => .nil
  | (k, d) :: es => .cons k (Resembles.refl d) (ResemblesEntries.refl es)

end

/-- Two functions that agree up to texts of objects give resembling items. -/
theorem ResemblesAll.map {α : Type} {f g : α → Datum} {vs : List α}
    (h : ∀ v ∈ vs, (f v).Resembles (g v)) : ResemblesAll (vs.map f) (vs.map g) := by
  induction vs with
  | nil => exact .nil
  | cons v vs ih =>
      exact .cons (h v List.mem_cons_self) (ih fun u hu => h u (List.mem_cons_of_mem v hu))

/-- They give resembling entries under the same keys. -/
theorem ResemblesEntries.map {α : Type} {f g : α → Datum} {es : List (Key × α)}
    (h : ∀ e ∈ es, (f e.2).Resembles (g e.2)) :
    ResemblesEntries (es.map fun e => (e.1, f e.2)) (es.map fun e => (e.1, g e.2)) := by
  induction es with
  | nil => exact .nil
  | cons e es ih =>
      exact .cons e.1 (h e List.mem_cons_self) (ih fun u hu => h u (List.mem_cons_of_mem e hu))

/-- Resembling items are equally many. -/
theorem ResemblesAll.length_eq {xs ys : List Datum} (h : ResemblesAll xs ys) :
    xs.length = ys.length := by
  induction xs generalizing ys with
  | nil =>
      cases h
      rfl
  | cons x xs ih =>
      cases h with
      | cons _ hs => exact congrArg (· + 1) (ih hs)

namespace ResemblesEntries

variable {xs ys : List (Key × Datum)}

/-- Resembling entries are equally many. -/
theorem length_eq (h : ResemblesEntries xs ys) : xs.length = ys.length := by
  induction xs generalizing ys with
  | nil =>
      cases h
      rfl
  | cons e xs ih =>
      cases h with
      | cons _ _ hs => exact congrArg (· + 1) (ih hs)

/-- Setting a key keeps the resemblance. -/
theorem set (h : ResemblesEntries xs ys) (key : Key) {v v' : Datum} (hv : v.Resembles v') :
    ResemblesEntries (Entries.set xs key v) (Entries.set ys key v') := by
  induction xs generalizing ys with
  | nil =>
      cases h
      exact .cons key hv .nil
  | cons e xs ih =>
      cases h with
      | cons k hx hs =>
          unfold Entries.set
          by_cases hkey : k.same key = true
          · rw [if_pos hkey, if_pos hkey]
            exact .cons k hv hs
          · rw [if_neg hkey, if_neg hkey]
            exact .cons k hx (ih hs)

/-- What a key leads to. -/
theorem find? (h : ResemblesEntries xs ys) (key : Key) :
    Option.Rel Resembles (Entries.find? xs key) (Entries.find? ys key) := by
  induction xs generalizing ys with
  | nil =>
      cases h
      exact .none
  | cons e xs ih =>
      cases h with
      | cons k hx hs =>
          have hrest := ih hs
          unfold Entries.find? at hrest ⊢
          by_cases hkey : k.same key = true
          · simpa [hkey] using Option.Rel.some hx
          · simpa [hkey] using hrest

end ResemblesEntries

/-! ## Canonical forms -/

section

variable {d d' : Datum} (h : d.Resembles d')
include h

/-- Resembling data are the error marker both or neither. -/
theorem Resembles.isError_eq : d'.isError = d.isError := by
  cases h <;> rfl

/-- Every outcome meets both of two resembling data, or neither. -/
theorem Resembles.isOpen_eq : Run.isOpen d' = Run.isOpen d := by
  cases h <;> rfl

end

mutual

/-- Resembling data have resembling canonical forms. -/
theorem Resembles.canonical : ∀ {d d' : Datum}, d.Resembles d' →
    ResultRel Resembles d.canonical d'.canonical
  | _, _, .scalar s => by
      simp only [Datum.canonical]
      cases s.canonical with
      | error fault => exact .error fault
      | ok c => exact .ok (.scalar c)
  | _, _, .tuple h => by
      simp only [Datum.canonical]
      exact h.canonicalAll.images fun _ _ hitems => .list hitems
  | _, _, .list h => by
      simp only [Datum.canonical]
      exact h.canonicalAll.images fun _ _ hitems => .list hitems
  | _, _, .map h => by
      simp only [Datum.canonical]
      exact (ResemblesEntries.canonicalEntries .nil h).images fun _ _ hentries => .map hentries
  | _, _, .endless shown => .error .endless
  | _, _, .flag b => .ok (.flag b)
  | _, _, .reference path => .ok (.reference path)
  | _, _, .frozen h => .ok (.frozen h)
  | _, _, .object location shown shown' => .ok (.object location shown shown')
  | _, _, .method owner name => .ok (.method owner name)

/-- Item by item, and the first without a canonical form decides on both sides. -/
theorem ResemblesAll.canonicalAll : ∀ {ds ds' : List Datum}, ResemblesAll ds ds' →
    ResultRel ResemblesAll (Datum.canonicalAll ds) (Datum.canonicalAll ds')
  | _, _, .nil => .ok .nil
  | _, _, .cons h hs => by
      simp only [Datum.canonicalAll]
      refine h.canonical.bind fun c c' hc => ?_
      exact hs.canonicalAll.bind fun cs cs' hcs => .ok (.cons hc hcs)

/-- Entry by entry, over the entries made so far; the keys are the same, so they collide alike. -/
theorem ResemblesEntries.canonicalEntries {done done' : Entries Datum}
    (hdone : ResemblesEntries done done') : ∀ {es es' : List (Key × Datum)},
      ResemblesEntries es es' →
        ResultRel ResemblesEntries (Datum.canonicalEntries done es) (Datum.canonicalEntries done' es')
  | _, _, .nil => by
      simp only [Datum.canonicalEntries]
      exact .ok hdone
  | _, _, .cons k h hs => by
      simp only [Datum.canonicalEntries]
      cases k.canonical with
      | error fault => exact .error fault
      | ok key =>
          refine h.canonical.bind fun c c' hc => ?_
          cases key with
          | none => exact .error _
          | some key => exact ResemblesEntries.canonicalEntries (hdone.set key hc) hs

end

mutual

/-- Telling booleans apart from numbers keeps the resemblance. -/
theorem Resembles.strict : ∀ {d d' : Datum}, d.Resembles d' → d.strict.Resembles d'.strict
  | _, _, .scalar s => .refl _
  | _, _, .list h => by
      simp only [Datum.strict]
      exact .list h.strictAll
  | _, _, .map h => by
      simp only [Datum.strict]
      exact .map h.strictEntries
  | _, _, .tuple h => .tuple h
  | _, _, .frozen h => .frozen h
  | _, _, .flag b => .flag b
  | _, _, .reference path => .reference path
  | _, _, .object location shown shown' => .object location shown shown'
  | _, _, .method owner name => .method owner name
  | _, _, .endless shown => .endless shown

/-- The same of items. -/
theorem ResemblesAll.strictAll : ∀ {ds ds' : List Datum}, ResemblesAll ds ds' →
    ResemblesAll (Datum.strictAll ds) (Datum.strictAll ds')
  | _, _, .nil => .nil
  | _, _, .cons h hs => .cons h.strict hs.strictAll

/-- The same of entries, whose keys stay the same on both sides. -/
theorem ResemblesEntries.strictEntries : ∀ {es es' : List (Key × Datum)}, ResemblesEntries es es' →
    ResemblesEntries (Datum.strictEntries es) (Datum.strictEntries es')
  | _, _, .nil => .nil
  | _, _, .cons k h hs => .cons k.strict h.strict hs.strictEntries

end

/-- The details of failures may differ, but there is one of both or of none. -/
theorem Resembles.detail {d d' : Datum} (h : d.Resembles d') :
    ResultRel (fun _ _ => True) d.detail d'.detail := by
  have hform := h.canonical
  unfold Datum.detail
  generalize d.canonical = form at hform ⊢
  generalize d'.canonical = form' at hform ⊢
  cases hform with
  | ok hform => exact .ok trivial
  | error fault =>
      dsimp only
      split
      · exact .ok trivial
      · exact .error fault

end Datum

/-! ## Data of live values -/

variable {ω : Type} {impl : Implementation ω}

section Live

variable {s s' : Store ω}

mutual

/-- Data resemble each other if those of what lives in the store do. -/
theorem Value.datumBy_resembles {look look' : Value → Datum}
    (hlook : ∀ v, s.SameWithin s' v → (look v).Resembles (look' v)) :
    ∀ v : Value, s.SameWithin s' v → (v.datumBy look).Resembles (v.datumBy look')
  | .scalar x, _ => .scalar x
  | .reference path, _ => .reference path
  | .tuple items, h => .tuple (Value.datumAllBy_resembles hlook items fun _ hmem => h.tuple hmem)
  | .frozen entries, h =>
      .frozen (Value.datumEntriesBy_resembles hlook entries fun _ hmem => h.frozen hmem)
  | .method owner name, _ => .method owner.ownerKey name
  | .list location, h => hlook (.list location) h
  | .map location, h => hlook (.map location) h
  | .object location, h => hlook (.object location) h

/-- The same of the items of a tuple. -/
theorem Value.datumAllBy_resembles {look look' : Value → Datum}
    (hlook : ∀ v, s.SameWithin s' v → (look v).Resembles (look' v)) :
    ∀ vs : List Value, (∀ v ∈ vs, s.SameWithin s' v) →
      Datum.ResemblesAll (Value.datumAllBy look vs) (Value.datumAllBy look' vs)
  | [], _ => .nil
  | v :: vs, h =>
      .cons (Value.datumBy_resembles hlook v (h v List.mem_cons_self))
        (Value.datumAllBy_resembles hlook vs fun u hu => h u (List.mem_cons_of_mem v hu))

/-- The same of the entries of a read-only mapping. -/
theorem Value.datumEntriesBy_resembles {look look' : Value → Datum}
    (hlook : ∀ v, s.SameWithin s' v → (look v).Resembles (look' v)) :
    ∀ es : List (Key × Value), (∀ e ∈ es, s.SameWithin s' e.2) →
      Datum.ResemblesEntries (Value.datumEntriesBy look es) (Value.datumEntriesBy look' es)
  | [], _ => .nil
  | (k, v) :: es, h =>
      .cons k (Value.datumBy_resembles hlook v (h (k, v) List.mem_cons_self))
        (Value.datumEntriesBy_resembles hlook es fun u hu => h u (List.mem_cons_of_mem _ hu))

end

variable (impl) in
/-- The datum of an object is its location, and some text. -/
theorem cellDatum_object (names : ScopeId → List String) (s : Store ω) (outer : List Loc)
    (inner : Loc → Value → Datum) (location : Loc) :
    ∃ shown, impl.cellDatum names s outer inner (.object location) = .object location shown := by
  simp only [Implementation.cellDatum]
  split
  · exact ⟨_, rfl⟩
  · exact ⟨_, rfl⟩

variable {names names' : ScopeId → List String}

/-- The data of what lives at a location, if those of its parts resemble each other. -/
theorem cellDatum_resembles {outer : List Loc} {inner inner' : Loc → Value → Datum}
    (hinner : ∀ location v, s.SameWithin s' v → (inner location v).Resembles (inner' location v))
    (v : Value) (h : s.SameWithin s' v) :
    (impl.cellDatum names s outer inner v).Resembles (impl.cellDatum names' s' outer inner' v) := by
  cases v with
  | list location =>
      simp only [Implementation.cellDatum]
      rw [(h location .list).1]
      split
      · exact .endless _
      · exact .list (.map fun v hmem => hinner location v (h.item hmem))
  | map location =>
      simp only [Implementation.cellDatum]
      rw [(h location .map).2]
      split
      · exact .endless _
      · exact .map (.map fun e hmem => hinner location e.2 (h.entry hmem))
  | object location =>
      obtain ⟨shown, heq⟩ := cellDatum_object impl names s outer inner location
      obtain ⟨shown', heq'⟩ := cellDatum_object impl names' s' outer inner' location
      rw [heq, heq']
      exact .object location shown shown'
  | _ => exact .refl _

/-- Inside given cells and down to a given depth. -/
theorem datumTo_resembles (n : Nat) : ∀ (outer : List Loc) (v : Value), s.SameWithin s' v →
    (impl.datumTo names s n outer v).Resembles (impl.datumTo names' s' n outer v) := by
  induction n with
  | zero =>
      intro outer v h
      unfold Implementation.datumTo
      exact Value.datumBy_resembles (cellDatum_resembles fun _ _ _ => .refl _) v h
  | succ n ih =>
      intro outer v h
      unfold Implementation.datumTo
      exact Value.datumBy_resembles
        (cellDatum_resembles fun location u hu => ih (location :: outer) u hu) v h

/-- **The data of a value resemble each other** in two stores where all lists and mappings
in it have the same content. -/
theorem datum_resembles {v : Value} (h : s.SameWithin s' v) :
    (impl.datum names s v).Resembles (impl.datum names' s' v) := by
  -- The stores may have different numbers of cells; the larger is depth enough for both.
  let depth := max s.cells.size s'.cells.size + 1
  have hdepth : ∀ (all : ScopeId → List String) (t : Store ω), t.cells.size + 1 ≤ depth →
      impl.datum all t v = impl.datumTo all t depth [] v := by
    intro all t hle
    exact congrFun (datumTo_of_le _ _ [] List.nodup_nil (fun _ hmem => nomatch hmem) (by simp) hle) v
  rw [hdepth names s (by omega), hdepth names' s' (by omega)]
  exact datumTo_resembles depth [] v h

end Live

/-! ## Comparing -/

/-- Asked in one of two stores or in the other, the implementation's own equalities answer
alike, and change no list and no mapping; `K` relates the stores they may leave on the two
sides. -/
structure Implementation.AsksAlike (impl : Implementation ω) (s s' : Store ω)
    (K : Store ω → Store ω → Prop) : Prop where
  start : K s s'
  contents : ∀ t t', K t t' → s.SameContents t ∧ s'.SameContents t'
  asked : ∀ t t' location, K t t' →
    Option.Rel (fun decide decide' => ∀ d d' : Datum, d.Resembles d' →
      Follows K Eq (decide d) (decide' d'))
      ((t.object? location).bind impl.equality?) ((t'.object? location).bind impl.equality?)

/-- Where no object decides its own equality, nothing is asked. -/
theorem Implementation.asksAlike_of_none {s s' : Store ω}
    (h : ∀ location, (s.object? location).bind impl.equality? = none)
    (h' : ∀ location, (s'.object? location).bind impl.equality? = none) :
    impl.AsksAlike s s' fun t t' => t = s ∧ t' = s' where
  start := ⟨rfl, rfl⟩
  contents := by
    rintro t t' ⟨rfl, rfl⟩
    exact ⟨Std.Refl.refl t, Std.Refl.refl t'⟩
  asked := by
    rintro t t' location ⟨rfl, rfl⟩
    rw [h, h']
    exact .none

/-- The texts of objects have no part in whether members are identical. -/
theorem identical_resembles {a a' b b' : Datum} (ha : a.Resembles a') (hb : b.Resembles b') :
    Implementation.identical a' b' = Implementation.identical a b := by
  cases ha with
  | object location shown shown' => cases hb <;> rfl
  | scalar s =>
      cases hb with
      | scalar t => rfl
      | _ => simp only [Implementation.identical]
  | _ => rfl

namespace Implementation.AsksAlike

variable {s s' t t' : Store ω} {K : Store ω → Store ω → Prop}

/-- An object's own equality is asked on both sides or on neither, and answers alike. -/
theorem ownEquality? (h : impl.AsksAlike s s' K) (hK : K t t') {a a' : Datum}
    (ha : a.Resembles a') :
    Option.Rel (fun decide decide' => ∀ d d' : Datum, d.Resembles d' →
      Follows K Eq (decide d) (decide' d')) (impl.ownEquality? t a) (impl.ownEquality? t' a') := by
  cases ha with
  | object location shown shown' => exact h.asked t t' location hK
  | _ => exact .none

mutual

/-- **Comparing resembling data** comes to the same. -/
theorem equal (h : impl.AsksAlike s s' K) (a b a' b' : Datum) (ha : a.Resembles a')
    (hb : b.Resembles b') : Follows K Eq (impl.equal a b) (impl.equal a' b') := by
  have hstore : Follows K K (Code.store : Code ω (Store ω)) Code.store := fun _ _ hK => ⟨.ok hK, hK⟩
  rw [Implementation.equal, Implementation.equal]
  refine Follows.bind hstore fun t t' hK => ?_
  have hown := h.ownEquality? hK ha
  generalize impl.ownEquality? t a = own at hown ⊢
  generalize impl.ownEquality? t' a' = own' at hown ⊢
  cases hown with
  | some hdecide => exact hdecide b b' hb
  | none =>
      have hother := h.ownEquality? hK hb
      generalize impl.ownEquality? t b = other at hother ⊢
      generalize impl.ownEquality? t' b' = other' at hother ⊢
      cases hother with
      | some hdecide => exact hdecide a a' ha
      | none => exact h.equalPlain a b a' b' ha hb
termination_by (sizeOf a + sizeOf b, 3)

/-- Where no object decides, the shapes do; resembling data have the same. -/
theorem equalPlain (h : impl.AsksAlike s s' K) (a b a' b' : Datum) (ha : a.Resembles a')
    (hb : b.Resembles b') : Follows K Eq (impl.equalPlain a b) (impl.equalPlain a' b') := by
  have hdefault : ∀ {step step' : Code ω Bool}, step = pure false → step' = pure false →
      Follows K Eq step step' := by
    rintro _ _ rfl rfl
    exact Follows.pure rfl
  rw [Implementation.equalPlain.eq_def, Implementation.equalPlain.eq_def]
  cases ha with
  | scalar x =>
      cases hb with
      | scalar y => exact Follows.pure rfl
      | _ => exact hdefault rfl rfl
  | flag x =>
      cases hb with
      | flag y => exact Follows.pure rfl
      | _ => exact hdefault rfl rfl
  | reference x =>
      cases hb with
      | reference y => exact Follows.pure rfl
      | _ => exact hdefault rfl rfl
  | object location shown shown' =>
      cases hb with
      | object other shown shown' => exact Follows.pure rfl
      | _ => exact hdefault rfl rfl
  | method x n =>
      cases hb with
      | method y m => exact Follows.pure rfl
      | _ => exact hdefault rfl rfl
  | tuple hxs =>
      cases hb with
      | tuple hys => exact h.equalItems _ _ _ _ hxs hys
      | _ => exact hdefault rfl rfl
  | list hxs =>
      cases hb with
      | list hys =>
          dsimp only
          rw [hxs.length_eq, hys.length_eq]
          exact Follows.ite (h.equalItems _ _ _ _ hxs hys) (Follows.pure rfl)
      | _ => exact hdefault rfl rfl
  | map hxs =>
      cases hb with
      | map hys =>
          dsimp only
          rw [hxs.length_eq, hys.length_eq]
          exact Follows.ite (h.equalEntries _ _ _ _ hxs hys) (Follows.pure rfl)
      | frozen hys =>
          dsimp only
          rw [hxs.length_eq, hys.length_eq]
          exact Follows.ite (h.equalEntries _ _ _ _ hys hxs) (Follows.pure rfl)
      | _ => exact hdefault rfl rfl
  | frozen hxs =>
      cases hb with
      | map hys =>
          dsimp only
          rw [hxs.length_eq, hys.length_eq]
          exact Follows.ite (h.equalEntries _ _ _ _ hxs hys) (Follows.pure rfl)
      | frozen hys =>
          dsimp only
          rw [hxs.length_eq, hys.length_eq]
          exact Follows.ite (h.equalEntries _ _ _ _ hys hxs) (Follows.pure rfl)
      | _ => exact hdefault rfl rfl
  | endless shown => cases hb <;> exact hdefault rfl rfl
termination_by (sizeOf a + sizeOf b, 2)

/-- Items are compared in order up to the first difference, which comes at the same place. -/
theorem equalItems (h : impl.AsksAlike s s' K) (xs ys xs' ys' : List Datum)
    (hxs : Datum.ResemblesAll xs xs') (hys : Datum.ResemblesAll ys ys') :
    Follows K Eq (impl.equalItems xs ys) (impl.equalItems xs' ys') := by
  rw [Implementation.equalItems.eq_def, Implementation.equalItems.eq_def]
  cases hxs with
  | nil => cases hys <;> exact Follows.pure rfl
  | cons hx hxs =>
      cases hys with
      | nil => exact Follows.pure rfl
      | cons hy hys =>
          exact Follows.ifEqual (fun _ _ => eq_comm) (h.equalMember _ _ _ _ hx hy)
            (h.equalItems _ _ _ _ hxs hys)
termination_by (sizeOf xs + sizeOf ys, 1)

/-- Entries are compared by the keys of the first mapping, which are the same on both sides. -/
theorem equalEntries (h : impl.AsksAlike s s' K) (xs ys xs' ys' : List (Key × Datum))
    (hxs : Datum.ResemblesEntries xs xs') (hys : Datum.ResemblesEntries ys ys') :
    Follows K Eq (impl.equalEntries xs ys) (impl.equalEntries xs' ys') := by
  cases hxs with
  | nil =>
      rw [Implementation.equalEntries, Implementation.equalEntries]
      exact Follows.pure rfl
  | cons k hx hxs =>
      rw [Implementation.equalEntries_cons, Implementation.equalEntries_cons]
      have hfound := hys.find? k
      cases hy : Entries.find? ys k with
      | none =>
          rw [hy] at hfound
          generalize Entries.find? ys' k = found at hfound ⊢
          cases hfound
          exact Follows.pure rfl
      | some y =>
          have hsize := Entries.sizeOf_find? hy
          rw [hy] at hfound
          generalize Entries.find? ys' k = found at hfound ⊢
          cases hfound with
          | some hmember =>
              exact Follows.ifEqual (fun _ _ => eq_comm) (h.equalMember _ _ _ _ hmember hx)
                (h.equalEntries _ _ _ _ hxs hys)
termination_by (sizeOf xs + sizeOf ys, 1)

/-- Members that are identical are not asked, on both sides. -/
theorem equalMember (h : impl.AsksAlike s s' K) (a b a' b' : Datum) (ha : a.Resembles a')
    (hb : b.Resembles b') : Follows K Eq (impl.equalMember a b) (impl.equalMember a' b') := by
  rw [Implementation.equalMember, Implementation.equalMember, identical_resembles ha hb]
  exact Follows.ite (Follows.pure rfl) (h.equal _ _ _ _ ha hb)
termination_by (sizeOf a + sizeOf b, 4)

end

end Implementation.AsksAlike

end Conformance
