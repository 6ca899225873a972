import Conformance.Proofs.Preservation
import Conformance.Proofs.Reachability
import Conformance.Proofs.Relocation

/-!
# Tagging and resolving

A value of a document is tagged when its feature is parsed, and resolved when the feature is
run.  Together the two substitute: every marker of the value gives way to what is bound at its
path, and all else is built anew, each list and mapping in a cell of its own
(`Store.Rebuilt`).  The paths are looked up in the order in which the markers stand in the value
(`Scope.Reads`), and the first one that cannot be looked up ends the resolving with its fault
(`Scope.FirstUnread`).

Authored data has no locations, so no part of it is shared with what is built.  That nothing
else shares the new cells is an invariant of the run: no lookup on the way can reach them
(`Scope.Resolution`), so that they still have the content they were made with when the last
path is looked up.
-/

namespace Conformance

variable {ω : Type}

/-! ## Markers of a value -/

namespace Literal

mutual

/-- Paths of the markers in a value, in camel style and in the order in which they stand there. -/
def markerPaths : Literal → List String
  | .map entries =>
    match marker? (.map entries) with
    | some path => [Name.camelize path]
    | none => markerPathsEntries entries
  | .list items => markerPathsAll items
  | _ => []

/-- Paths of the markers in values. -/
def markerPathsAll : List Literal → List String
  | [] => []
  | v :: vs => markerPaths v ++ markerPathsAll vs

/-- Paths of the markers among the values of entries. -/
def markerPathsEntries : List (Key × Literal) → List String
  | [] => []
  | (_, v) :: es => markerPaths v ++ markerPathsEntries es

end

end Literal

/-! ## Rebuilt values -/

namespace Store

mutual

/-- The live value is the authored one with its markers replaced, in their order, by the values
`xs`; its own lists and mappings live at the locations `ls`. -/
inductive Rebuilt (s : Store ω) : Literal → List Value → List Loc → Value → Prop
  | marker {v : Literal} {path : String} (x : Value) (h : v.marker? = some path) :
      Rebuilt s v [x] [] x
  | scalar (c : Scalar) : Rebuilt s (.scalar c) [] [] (.scalar c)
  | list {items : List Literal} {us xs : List Value} {location : Loc} {ls : List Loc}
      (hcell : s.get? location = some (.list us)) (h : RebuiltAll s items xs ls us) :
      Rebuilt s (.list items) xs (location :: ls) (.list location)
  | map {entries : List (Key × Literal)} {us : Entries Value} {xs : List Value} {location : Loc}
      {ls : List Loc} (hmarker : Literal.marker? (.map entries) = none)
      (hcell : s.get? location = some (.map us)) (h : RebuiltEntries s entries xs ls us) :
      Rebuilt s (.map entries) xs (location :: ls) (.map location)

/-- The live values are the authored ones, one by one. -/
inductive RebuiltAll (s : Store ω) : List Literal → List Value → List Loc → List Value → Prop
  | nil : RebuiltAll s [] [] [] []
  | cons {v : Literal} {vs : List Literal} {xs xs' us : List Value} {ls ls' : List Loc} {u : Value}
      (h : Rebuilt s v xs ls u) (hrest : RebuiltAll s vs xs' ls' us) :
      RebuiltAll s (v :: vs) (xs ++ xs') (ls ++ ls') (u :: us)

/-- The live entries are the authored ones, one by one and with the same keys. -/
inductive RebuiltEntries (s : Store ω) :
    List (Key × Literal) → List Value → List Loc → Entries Value → Prop
  | nil : RebuiltEntries s [] [] [] []
  | cons {k : Key} {v : Literal} {es : List (Key × Literal)} {xs xs' : List Value}
      {us : Entries Value} {ls ls' : List Loc} {u : Value}
      (h : Rebuilt s v xs ls u) (hrest : RebuiltEntries s es xs' ls' us) :
      RebuiltEntries s ((k, v) :: es) (xs ++ xs') (ls ++ ls') ((k, u) :: us)

end

variable {s s' : Store ω}

mutual

/-- What is rebuilt depends on its own cells alone. -/
theorem Rebuilt.congr {v : Literal} {xs : List Value} {ls : List Loc} {u : Value} :
    s.Rebuilt v xs ls u → (∀ l ∈ ls, s'.get? l = s.get? l) → s'.Rebuilt v xs ls u
  | .marker x h, _ => .marker x h
  | .scalar c, _ => .scalar c
  | .list hcell h, hsame => .list ((hsame _ List.mem_cons_self).trans hcell)
      (RebuiltAll.congr h fun l hl => hsame l (List.mem_cons_of_mem _ hl))
  | .map hmarker hcell h, hsame => .map hmarker ((hsame _ List.mem_cons_self).trans hcell)
      (RebuiltEntries.congr h fun l hl => hsame l (List.mem_cons_of_mem _ hl))

/-- Items are rebuilt in every store with the same cells. -/
theorem RebuiltAll.congr {vs : List Literal} {xs : List Value} {ls : List Loc} {us : List Value} :
    s.RebuiltAll vs xs ls us → (∀ l ∈ ls, s'.get? l = s.get? l) → s'.RebuiltAll vs xs ls us
  | .nil, _ => .nil
  | .cons h hrest, hsame => .cons
      (Rebuilt.congr h fun l hl => hsame l (List.mem_append_left _ hl))
      (RebuiltAll.congr hrest fun l hl => hsame l (List.mem_append_right _ hl))

/-- So are entries. -/
theorem RebuiltEntries.congr {es : List (Key × Literal)} {xs : List Value} {ls : List Loc}
    {us : Entries Value} :
    s.RebuiltEntries es xs ls us → (∀ l ∈ ls, s'.get? l = s.get? l) → s'.RebuiltEntries es xs ls us
  | .nil, _ => .nil
  | .cons h hrest, hsame => .cons
      (Rebuilt.congr h fun l hl => hsame l (List.mem_append_left _ hl))
      (RebuiltEntries.congr hrest fun l hl => hsame l (List.mem_append_right _ hl))

end

end Store

namespace Scope

/-! ## Looking up paths in order -/

section

variable (impl : Implementation ω) (scope : ScopeId)

/-- The paths are looked up one after the other and give the values; in between cells are made. -/
inductive Reads : World ω → List String → List Value → World ω → Prop
  | done {w : World ω} : Reads w [] [] w
  | made {w w' : World ω} {paths : List String} {xs : List Value} (cell : Cell ω)
      (h : Reads { w with store := (w.store.alloc cell).2 } paths xs w') : Reads w paths xs w'
  | read {w w₁ w' : World ω} {path : String} {paths : List String} {x : Value} {xs : List Value}
      (hget : runFrom (get impl scope path) w = (.ok x, w₁)) (h : Reads w₁ paths xs w') :
      Reads w (path :: paths) (x :: xs) w'

/-- The first of the paths that cannot be looked up ends with a fault. -/
inductive FirstUnread (w : World ω) (paths : List String) (fault : Fault) (w' : World ω) : Prop
  | intro {before after : List String} {path : String} {xs : List Value} {w₁ : World ω}
      (hpaths : paths = before ++ path :: after) (hbefore : Reads impl scope w before xs w₁)
      (hget : runFrom (get impl scope path) w₁ = (.error fault, w'))

end

variable {impl : Implementation ω} {scope : ScopeId} {w w' w'' : World ω}
  {paths paths' : List String} {xs xs' : List Value} {fault : Fault}

/-- Paths that are read one after another are read together. -/
theorem Reads.append (h : Reads impl scope w paths xs w')
    (h' : Reads impl scope w' paths' xs' w'') :
    Reads impl scope w (paths ++ paths') (xs ++ xs') w'' := by
  induction h with
  | done => exact h'
  | made cell _ ih => exact .made cell (ih h')
  | read hget _ ih => exact .read hget (ih h')

/-- What comes behind the first unread path does not matter. -/
theorem FirstUnread.append (h : FirstUnread impl scope w paths fault w') (more : List String) :
    FirstUnread impl scope w (paths ++ more) fault w' := by
  obtain ⟨hpaths, hbefore, hget⟩ := h
  subst hpaths
  exact ⟨by rw [List.append_assoc]; rfl, hbefore, hget⟩

/-- Paths that are read may stand in front. -/
theorem FirstUnread.after (h : FirstUnread impl scope w' paths' fault w'')
    (hreads : Reads impl scope w paths xs w') :
    FirstUnread impl scope w (paths ++ paths') fault w'' := by
  obtain ⟨hpaths, hbefore, hget⟩ := h
  subst hpaths
  exact ⟨(List.append_assoc _ _ _).symm, hreads.append hbefore, hget⟩

/-! ## Resolving step by step -/

variable {leadsTo : ω → Loc → Prop} {P P' P'' : Loc → Prop} {ls ls' : List Loc}

variable (impl scope leadsTo) in
/-- What resolving has done when it comes to an end: it has looked up the paths, and made cells
at the locations `ls`, which are new, different and out of reach of all else. -/
structure Resolution (P : Loc → Prop) (w : World ω) (paths : List String) (P' : Loc → Prop)
    (xs : List Value) (ls : List Loc) (w' : World ω) : Prop where
  reads : Reads impl scope w paths xs w'
  sees : World.Sees leadsTo P P' w w'
  live : ∀ x ∈ xs, x.Within P'
  fresh : ∀ l ∈ ls, w.store.cells.size ≤ l ∧ l < w'.store.cells.size ∧ ¬ P' l
  nodup : ls.Nodup

namespace Resolution

/-- The cells that were made are out of reach of what is resolved next, so they are kept. -/
theorem kept (h : Resolution impl scope leadsTo P w paths P' xs ls w')
    (hlater : World.Sees leadsTo P' P'' w' w'') :
    ∀ l ∈ ls, w''.store.get? l = w'.store.get? l ∧ ¬ P'' l := by
  intro l hl
  obtain ⟨-, hlt, hunseen⟩ := h.fresh l hl
  refine ⟨hlater.store.kept l hlt hunseen, fun hseen => ?_⟩
  rcases hlater.store.fresh l hseen with hold | hnew
  · exact hunseen hold
  · exact absurd hlt (Nat.not_lt_of_le hnew)

/-- One value is resolved after another. -/
theorem append (h : Resolution impl scope leadsTo P w paths P' xs ls w')
    (h' : Resolution impl scope leadsTo P' w' paths' P'' xs' ls' w'') :
    Resolution impl scope leadsTo P w (paths ++ paths') P'' (xs ++ xs') (ls ++ ls') w'' where
  reads := h.reads.append h'.reads
  sees := h.sees.trans h'.sees
  live := by
    intro x hx
    rcases List.mem_append.mp hx with hfirst | hsecond
    · exact (h.live x hfirst).mono h'.sees.store.mono
    · exact h'.live x hsecond
  fresh := by
    intro l hl
    rcases List.mem_append.mp hl with hfirst | hsecond
    · obtain ⟨hnew, hlt, -⟩ := h.fresh l hfirst
      exact ⟨hnew, Nat.lt_of_lt_of_le hlt h'.sees.store.size_le, (h.kept h'.sees l hfirst).2⟩
    · obtain ⟨hnew, hlt, hunseen⟩ := h'.fresh l hsecond
      exact ⟨Nat.le_trans h.sees.store.size_le hnew, hlt, hunseen⟩
  nodup := by
    refine List.nodup_append.mpr ⟨h.nodup, h'.nodup, fun l hl l' hl' heq => ?_⟩
    have hlt := (h.fresh l hl).2.1
    have hnew := (h'.fresh l' hl').1
    exact absurd hnew (Nat.not_le_of_lt (heq ▸ hlt))

/-- A cell is made for what was resolved. -/
theorem alloc (h : Resolution impl scope leadsTo P w paths P' xs ls w') (cell : Cell ω) :
    Resolution impl scope leadsTo P w paths P' xs (w'.store.cells.size :: ls)
      { w' with store := (w'.store.alloc cell).2 } where
  reads := by
    have hmade : Reads impl scope w' [] [] { w' with store := (w'.store.alloc cell).2 } :=
      .made cell .done
    have hall := h.reads.append hmade
    rwa [List.append_nil, List.append_nil] at hall
  sees := h.sees.trans ⟨⟨_, rfl⟩, .alloc h.sees.store.closed cell⟩
  live := h.live
  fresh := by
    have hgrown : w'.store.cells.size < (w'.store.alloc cell).2.cells.size := by
      rw [Store.size_alloc]
      exact Nat.lt_succ_self _
    intro l hl
    rcases List.mem_cons.mp hl with rfl | hold
    · refine ⟨h.sees.store.size_le, hgrown, fun hseen => ?_⟩
      exact Nat.lt_irrefl _ (h.sees.store.closed.lt _ hseen)
    · obtain ⟨hnew, hlt, hunseen⟩ := h.fresh l hold
      exact ⟨hnew, Nat.lt_trans hlt hgrown, hunseen⟩
  nodup := by
    refine List.nodup_cons.mpr ⟨fun hmem => ?_, h.nodup⟩
    exact Nat.lt_irrefl _ (h.fresh _ hmem).2.1

end Resolution

variable (impl scope leadsTo) in
/-- The step resolves the markers with given paths and makes something of the shape `S`, or it ends
with the fault of the first path that cannot be looked up. -/
def Resolves {α : Type} (P : Loc → Prop) (w : World ω) (paths : List String)
    (S : Store ω → List Value → List Loc → α → Prop) (step : Exec ω α) : Prop :=
  (∃ P' xs ls a w', runFrom step w = (.ok a, w') ∧
    Resolution impl scope leadsTo P w paths P' xs ls w' ∧ S w'.store xs ls a) ∨
  ∃ fault w', runFrom step w = (.error fault, w') ∧ FirstUnread impl scope w paths fault w'

namespace Resolves

variable {α β γ : Type} {S : Store ω → List Value → List Loc → α → Prop}
  {T : Store ω → List Value → List Loc → β → Prop}
  {U : Store ω → List Value → List Loc → γ → Prop}

/-- A step that makes a value of nothing. -/
theorem pure {a : α} (hclosed : w.store.Closed leadsTo P) (ha : S w.store [] [] a) :
    Resolves impl scope leadsTo P w [] S (Pure.pure a) := by
  refine Or.inl ⟨P, [], [], a, w, rfl, ?_, ha⟩
  exact
    { reads := .done
      sees := .refl hclosed
      live := nofun
      fresh := nofun
      nodup := List.nodup_nil }

/-- A marker is resolved by a lookup. -/
theorem get (h : impl.ReadsWithin leadsTo) (hclosed : w.store.Closed leadsTo P)
    (hscope : (Owner.scope scope).Within P w) {path : String}
    {S : Store ω → List Value → List Loc → Value → Prop} (hvalue : ∀ s x, S s [x] [] x) :
    Resolves impl scope leadsTo P w [path] S (Scope.get impl scope path) := by
  obtain ⟨P', hsees, hgiven⟩ := get_confined h path hclosed hscope
  rcases hget : runFrom (Scope.get impl scope path) w with ⟨fault | x, w'⟩
  · exact Or.inr ⟨fault, w', hget, ⟨(List.nil_append _).symm, .done, hget⟩⟩
  · rw [hget] at hsees hgiven
    refine Or.inl ⟨P', [x], [], x, w', hget, ?_, hvalue _ x⟩
    exact
      { reads := .read hget .done
        sees := hsees
        live := fun y hy => List.mem_singleton.mp hy ▸ hgiven x rfl
        fresh := nofun
        nodup := List.nodup_nil }

/-- Two steps make the parts of one value. -/
theorem seq {first : Exec ω α} {second : Exec ω β} {f : α → β → γ}
    (hfirst : Resolves impl scope leadsTo P w paths S first)
    (hsecond : ∀ P' w', World.Sees leadsTo P P' w w' →
      Resolves impl scope leadsTo P' w' paths' T second)
    (hcongr : ∀ {s s' : Store ω} {xs ls a}, S s xs ls a → (∀ l ∈ ls, s'.get? l = s.get? l) →
      S s' xs ls a)
    (hparts : ∀ {s : Store ω} {xs xs' ls ls' a b}, S s xs ls a → T s xs' ls' b →
      U s (xs ++ xs') (ls ++ ls') (f a b)) :
    Resolves impl scope leadsTo P w (paths ++ paths') U
      (first >>= fun a => second >>= fun b => Pure.pure (f a b)) := by
  unfold Resolves
  rw [runFrom_bind]
  rcases hfirst with ⟨P', xs, ls, a, w', hrun, hmade, ha⟩ | ⟨fault, w', hrun, hunread⟩
  · rw [hrun]
    dsimp only
    rw [runFrom_bind]
    rcases hsecond P' w' hmade.sees with
      ⟨P'', xs', ls', b, w'', hrun', hmade', hb⟩ | ⟨fault, w'', hrun', hunread⟩
    · rw [hrun']
      have hkept := hcongr ha fun l hl => (hmade.kept hmade'.sees l hl).1
      exact Or.inl ⟨P'', _, _, f a b, w'', rfl, hmade.append hmade', hparts hkept hb⟩
    · rw [hrun']
      exact Or.inr ⟨fault, w'', rfl, hunread.after hmade.reads⟩
  · rw [hrun]
    exact Or.inr ⟨fault, w', rfl, hunread.append _⟩

/-- A cell is made for what a step has made. -/
theorem alloc {step : Exec ω α} {cell : α → Cell ω} {v : Loc → Value}
    {U : Store ω → List Value → List Loc → Value → Prop}
    (h : Resolves impl scope leadsTo P w paths S step)
    (hcongr : ∀ {s s' : Store ω} {xs ls a}, S s xs ls a → (∀ l ∈ ls, s'.get? l = s.get? l) →
      S s' xs ls a)
    (hwhole : ∀ {s : Store ω} {xs ls a l}, s.get? l = some (cell a) → S s xs ls a →
      U s xs (l :: ls) (v l)) :
    Resolves impl scope leadsTo P w paths U
      (step >>= fun a => Exec.code (do return v (← Code.alloc (cell a)))) := by
  unfold Resolves
  rw [runFrom_bind]
  rcases h with ⟨P', xs, ls, a, w', hrun, hmade, ha⟩ | ⟨fault, w', hrun, hunread⟩
  · rw [hrun]
    have hkept := hcongr ha fun l hl =>
      Store.get?_alloc_of_lt (hmade.fresh l hl).2.1 (cell a)
    exact Or.inl ⟨P', xs, _, _, _, rfl, hmade.alloc (cell a),
      hwhole (Store.get?_alloc_self w'.store (cell a)) hkept⟩
  · rw [hrun]
    exact Or.inr ⟨fault, w', rfl, hunread⟩

end Resolves

/-! ## Values, item by item and entry by entry -/

mutual

/-- **A tagged value is resolved** to the value rebuilt. -/
theorem resolve_tag (h : impl.ReadsWithin leadsTo) : ∀ v : Literal,
    v.isYamlShaped = true → v.hasReference = false →
    ∀ (P : Loc → Prop) (w : World ω), w.store.Closed leadsTo P → (Owner.scope scope).Within P w →
      Resolves impl scope leadsTo P w v.markerPaths (fun s => s.Rebuilt v)
        (resolve impl scope v.tag)
  | .scalar c, _, _, P, w, hclosed, _ => by
      change Resolves impl scope leadsTo P w [] (fun s => s.Rebuilt (.scalar c))
        (Pure.pure (.scalar c))
      exact .pure hclosed (.scalar c)
  | .reference path, _, hreference, _, _, _, _ => by cases hreference
  | .tuple items, hshape, _, _, _, _, _ => by cases hshape
  | .list items, hshape, hreference, P, w, hclosed, hscope => by
      have hitems := resolveAll_tag h items hshape hreference P w hclosed hscope
      rw [Literal.tag, resolve]
      exact hitems.alloc Store.RebuiltAll.congr .list
  | .map entries, hshape, hreference, P, w, hclosed, hscope => by
      unfold Literal.markerPaths Literal.tag
      rcases hmarker : Literal.marker? (.map entries) with _ | path
      · have hentries := resolveEntries_tag h entries hshape hreference P w hclosed hscope
        dsimp only
        rw [resolve]
        exact hentries.alloc Store.RebuiltEntries.congr (.map hmarker)
      · dsimp only
        rw [resolve]
        exact .get h hclosed hscope fun s x => .marker x hmarker

/-- The same of the items of a list: their cells are new to each other, too. -/
theorem resolveAll_tag (h : impl.ReadsWithin leadsTo) : ∀ vs : List Literal,
    Literal.isYamlShapedAll vs = true → Literal.hasReferenceAny vs = false →
    ∀ (P : Loc → Prop) (w : World ω), w.store.Closed leadsTo P → (Owner.scope scope).Within P w →
      Resolves impl scope leadsTo P w (Literal.markerPathsAll vs) (fun s => s.RebuiltAll vs)
        (resolveAll impl scope (Literal.tagAll vs))
  | [], _, _, P, w, hclosed, _ => by
      rw [Literal.tagAll, resolveAll]
      exact .pure hclosed .nil
  | v :: vs, hshape, hreference, P, w, hclosed, hscope => by
      rw [Literal.isYamlShapedAll, Bool.and_eq_true] at hshape
      rw [Literal.hasReferenceAny, Bool.or_eq_false_iff] at hreference
      have hfirst := resolve_tag h v hshape.1 hreference.1 P w hclosed hscope
      rw [Literal.tagAll, resolveAll]
      refine hfirst.seq (fun P' w' hsees => ?_) Store.Rebuilt.congr .cons
      exact resolveAll_tag h vs hshape.2 hreference.2 P' w' hsees.store.closed (hsees.owner hscope)

/-- The same of the entries of a mapping. -/
theorem resolveEntries_tag (h : impl.ReadsWithin leadsTo) : ∀ es : List (Key × Literal),
    Literal.isYamlShapedEntries es = true → Literal.hasReferenceEntries es = false →
    ∀ (P : Loc → Prop) (w : World ω), w.store.Closed leadsTo P → (Owner.scope scope).Within P w →
      Resolves impl scope leadsTo P w (Literal.markerPathsEntries es) (fun s => s.RebuiltEntries es)
        (resolveEntries impl scope (Literal.tagEntries es))
  | [], _, _, P, w, hclosed, _ => by
      rw [Literal.tagEntries, resolveEntries]
      exact .pure hclosed .nil
  | (k, v) :: es, hshape, hreference, P, w, hclosed, hscope => by
      rw [Literal.isYamlShapedEntries, Bool.and_eq_true, Bool.and_eq_true] at hshape
      rw [Literal.hasReferenceEntries, Bool.or_eq_false_iff] at hreference
      have hfirst := resolve_tag h v hshape.1.2 hreference.1 P w hclosed hscope
      rw [Literal.tagEntries, resolveEntries]
      refine hfirst.seq (fun P' w' hsees => ?_) Store.Rebuilt.congr .cons
      exact resolveEntries_tag h es hshape.2 hreference.2 P' w' hsees.store.closed
        (hsees.owner hscope)

end

/-- **Tagging and then resolving is substitution.**  For a value made of scalars, lists and
mappings, either every marker can be looked up, in the order of the value, and the result is the
value rebuilt with what the lookups gave in place of the markers; or the first lookup that fails
ends it with its fault.

The lists and mappings of the result live in cells that did not exist before, each in its own,
and that are reached neither from what was looked up nor from the scope.  The scopes are as they
were. -/
theorem resolve_tagged (impl : Implementation ω) (h : impl.ReadsWithin leadsTo) (w : World ω)
    (scope : ScopeId) (hw : w.Grounded leadsTo scope) (v : Literal) (hshape : v.isYamlShaped = true)
    (hreference : v.hasReference = false) :
    (runFrom (resolve impl scope v.tag) w).2.scopes = w.scopes ∧
    ((∃ xs ls u w', runFrom (resolve impl scope v.tag) w = (.ok u, w') ∧
        Reads impl scope w v.markerPaths xs w' ∧ w'.store.Rebuilt v xs ls u ∧
        (∀ l ∈ ls, w.store.cells.size ≤ l) ∧ ls.Nodup ∧
        ∀ l ∈ ls, (∀ x ∈ xs, ¬ w'.store.Reaches leadsTo x l) ∧
          ∀ e ∈ w'.bindings scope, ¬ w'.store.Reaches leadsTo e.2 l) ∨
      ∃ fault w', runFrom (resolve impl scope v.tag) w = (.error fault, w') ∧
        FirstUnread impl scope w v.markerPaths fault w') := by
  refine ⟨resolve_kept SameScopes.composes.keeps scope v.tag w, ?_⟩
  rcases resolve_tag h v hshape hreference _ w hw.store hw.bindings with
    ⟨P', xs, ls, u, w', hrun, hmade, hbuilt⟩ | hunread
  · refine Or.inl ⟨xs, ls, u, w', hrun, hmade.reads, hbuilt, fun l hl => (hmade.fresh l hl).1,
      hmade.nodup, fun l hl => ?_⟩
    have hunseen := (hmade.fresh l hl).2.2
    have hscope : (Owner.scope scope).Within P' w' := hmade.sees.owner hw.bindings
    constructor
    · exact fun x hx hreaches => hunseen (hreaches.within hmade.sees.store.closed (hmade.live x hx))
    · exact fun e he hreaches => hunseen (hreaches.within hmade.sees.store.closed (hscope e he))
  · exact Or.inr hunread

/-! ## A value with a marker inside -/

/-- A scope with a list bound in it. -/
def markedWorld : World Sample.Object :=
  ⟨⟨#[.list [.int 1]], fun _ => []⟩, #[[("xY", .list 0)]], #[], #[]⟩

/-- A mapping with one entry that is no marker, and a marker inside. -/
def markedValue : Literal :=
  .map [(.str "items", .list [.scalar (.int 2), .map [(.str "x_y", .null)]])]

theorem markedWorld_grounded : markedWorld.Grounded Sample.leads 0 where
  store :=
    { lt := fun _ h => h
      mentioned := by
        intro location cell hlt hcell further hmentions
        obtain rfl : location = 0 := Nat.lt_one_iff.mp hlt
        cases hcell
        cases hmentions with
        | item hv h =>
            obtain rfl := List.mem_singleton.mp hv
            cases h
      marks := nofun }
  bindings := by
    intro e he location hmentions
    obtain rfl := List.mem_singleton.mp he
    cases hmentions
    decide

theorem markedValue_resolved :
    (runFrom (resolve (Sample.implementation []) 0 markedValue.tag) markedWorld).1 = .ok (.map 2) :=
  rfl

/-- The marker inside is replaced, by the general statement, and the rest is built anew. -/
theorem marked_value_substituted :
    (Sample.implementation []).ReadsWithin Sample.leads ∧ markedWorld.Grounded Sample.leads 0 ∧
      markedValue.isYamlShaped = true ∧ markedValue.hasReference = false ∧
      ∃ xs ls w', runFrom (resolve (Sample.implementation []) 0 markedValue.tag) markedWorld =
          (.ok (.map 2), w') ∧
        Reads (Sample.implementation []) 0 markedWorld ["xY"] xs w' ∧
        w'.store.Rebuilt markedValue xs ls (.map 2) ∧ ∀ l ∈ ls, 1 ≤ l := by
  have hreads := Sample.implementation_readsWithin []
  refine ⟨hreads, markedWorld_grounded, rfl, rfl, ?_⟩
  obtain ⟨-, ⟨xs, ls, u, w', hrun, hlooked, hbuilt, hnew, -⟩ | ⟨fault, w', hrun, -⟩⟩ :=
    resolve_tagged (Sample.implementation []) hreads markedWorld 0 markedWorld_grounded markedValue
      rfl rfl
  · have hresult := markedValue_resolved
    rw [hrun] at hresult
    obtain rfl := Except.ok.inj hresult
    have hpaths : markedValue.markerPaths = ["xY"] := by decide +kernel
    rw [hpaths] at hlooked
    exact ⟨xs, ls, w', hrun, hlooked, hbuilt, hnew⟩
  · have hresult := markedValue_resolved
    rw [hrun] at hresult
    cases hresult

end Scope

end Conformance
