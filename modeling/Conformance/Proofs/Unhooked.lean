import Conformance.Proofs.Constants

/-!
# Scopes without hooks

Of all that a feature can call, only a hook has a scope, the one it was bound to.  Code
of an implementation has none, so it binds no hooks: `BindsNone` says that a scope
without hooks (`Store.Unhooked`) stays so, whatever code is run.

The relation `LeavesAlone` adds to this that the bindings of the scope do not change.
Every step but an assignment keeps it (`LeavesAlone.keeps`), an assignment in another
scope keeps it too, and so does a call: the hooks there are belong to other scopes.
What is left are the assignments of the scope's own features (`assign_binds`).
-/

namespace Conformance

variable {ω : Type}

/-! ## Hooks in the store -/

/-- No hook is bound to the scope. -/
def Store.Unhooked (s : Store ω) (scope : ScopeId) : Prop :=
  ∀ location other function attributes,
    s.get? location = some (.hook other function attributes) → other ≠ scope

namespace Store.Unhooked

variable {s : Store ω} {scope : ScopeId} {cell : Cell ω}

/-- A new cell that is no hook of the scope. -/
theorem alloc (h : s.Unhooked scope)
    (hcell : ∀ function attributes, cell ≠ .hook scope function attributes) :
    (s.alloc cell).2.Unhooked scope := by
  intro location other function attributes hget
  change (s.cells.push cell)[location]? = some _ at hget
  rw [Array.getElem?_push] at hget
  split at hget
  · rintro rfl
    exact hcell function attributes (Option.some.inj hget)
  · exact h location other function attributes hget

/-- A changed cell that is no hook of the scope. -/
theorem put (h : s.Unhooked scope) (location : Loc)
    (hcell : ∀ function attributes, cell ≠ .hook scope function attributes) :
    (s.put location cell).Unhooked scope := by
  intro at? other function attributes hget
  change (s.cells.setIfInBounds location cell)[at?]? = some _ at hget
  rw [Array.getElem?_setIfInBounds] at hget
  split at hget
  · split at hget
    · rintro rfl
      exact hcell function attributes (Option.some.inj hget)
    · cases hget
  · exact h at? other function attributes hget

/-- Markers hold no hooks of their own. -/
theorem mark (h : s.Unhooked scope) (marker : Sentinel) (name : String) (v : Value) :
    (s.mark marker name v).Unhooked scope := h

end Store.Unhooked

/-- A store without cells has no hooks. -/
theorem Store.unhooked_empty (scope : ScopeId) : (Store.empty : Store ω).Unhooked scope := by
  intro location other function attributes hget
  change (#[] : Array (Cell ω))[location]? = some _ at hget
  simp at hget

/-- The code binds no hook to a scope without hooks. -/
def Code.BindsNone {α : Type} (c : Code ω α) : Prop :=
  ∀ scope : ScopeId, Moves (fun s s' : Store ω => s.Unhooked scope → s'.Unhooked scope) c

/-- The implementation binds no hooks: its code has no scope to bind one to. -/
def Implementation.BindsNone (impl : Implementation ω) : Prop :=
  impl.AllCode fun c => Code.BindsNone c

/-! ## Scopes that are left alone -/

/-- The scope is as it was, and without hooks. -/
structure Undisturbed (scope : ScopeId) (w w' : World ω) : Prop where
  unhooked : w'.store.Unhooked scope
  size : w'.scopes.size = w.scopes.size
  bindings : w'.bindings scope = w.bindings scope

/-- The scope is as it was, if it had no hooks. -/
def LeavesAlone (scope : ScopeId) (w w' : World ω) : Prop :=
  w.store.Unhooked scope → Undisturbed scope w w'

namespace LeavesAlone

variable {scope : ScopeId}

instance : Std.Refl (LeavesAlone (ω := ω) scope) := ⟨fun _ h => ⟨h, rfl, rfl⟩⟩

instance : IsTrans (World ω) (LeavesAlone scope) where
  trans _ _ _ h h' hfirst :=
    let hsecond := h hfirst
    let hthird := h' hsecond.unhooked
    ⟨hthird.unhooked, hthird.size.trans hsecond.size, hthird.bindings.trans hsecond.bindings⟩

theorem log (w : World ω) (log : Array Record) : LeavesAlone scope w { w with log } :=
  fun h => ⟨h, rfl, rfl⟩

/-- Code that binds no hooks. -/
theorem code {α : Type} {c : Code ω α}
    (h : Moves (fun s s' : Store ω => s.Unhooked scope → s'.Unhooked scope) c) :
    Moves (LeavesAlone scope) (Exec.code c) :=
  fun w hw => ⟨h w.store hw, rfl, rfl⟩

/-- An attribute of a hook is set without binding it anew. -/
theorem writeAttribute {impl : Implementation ω} (h : impl.BindsNone) (location : Loc)
    (name : String) (v : Value) :
    Moves (LeavesAlone scope) (Scope.writeAttribute impl location name v) := by
  intro w hw
  unfold Scope.writeAttribute
  rw [runFrom_bind, runFrom_world]
  dsimp only
  split
  · exact code (h.write _ _ _ _ scope) w hw
  · next other function attributes hcell =>
      have hother := hw location other function attributes hcell
      exact ⟨hw.put location fun _ _ heq => hother (by cases heq; rfl), rfl, rfl⟩
  · exact ⟨hw, rfl, rfl⟩

/-- **Every step but an assignment** leaves a scope without hooks alone, as long as the
code of the implementation binds none. -/
theorem keeps {impl : Implementation ω} (h : impl.BindsNone) (scope : ScopeId) :
    impl.Keeps fun step => Moves (LeavesAlone scope) step where
  toCombines := Combines.moves log
  own := h.mono fun _ hc => code (hc scope)
  list := fun _ => code fun _ hs => hs.alloc nofun
  map := fun _ => code fun _ hs => hs.alloc nofun
  putList := fun location _ => code fun _ hs => hs.put location nofun
  putMap := fun location _ => code fun _ hs => hs.put location nofun
  mark := fun marker name v => code fun _ hs => hs.mark marker name v
  writeAttribute := writeAttribute h

end LeavesAlone

/-! ## Assignments and calls -/

namespace Scope

variable {impl : Implementation ω} (h : impl.BindsNone) {scope : ScopeId}
include h

/-- An assignment in another scope. -/
theorem assign_other {other : ScopeId} (hother : other ≠ scope) (path : String) (v : Value) :
    Moves (LeavesAlone scope) (assign impl other path v) := by
  have hkeeps := LeavesAlone.keeps h scope
  intro w
  refine assign_moves impl LeavesAlone.log (locate_kept hkeeps.looks other path)
    (isBoundConstant_kept hkeeps.looks) ?_
  intro owner name w₁ w₂ hfound _
  rcases locate_cases impl hfound with ⟨-, -, rfl, -⟩ | ⟨-, u, rfl⟩
  · intro hw
    exact ⟨hw, Array.size_setIfInBounds, (World.bindings_set _ _ _ _).trans
      (if_neg fun hboth => hother hboth.1)⟩
  · exact write_value_kept hkeeps u name v w₂

/-- **An assignment in the scope itself** sets a name, and nothing of the scope if its
path has dots. -/
theorem assign_binds {path : String} {v : Value} {w w' : World ω} (hw : w.store.Unhooked scope)
    (hscope : scope < w.scopes.size) (hrun : runFrom (assign impl scope path v) w = (.ok (), w')) :
    w'.store.Unhooked scope ∧ w'.scopes.size = w.scopes.size ∧
      w'.bindings scope =
        if '.' ∈ path.toList then w.bindings scope else setNamed (w.bindings scope) path v := by
  have hkeeps := LeavesAlone.keeps h scope
  obtain ⟨owner, name, w₁, w₂, w₃, log, hfound, hfree, hset, rfl⟩ := assign_ok impl hrun
  have hlocate := locate_kept hkeeps.looks scope path w
  have hcheck := isBoundConstant_kept hkeeps.looks owner name w₁
  rw [hfound] at hlocate
  rw [hfree] at hcheck
  have hbefore : Undisturbed scope w w₂ := IsTrans.trans _ _ _ hlocate hcheck hw
  rcases locate_cases impl hfound with ⟨hdots, -, rfl, rfl⟩ | ⟨hdots, u, rfl⟩
  · rw [if_neg hdots]
    cases hset
    refine ⟨hbefore.unhooked, Array.size_setIfInBounds.trans hbefore.size, ?_⟩
    refine (World.bindings_set w₂ scope scope _).trans ?_
    rw [if_pos ⟨rfl, hbefore.size ▸ hscope⟩, hbefore.bindings]
  · rw [if_pos hdots]
    have hwrite := write_value_kept hkeeps u name v w₂
    rw [hset] at hwrite
    have hafter := IsTrans.trans _ _ _ (fun _ => hbefore) hwrite hw
    exact ⟨hafter.unhooked, hafter.size, hafter.bindings⟩

/-- **A call** leaves a scope without hooks alone: what it calls is bound to no scope or
to another one. -/
theorem call_leavesAlone (v : Value) (args : List Value) :
    Moves (LeavesAlone scope) (call impl v args) := by
  have hkeeps := LeavesAlone.keeps h scope
  intro w
  unfold call
  rw [runFrom_bind, runFrom_world]
  dsimp only
  split
  · split
    · exact hkeeps.own.call _ _ _ w
    · next location _ other function attributes hcell =>
        intro hw
        have hother := hw location other function attributes hcell
        exact runScript_kept hkeeps (assign_other h hother) _ (hkeeps.own.script _ _) w hw
    · exact hkeeps.throw _ w
  · split
    · exact hkeeps.own.invoke _ _ _ _ w
    · exact hkeeps.throw _ w
  · exact callBuiltIn_kept hkeeps _ _ _ w
  · exact hkeeps.throw _ w

end Scope

end Conformance
