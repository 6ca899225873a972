import Conformance.Proofs.Attributes
import Conformance.Proofs.Escape
import Conformance.Proofs.Lookups
import Conformance.Proofs.Oblivious

/-!
# Assignments that fail

An assignment walks to the owner of its target, checks for a bound constant and writes
once.  The walk and the check only look, and every kind of write ends in a fault before
it has changed anything, so that an assignment that fails leaves the scopes, the log and
all cells as they were.

What attributes of the implementation do when they are read, and when they refuse to be
set, is theirs.  `RefusesWithin R` bounds it by a preorder of stores, and with equality
for `R` a failed assignment changes nothing at all.
-/

namespace Conformance

variable {ω : Type} {impl : Implementation ω} {R : Store ω → Store ω → Prop}

/-! ## Assignments -/

namespace Scope

variable {w w' : World ω} {fault : Fault}

/-- An item is refused before the list is touched. -/
theorem writeItem_error {location : Loc} {name : String} {v : Value}
    (hfault : runFrom (writeItem location name v) w = (.error fault, w')) : w' = w := by
  unfold writeItem at hfault
  split at hfault
  · cases hfault
    rfl
  · rw [runFrom_bind_of_ok (runFrom_world w)] at hfault
    split at hfault
    · cases hfault
      rfl
    · dsimp only at hfault
      split at hfault
      · cases hfault
        rfl
      · cases hfault

section Refused

variable [Std.Refl R] (h : impl.RefusesWithin R)
include h

theorem writeAttribute_error {location : Loc} {name : String} {v : Value}
    (hfault : runFrom (writeAttribute impl location name v) w = (.error fault, w')) :
    StoreMoved R w w' := by
  unfold writeAttribute at hfault
  rw [runFrom_bind_of_ok (runFrom_world w)] at hfault
  split at hfault
  · next o _ =>
      rw [runFrom_code] at hfault
      obtain ⟨hresult, rfl⟩ := Prod.mk.inj hfault
      exact ⟨_, rfl, h.refused location o name v _ _ fault (eq_of_fst hresult)⟩
  · cases hfault
  · cases hfault
    exact Std.Refl.refl w

/-- **A write that is refused** changes nothing but what a setter does before it
refuses, whatever the owner is. -/
theorem write_error {owner : Owner} {name : String} {v : Value}
    (hfault : runFrom (write impl owner name v) w = (.error fault, w')) : StoreMoved R w w' := by
  unfold write at hfault
  split at hfault
  · cases hfault
  · cases hfault
  · split at hfault
    · rw [writeItem_error hfault]
      exact Std.Refl.refl w
    · cases hfault
      exact Std.Refl.refl w
  · exact writeAttribute_error h hfault
  · split at hfault
    · cases hfault
      exact Std.Refl.refl w
    · cases hfault
  · cases hfault
    exact Std.Refl.refl w

end Refused

end Scope

/-! ## Runs that are aborted -/

namespace Run

variable {listener : Listener ω} {scope : ScopeId} {w w' : World ω} {fault : Fault}

end Run

end Conformance
