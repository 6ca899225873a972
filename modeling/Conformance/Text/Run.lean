/-!
# Runs of code points

Character classes and case mappings are stored as runs: a first code point, a last one and the
step between members.  Scripts that alternate upper and lower case give runs of step two.
-/

namespace Conformance.Text

/-- First code point, last code point and step. -/
abbrev Run := Nat × Nat × Nat

/-- First code point, last code point, step and the signed distance each member moves. -/
abbrev Shift := Nat × Nat × Nat × Int

/-- Membership of a code point in a run. -/
def Run.has (run : Run) (code : Nat) : Bool :=
  run.1 ≤ code && code ≤ run.2.1 && (code - run.1) % run.2.2 == 0

/-- Membership of a code point in a class. -/
def inRuns (runs : Array Run) (code : Nat) : Bool :=
  runs.any (fun run => run.has code)

/-- Image of a code point under the first shift that moves it. -/
def shifted? (shifts : Array Shift) (code : Nat) : Option Nat :=
  (shifts.find? (fun s => Run.has (s.1, s.2.1, s.2.2.1) code)).map
    (fun s => (Int.ofNat code + s.2.2.2).toNat)

end Conformance.Text
