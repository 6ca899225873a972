/-!
# Named values

Values under names, in the order in which the names were first set.
-/

namespace Conformance

/-- Sets the value of a name: in place if the name is there, otherwise at the end. -/
def setNamed {α : Type} : List (String × α) → String → α → List (String × α)
  | [], name, value => [(name, value)]
  | (n, v) :: rest, name, value =>
    if n = name then (n, value) :: rest else (n, v) :: setNamed rest name value

/-- Value of a name. -/
def named? {α : Type} (entries : List (String × α)) (name : String) : Option α :=
  (entries.find? (fun e => e.1 == name)).map (·.2)

end Conformance
