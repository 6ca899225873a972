import Conformance.Feature.Parse
import Conformance.Live.Implementation

/-!
# The world of a run

Everything a run may change: the store, the bindings of the scopes made so far, the log, and what
has been printed.  Code of an implementation sees the store alone.
-/

namespace Conformance

/-- Names of a scope with their values, in the order of binding. -/
abbrev Bindings := List (String × Value)

/-- Importance of a log record. -/
inductive Level
  | debug
  | warning
deriving DecidableEq, Repr, Inhabited

/-- Part of the engine that writes a log record. -/
inductive Channel
  | scope
  | runner
  | discovery
deriving DecidableEq, Repr, Inhabited

/-- A log record. -/
structure Record where
  level : Level
  channel : Channel
  message : String
deriving DecidableEq, Repr, Inhabited

/-- Name of a level in log lines. -/
def Level.name : Level → String
  | .debug => "DEBUG"
  | .warning => "WARNING"

/-- Name of a channel in log lines. -/
def Channel.name : Channel → String
  | .scope => "packspec.scope"
  | .runner => "packspec.runner"
  | .discovery => "packspec.discovery"

/-- A log record as a line. -/
def Record.line (r : Record) : String :=
  r.level.name ++ " " ++ r.channel.name ++ ": " ++ r.message

/-- What a run may change. -/
structure World (ω : Type) where
  store : Store ω
  scopes : Array Bindings
  log : Array Record
  output : Array String

namespace World

/-- A world without scopes. -/
def ofStore {ω : Type} (store : Store ω) : World ω := ⟨store, #[], #[], #[]⟩

/-- Bindings of a scope. -/
def bindings {ω : Type} (w : World ω) (scope : ScopeId) : Bindings := w.scopes.getD scope []

/-- Names of a scope. -/
def names {ω : Type} (w : World ω) (scope : ScopeId) : List String := (w.bindings scope).map (·.1)

end World

/-- A step of a run.  What it did before a fault stays done. -/
abbrev Exec (ω : Type) := ExceptT Fault (StateM (World ω))

namespace Exec

variable {ω : Type}

/-- Runs code of an implementation. -/
def code {α : Type} (c : Code ω α) : Exec ω α := fun w =>
  let (result, store) := c.run.run w.store
  (result, { w with store })

/-- The world as it is. -/
def world : Exec ω (World ω) := fun w => (.ok w, w)

/-- Bindings of a scope. -/
def bindings (scope : ScopeId) : Exec ω Bindings := fun w => (.ok (w.bindings scope), w)

/-- Changes the bindings of a scope. -/
def setBindings (scope : ScopeId) (b : Bindings) : Exec ω Unit := fun w =>
  (.ok (), { w with scopes := w.scopes.setIfInBounds scope b })

/-- A new scope with given bindings. -/
def newScope (b : Bindings) : Exec ω ScopeId := fun w =>
  (.ok w.scopes.size, { w with scopes := w.scopes.push b })

/-- Writes a log record. -/
def log (level : Level) (channel : Channel) (message : String) : Exec ω Unit := fun w =>
  (.ok (), { w with log := w.log.push ⟨level, channel, message⟩ })

/-- Prints a text. -/
def print (text : String) : Exec ω Unit := fun w =>
  (.ok (), { w with output := w.output.push text })

/-- The result of a step, or the fault it ended with. -/
def attempt {α : Type} (step : Exec ω α) : Exec ω (Except Fault α) := fun w =>
  let (result, w) := step.run.run w
  (.ok result, w)

end Exec

/-- The datum of a value as it is now. -/
def Implementation.datumNow {ω : Type} (impl : Implementation ω) (v : Value) : Exec ω Datum :=
  fun w => (.ok (impl.datum w.names w.store v), w)

end Conformance
