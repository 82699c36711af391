import Componentry.Notice
import Componentry.Scenario.Script

/-!
# Journals

A journal tells what happened while a scenario was played: the calls of callbacks, the steps
of their scripts with what came of them, the notices that observers heard, and the lines that
went to the log.
-/

namespace Componentry.Scenario

/-- The state of a registry as far as it is shown. -/
structure Snapshot where
  /-- The finished names. -/
  names : List Name
  /-- The names in creation. -/
  creating : List Name
  /-- Whether everything is being destroyed. -/
  destroying : Bool
  /-- The number of disposals that are due. -/
  pending : Nat
  /-- The outline of the graph. -/
  graph : String

/-- The state of a registry as far as it is shown. -/
def Snapshot.of {φ δ : Type} (r : Registry φ δ) : Snapshot where
  names := r.finished.names
  creating := r.guard.inCreation.toList
  destroying := r.inDestruction
  pending := r.disposals.size
  graph := r.graph.outline

/-- A definition as far as it is shown. -/
structure DefinitionView where
  /-- The name of the component. -/
  name : Name
  /-- The declared dependencies. -/
  dependsOn : List Name
  /-- Whether the component waits until it is asked for. -/
  isLazy : Bool
  /-- The outline. -/
  outline : String

/-- A definition as far as it is shown. -/
def DefinitionView.of {κ : Type} (d : Definition κ) : DefinitionView :=
  ⟨d.name, d.dependsOn, d.isLazy, d.outline⟩

/-- What repeated requests for one component came to. -/
structure Tally where
  /-- How often the factory was called. -/
  calls : Nat
  /-- How many requests made the instance. -/
  created : Nat
  /-- How many requests failed. -/
  failed : Nat
  /-- The instances that the others got. -/
  refs : List Ref

/-- Tells whether all requests that did not fail got the same instance. -/
def Tally.same (t : Tally) : Bool :=
  match t.refs with
  | [] => true
  | i :: rest => rest.all (· == i)

/-- What a step answers. -/
inductive Reply where
  /-- Nothing. -/
  | nothing
  /-- A truth value. -/
  | flag (b : Bool)
  /-- A number. -/
  | count (n : Nat)
  /-- A text. -/
  | text (s : String)
  /-- A list of names. -/
  | names (ns : List Name)
  /-- Lists of names. -/
  | groups (groups : List (List Name))
  /-- An instance. -/
  | shown (p : Portrait)
  /-- What a node holds. -/
  | wired (refs : List (Name × Portrait))
  /-- What a request to create a component came to. -/
  | materialized (isCreated : Bool) (outline : String) (p : Portrait)
  /-- The state of the registry. -/
  | state (s : Snapshot)
  /-- Settings. -/
  | settings (s : Settings)
  /-- A definition. -/
  | definition (d : DefinitionView)
  /-- What repeated requests came to. -/
  | tally (t : Tally)
  /-- What ran when a blueprint was bootstrapped, and the outline of what was supplied. -/
  | report (r : Report) (supplied : String)

/-- What came of a step. -/
inductive Outcome where
  /-- An answer. -/
  | reply (r : Reply)
  /-- An error. -/
  | error (e : Error)
  /-- A panic. -/
  | panic (p : Panic)

/-- The weight of a line of the log. -/
inductive Level where
  /-- For those who look for a fault. -/
  | debug
  /-- For those who want to know. -/
  | info
  /-- Something may be wrong. -/
  | warn
  /-- Something is wrong. -/
  | error
deriving DecidableEq

/-- The name of a weight. -/
def Level.title : Level → String
  | debug => "DEBUG"
  | info => "INFO"
  | warn => "WARN"
  | error => "ERROR"

/-- The value of a field of a line of the log. -/
inductive Field where
  /-- A text. -/
  | text (s : String)
  /-- A number. -/
  | num (n : Nat)

/-- A line of the log. -/
structure LogLine where
  /-- The weight. -/
  level : Level
  /-- The fields by name. -/
  fields : List (String × Field)

/-- An entry of a journal. -/
inductive Entry where
  /-- A callback of a component was called, with the instance it was given. -/
  | call (label : String) (name : Name) (self : Option Portrait)
  /-- A callback of an extension was called. -/
  | extensionCall (label : String)
  /-- A step of a script came to an end. -/
  | step (label verb : String) (outcome : Outcome)
  /-- An observer heard a notice. -/
  | heard (observer : String) (notice : Notice)
  /-- An instance was found to have a type before it was populated. -/
  | typed (name : Name) (outline : String)
  /-- An instance was found to have a type when it was disposed of. -/
  | disposedAs (name : Name) (outline : String)
  /-- A line went to the log. -/
  | logged (line : LogLine)

end Componentry.Scenario
