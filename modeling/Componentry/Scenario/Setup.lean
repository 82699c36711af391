import Componentry.Scenario.Performance

/-!
# Scenarios on a registry

A scenario plays steps on a registry from its beginning to its end.  Each step is reported
with what came of it, what the journal has of it, and the state of the registry after it; a
step that fails or panics does not keep the next one from being played.
-/

namespace Componentry.Scenario

/-- How many steps of the machine a step of a scenario may take, and how many passes the
bootstrapping of a blueprint. -/
def stepLimit : Nat := Nat.pow 2 50

/-- What is reported of a step. -/
structure StepReport where
  /-- What came of it. -/
  outcome : Outcome
  /-- What happened meanwhile. -/
  events : List Entry
  /-- The state of the registry after it. -/
  state : Snapshot

/-- The registry and the memory of a scenario. -/
abbrev Scene :=
  World (Recipe (Handler Callback)) (Teardown (Handler Callback))
    (Site (Handler Callback) Bench)

/-- Works on the bench. -/
def Scene.onBench {α : Type} (w : Scene) (f : StateM Bench α) : α × Scene :=
  let (a, bench) := f.run w.memory.scratch
  (a, { w with memory := { w.memory with scratch := bench } })

/-- Empties the journal, and gives what was in it. -/
def Scene.cut (w : Scene) : List Entry × Scene := w.onBench (modifyGet Bench.cut)

/-- What stays the same while a scenario is played on a registry. -/
structure Setup where
  /-- The container to which the registry belongs. -/
  container : ScriptedContainer
  /-- Who hears notices. -/
  observers : List Observer
  /-- Whether the log is kept in the journal. -/
  log : Bool

namespace Setup

variable (s : Setup)

/-- The behaviour of the callbacks. -/
def behaviour : Behaviour (Handler Callback) Bench :=
  Scenario.behaviour s.container s.observers s.log

/-- The behaviour behind the registry. -/
def host : Host (Recipe (Handler Callback)) (Teardown (Handler Callback))
    (Site (Handler Callback) Bench) :=
  s.container.host s.behaviour

/-- What a program comes to, and the scene after it. -/
def run (a : Scripted Reply) (w : Scene) : Option (Outcome × Scene) :=
  (Machine.run? s.host stepLimit a.run w).map fun (outcome, w) =>
    let outcome := match outcome with
      | .ok (.ok r) => .reply r
      | .ok (.error e) => .error e
      | .error p => .panic p
    (outcome, w)

/-- Plays a step. -/
def playStep (step : Step) (w : Scene) : Option (StepReport × Scene) :=
  (s.run (playTop s.container step) w).map fun (outcome, w) =>
    let (events, w) := w.cut
    (⟨outcome, events, Snapshot.of w.registry⟩, w)

/-- Plays steps one after the other. -/
def playSteps : List Step → Scene → Option (List StepReport × Scene)
  | [], w => some ([], w)
  | step :: rest, w => do
    let (report, w) ← s.playStep step w
    let (reports, w) ← playSteps rest w
    return (report :: reports, w)

end Setup

/-- Plays a scenario on a registry that belongs to no container of note. -/
def playRegistry (settings : Settings) (observers : List Observer) (log : Bool)
    (steps : List Step) : Option (List StepReport) :=
  let s : Setup := ⟨⟨settings, ∅⟩, observers, log⟩
  (s.playSteps steps ⟨Registry.fresh settings, ⟨∅, Bench.fresh⟩⟩).map Prod.fst

end Componentry.Scenario
