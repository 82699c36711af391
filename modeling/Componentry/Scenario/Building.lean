import Componentry.Scenario.Extension
import Componentry.Scenario.Setup

/-!
# Scenarios on a container

A container is built from a blueprint: the extensions of the blueprint run, its interceptors
are installed, and the components that are not lazy are created, if the settings ask for it.
If this is a success, the steps of the scenario are played on the container.  At the end the
container is given up, and the log tells of the disposals that are still due.
-/

namespace Componentry.Scenario

/-- What is reported of a scenario on a container. -/
structure ContainerReport where
  /-- What came of the building. -/
  build : Outcome
  /-- What happened meanwhile. -/
  events : List Entry
  /-- The state of the registry after the building, if the container was handed out by then,
  be it to a callback. -/
  state : Option Snapshot
  /-- The steps, if the building was a success. -/
  steps : Option (List StepReport)
  /-- What happened when the container was given up. -/
  ending : List Entry

/-- What goes to the journal when a container is given up. -/
def endingEntries (log : Bool) (w : Scene) : List Entry :=
  let pending := w.registry.disposals.size
  if log && pending > 0 then [.logged (pendingLogLine pending)] else []

/-- Creates the components of a new container and plays steps on it. -/
def Setup.playBuilt (s : Setup) (definitions : Catalog (Definition (Handler Callback)))
    (bench : Bench) (steps : List Step) : Option ContainerReport := do
  let settings := s.container.settings
  let preinstantiation : Scripted Reply :=
    if settings.preinstantiate then doing s.container.preinstantiate else return .nothing
  let (outcome, w) ← s.run preinstantiation ⟨Registry.fresh settings, ⟨definitions, bench⟩⟩
  let (events, w) := w.cut
  let state := Snapshot.of w.registry
  match outcome with
  | .reply _ =>
    let (reports, w) ← s.playSteps steps w
    return ⟨outcome, events, some state, some reports, endingEntries s.log w⟩
  | _ =>
    if w.memory.scratch.reached then
      return ⟨outcome, events, some state, none, endingEntries s.log w⟩
    else
      return ⟨outcome, events, none, none, []⟩

/-- Plays a scenario on a container that is built from a blueprint with the given content. -/
def playContainer (settings : Settings) (observers : List Observer) (log : Bool)
    (content : List (Revision ExtensionScript)) (supplied : List (Presupplied ExtensionScript))
    (steps : List Step) : Option ContainerReport :=
  let (blueprint, bench) := (prepare content (Blueprint.fresh 1)).run Bench.fresh
  let ((outcome, blueprint, bench), _) :=
    Orchestrator.fresh.invoke ExtensionScript.run stepLimit supplied (blueprint, bench)
  match outcome with
  | .error (.failed e) => some ⟨.error e, bench.cut.1, none, none, []⟩
  | .error (.panicked p) => some ⟨.panic p, bench.cut.1, none, none, []⟩
  | .error .exhausted => none
  | .ok _ =>
    let s : Setup := ⟨⟨settings, (∅ : Chain (Handler Callback)).install blueprint⟩, observers, log⟩
    s.playBuilt blueprint.definitions bench steps

end Componentry.Scenario
