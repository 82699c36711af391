import Componentry.Scenario.Extension
import Componentry.Scenario.Setup

/-!
# Scenarios on blueprints

A scenario with several blueprints and several orchestrators, which are meant by their
places.  Its steps revise blueprints, bootstrap them, and install their interceptors into one
chain.
-/

namespace Componentry.Scenario

/-- A step of a scenario on blueprints. -/
inductive DraftStep where
  /-- Bootstraps a blueprint. -/
  | invoke (supplied : List (Presupplied ExtensionScript))
  /-- Asks whether an orchestrator has bootstrapped a blueprint. -/
  | hasProcessed
  /-- Installs the interceptors of a blueprint into the chain. -/
  | install
  /-- Revises a blueprint. -/
  | revise (r : Revision ExtensionScript)

/-- The state of a scenario on blueprints. -/
structure DraftScene where
  /-- The blueprints. -/
  blueprints : Array ScriptedBlueprint
  /-- The orchestrators by their places, the latest in front; one that was not used is
  fresh. -/
  orchestrators : List (Nat × Orchestrator)
  /-- The chain. -/
  chain : Chain (Handler Callback)
  /-- What scripted callbacks keep. -/
  bench : Bench

namespace DraftScene

/-- The orchestrator at a place. -/
def orchestrator (d : DraftScene) (place : Nat) : Orchestrator :=
  (d.orchestrators.lookup place).getD Orchestrator.fresh

/-- Puts a blueprint in its place, with what scripted callbacks keep. -/
def withBlueprint (d : DraftScene) (place : Nat) (b : ScriptedBlueprint) (bench : Bench) :
    DraftScene :=
  { d with blueprints := d.blueprints.setIfInBounds place b, bench := bench }

/-- Carries out a step on the blueprint at `place` and the orchestrator at `conductor`. -/
def play (d : DraftScene) (place conductor : Nat) (step : DraftStep) :
    Option (Outcome × DraftScene) := do
  let b ← d.blueprints[place]?
  match step with
  | .invoke supplied =>
    let ((outcome, b, bench), orchestrator) :=
      (d.orchestrator conductor).invoke ExtensionScript.run stepLimit supplied (b, d.bench)
    let d := { d.withBlueprint place b bench with
      orchestrators := (conductor, orchestrator) :: d.orchestrators }
    match outcome with
    | .ok report =>
      return (.reply (.report report (Text.Outline.list (supplied.map Presupplied.outline))), d)
    | .error (.failed e) => return (.error e, d)
    | .error (.panicked p) => return (.panic p, d)
    | .error .exhausted => none
  | .hasProcessed => return (.reply (.flag ((d.orchestrator conductor).hasProcessed b.id)), d)
  | .install =>
    let chain := d.chain.install b
    return (.reply (.names chain.names), { d with chain := chain })
  | .revise r =>
    let ((reply, b), bench) := (Scenario.revise b r).run d.bench
    return (.reply reply, d.withBlueprint place b bench)

/-- Carries out steps one after the other, each at its places. -/
def playSteps (d : DraftScene) : List (Nat × Nat × DraftStep) →
    Option (List (Outcome × List Entry))
  | [] => some []
  | (place, conductor, step) :: rest => do
    let (outcome, d) ← d.play place conductor step
    let (events, bench) := d.bench.cut
    let reports ← { d with bench := bench }.playSteps rest
    return (outcome, events) :: reports

end DraftScene

/-- Makes blueprints with their contents, numbered from `id` on. -/
def prepareAll : Nat → List (List (Revision ExtensionScript)) →
    StateM Bench (List ScriptedBlueprint)
  | _, [] => return []
  | id, content :: rest => do
    let b ← prepare content (Blueprint.fresh id)
    return b :: (← prepareAll (id + 1) rest)

/-- Plays a scenario on blueprints with the given contents. -/
def playBlueprints (contents : List (List (Revision ExtensionScript)))
    (steps : List (Nat × Nat × DraftStep)) : Option (List (Outcome × List Entry)) :=
  let (blueprints, bench) := (prepareAll 1 contents).run Bench.fresh
  DraftScene.playSteps ⟨blueprints.toArray, [], ∅, bench⟩ steps

end Componentry.Scenario
