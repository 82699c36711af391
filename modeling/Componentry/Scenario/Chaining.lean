import Componentry.Scenario.Setup

/-!
# Scenarios on chains

A scenario with two chains, of which the second can be made a copy of the first.  Its steps
add interceptors and pass instances by.
-/

namespace Componentry.Scenario

/-- A step of a scenario on chains. -/
inductive ChainStep where
  /-- Puts an interceptor at the tail. -/
  | add (name : Name) (ic : Interceptor Attempts)
  /-- Asks for the names. -/
  | names
  /-- Asks for the number of interceptors. -/
  | length
  /-- Asks whether there are no interceptors. -/
  | isEmpty
  /-- Asks for the outline. -/
  | outline
  /-- Makes the second chain a copy of the first. -/
  | save
  /-- Passes an instance by the chain, and binds it to a variable before, if there is one. -/
  | pass (stage : Stage) (name : Name) (v : Value) (target? : Option Name)

/-- The state of a scenario on chains. -/
structure ChainScene where
  /-- The first chain. -/
  first : Chain (Handler Callback)
  /-- The second chain. -/
  second : Chain (Handler Callback)
  /-- The registry and the memory. -/
  scene : Scene

namespace ChainScene

/-- The second chain or the first. -/
def chain (d : ChainScene) (second : Bool) : Chain (Handler Callback) :=
  if second then d.second else d.first

/-- Replaces the second chain or the first. -/
def withChain (d : ChainScene) (second : Bool) (c : Chain (Handler Callback)) : ChainScene :=
  if second then { d with second := c } else { d with first := c }

/-- Passes an instance by the chain of a container without observers. -/
def passing (s : Setup) (stage : Stage) (n : Name) (v : Value) (x? : Option Name) :
    Scripted Reply := do
  let i ← onBench do
    let i ← Bench.eval none v
    Bench.bindVariable x? i
    return i
  present none (← s.container.intercept s.behaviour stage n i)

/-- Carries out a step on one of the chains. -/
def play (d : ChainScene) (second : Bool) (step : ChainStep) : Option (Outcome × ChainScene) :=
  let c := d.chain second
  match step with
  | .add n ic =>
    let (ic, scene) := d.scene.onBench (equipInterceptor n ic)
    some (.reply .nothing, { d with scene := scene }.withChain second (c.add (n, ic)))
  | .names => some (.reply (.names c.names), d)
  | .length => some (.reply (.count c.length), d)
  | .isEmpty => some (.reply (.flag c.isEmpty), d)
  | .outline => some (.reply (.text c.outline), d)
  | .save => some (.reply .nothing, { d with second := d.first })
  | .pass stage n v x? =>
    let s : Setup := ⟨⟨Settings.default, c⟩, [], false⟩
    (s.run (passing s stage n v x?) d.scene).map fun (outcome, scene) =>
      (outcome, { d with scene := scene })

/-- Carries out steps one after the other, each on its chain. -/
def playSteps (d : ChainScene) : List (Bool × ChainStep) →
    Option (List (Outcome × List Entry))
  | [] => some []
  | (second, step) :: rest => do
    let (outcome, d) ← d.play second step
    let (events, scene) := d.scene.cut
    let reports ← { d with scene := scene }.playSteps rest
    return (outcome, events) :: reports

end ChainScene

/-- Plays a scenario on chains, which are empty at first. -/
def playChains (steps : List (Bool × ChainStep)) : Option (List (Outcome × List Entry)) :=
  ChainScene.playSteps ⟨∅, ∅, ⟨Registry.fresh Settings.default, ⟨∅, Bench.fresh⟩⟩⟩ steps

end Componentry.Scenario
