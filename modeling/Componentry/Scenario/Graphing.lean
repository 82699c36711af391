import Componentry.Scenario.Journal

/-!
# Scenarios on a graph

A scenario on a graph alone.  Each step is reported with its answer and the outline of the
graph after it.
-/

namespace Componentry.Scenario

/-- A step of a scenario on a graph. -/
inductive GraphStep where
  /-- Records a dependency. -/
  | depend (dependee dependent : Name)
  /-- Records a containment. -/
  | contain (inner outer : Name)
  /-- Asks whether a component depends on another one. -/
  | isDependent (subject candidate : Name)
  /-- Asks whether anything depends on a component. -/
  | hasDependents (name : Name)
  /-- Asks for the dependents of a component. -/
  | dependents (name : Name)
  /-- Asks for the dependencies of a component. -/
  | dependencies (name : Name)
  /-- Asks for what a component contains. -/
  | contained (name : Name)
  /-- Strikes the links of a component. -/
  | forget (name : Name)
  /-- Strikes all links. -/
  | clear
  /-- Asks whether nothing is recorded. -/
  | isEmpty

/-- Carries out a step on a graph. -/
def playGraphStep (g : Graph) : GraphStep → Reply × Graph
  | .depend dependee dependent => (.nothing, g.depend dependee dependent)
  | .contain inner outer => (.nothing, g.contain inner outer)
  | .isDependent subject candidate => (.flag (g.isDependent subject candidate), g)
  | .hasDependents n => (.flag (g.hasDependents n), g)
  | .dependents n => (.names (g.dependentsOf n), g)
  | .dependencies n => (.names (g.dependenciesOf n), g)
  | .contained n => (.names (g.containedOf n), g)
  | .forget n => (.nothing, g.forget n)
  | .clear => (.nothing, ∅)
  | .isEmpty => (.flag g.isEmpty, g)

/-- Carries out steps on a graph one after the other. -/
def playGraph (g : Graph) : List GraphStep → List (Reply × String) × Graph
  | [] => ([], g)
  | step :: rest =>
    let (reply, g) := playGraphStep g step
    let (reports, last) := playGraph g rest
    ((reply, g.outline) :: reports, last)

end Componentry.Scenario
