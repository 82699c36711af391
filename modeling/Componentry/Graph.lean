import Componentry.Links

/-!
# The dependency graph

The graph records which components depend on which, and which components contain which.  A
dependency is linked in both directions, so that the dependents and the dependencies of a
component can both be read off; what contains a component also depends on it.  The links are
data: they may lead round in circles.
-/

namespace Componentry

/-- The recorded dependencies and containments of components. -/
structure Graph where
  /-- From a component to those that depend on it. -/
  dependents : Links
  /-- From a component to those that it depends on. -/
  dependencies : Links
  /-- From a component to those that it contains. -/
  contained : Links
deriving Inhabited

namespace Graph

/-- The graph without links. -/
def empty : Graph := ⟨∅, ∅, ∅⟩

instance : EmptyCollection Graph := ⟨empty⟩

/-- Records that `dependent` depends on `dependee`. -/
def depend (g : Graph) (dependee dependent : Name) : Graph :=
  if g.dependents.has dependee dependent then g
  else
    { g with
      dependents := g.dependents.add dependee dependent
      dependencies := g.dependencies.add dependent dependee }

/-- Records that `outer` contains `inner`, on which it depends thereby. -/
def contain (g : Graph) (inner outer : Name) : Graph :=
  if g.contained.has outer inner then g
  else { g with contained := g.contained.add outer inner }.depend inner outer

/-- Tells whether `candidate` depends on `subject`, directly or through others. -/
def isDependent (g : Graph) (subject candidate : Name) : Bool :=
  g.dependents.reaches subject candidate

/-- Tells whether anything depends on a component. -/
def hasDependents (g : Graph) (n : Name) : Bool := !(g.dependents.row n).isEmpty

/-- The components that depend on a component. -/
def dependentsOf (g : Graph) (n : Name) : List Name := (g.dependents.row n).toList

/-- The components that a component depends on. -/
def dependenciesOf (g : Graph) (n : Name) : List Name := (g.dependencies.row n).toList

/-- The components that a component contains. -/
def containedOf (g : Graph) (n : Name) : List Name := (g.contained.row n).toList

/-- Strikes the links from a component to its dependents. -/
def detachDependents (g : Graph) (n : Name) : Graph :=
  { g with dependents := g.dependents.detach n }

/-- Strikes the links from a component to what it contains. -/
def detachContained (g : Graph) (n : Name) : Graph :=
  { g with contained := g.contained.detach n }

/-- Strikes every link with an end at a component. -/
def forget (g : Graph) (n : Name) : Graph :=
  ⟨g.dependents.forget n, g.dependencies.forget n, g.contained.forget n⟩

/-- Tells whether nothing is recorded. -/
def isEmpty (g : Graph) : Bool :=
  g.dependents.isEmpty && g.dependencies.isEmpty && g.contained.isEmpty

/-- The outline of a graph. -/
def outline (g : Graph) : String :=
  Text.Outline.record "DependencyGraph"
    [("dependents", g.dependents.outline), ("dependencies", g.dependencies.outline),
      ("contained", g.contained.outline)]

end Graph

end Componentry
