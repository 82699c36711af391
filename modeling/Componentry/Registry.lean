import Componentry.Graph
import Componentry.Guard
import Componentry.Settings

/-!
# The registry

The registry holds the instances of components in three tiers: the finished instances, the
early references to components in creation, and the producers from which an early reference
can still be made.  With them it keeps the creation guard, the failures that the outermost
creation has set aside, the dependency graph, and the disposals that are due when a component
is destroyed.

This module has the state and every change of it that happens at once.  Producers and
disposals are stored as names for behaviour, of types `φ` and `δ`; what they do is said
elsewhere.
-/

namespace Componentry

/-- The identity of an instance: two references are equal when they are to one object. -/
structure Ref where
  /-- The number of the object. -/
  index : Nat
deriving DecidableEq, Inhabited

/-- The state of a registry. -/
structure Registry (φ δ : Type) where
  /-- The finished instances. -/
  finished : Catalog Ref
  /-- The producers of early references. -/
  producers : Catalog φ
  /-- The early references that were made. -/
  early : Catalog Ref
  /-- The creations that have begun and not ended. -/
  guard : Guard
  /-- The failures set aside, while a creation is under way that collects them. -/
  suppressed : Option (List Error)
  /-- Whether everything is being destroyed. -/
  inDestruction : Bool
  /-- What depends on what, and what contains what. -/
  graph : Graph
  /-- The disposals that are due. -/
  disposals : Catalog δ

/-- What a request to create a component came to. -/
inductive Materialized where
  /-- The instance was made by this request. -/
  | created (i : Ref)
  /-- The instance was there, or appeared while another was being made. -/
  | alreadyPresent (i : Ref)
deriving DecidableEq

namespace Materialized

/-- The instance, however it came about. -/
def ref : Materialized → Ref
  | created i => i
  | alreadyPresent i => i

/-- Tells whether the instance was made by this request. -/
def isCreated : Materialized → Bool
  | created _ => true
  | alreadyPresent _ => false

/-- The outline of an outcome, which does not show the instance. -/
def outline : Materialized → String
  | created _ => Text.Outline.apply "Created" [".."]
  | alreadyPresent _ => Text.Outline.apply "AlreadyPresent" [".."]

end Materialized

namespace Registry

variable {φ δ : Type}

/-- The registry of a container in which nothing has happened. -/
def fresh (s : Settings) : Registry φ δ where
  finished := ∅
  producers := ∅
  early := ∅
  guard := Guard.fresh s.maxCreationDepth (Roster.ofList s.exemptNames)
  suppressed := none
  inDestruction := false
  graph := ∅
  disposals := ∅

instance : Inhabited (Registry φ δ) := ⟨fresh default⟩

/-! ### The three tiers -/

/-- Strikes a name from the two early tiers. -/
def dropEarly (r : Registry φ δ) (n : Name) : Registry φ δ :=
  { r with producers := r.producers.erase n, early := r.early.erase n }

/-- Makes an instance the finished one of a name. -/
def install (r : Registry φ δ) (n : Name) (i : Ref) : Registry φ δ :=
  { r.dropEarly n with finished := r.finished.insert n i }

/-- Strikes a name from all three tiers. -/
def purge (r : Registry φ δ) (n : Name) : Registry φ δ :=
  { r.dropEarly n with finished := r.finished.erase n }

/-- Binds an instance that was made elsewhere to a name.  A name is bound to one instance;
binding the same one again changes nothing. -/
def bind (r : Registry φ δ) (n : Name) (i : Ref) : Except Error (Registry φ δ) :=
  match r.finished.get? n with
  | some j => if j = i then .ok r else .error (.alreadyBound n)
  | none => .ok (r.install n i)

/-- Offers a producer of early references for a name that is not finished.  It takes the
place of an earlier producer, and of what that has made. -/
def publish (r : Registry φ δ) (n : Name) (producer : φ) : Registry φ δ × Bool :=
  if r.finished.contains n then (r, false)
  else ({ r with producers := r.producers.insert n producer, early := r.early.erase n }, true)

/-- What is known of a name that is not to be created. -/
inductive Sight (φ δ : Type) where
  /-- An instance, or that there is none. -/
  | settled (i : Option Ref)
  /-- A producer, taken out of the registry, that makes an early reference. -/
  | pending (producer : φ) (r : Registry φ δ)

/-- Looks a name up: its finished instance, or, while it is in creation, its early
reference, which may still have to be made if `early` allows it. -/
def sight (r : Registry φ δ) (n : Name) (early : Bool) : Sight φ δ :=
  match r.finished.get? n with
  | some i => .settled (some i)
  | none =>
    if !r.guard.isEntered n then .settled none
    else
      match r.early.get? n with
      | some i => .settled (some i)
      | none =>
        match early, r.producers.get? n with
        | true, some producer => .pending producer { r with producers := r.producers.erase n }
        | _, _ => .settled none

/-- Keeps an early reference that was made for a name. -/
def memoize (r : Registry φ δ) (n : Name) (i : Ref) : Registry φ δ :=
  { r with early := r.early.insert n i }

/-- Puts back a producer that failed, if its name is still in creation and has no other. -/
def restore (r : Registry φ δ) (n : Name) (producer : φ) : Registry φ δ :=
  if r.guard.isEntered n && !r.finished.contains n && !r.producers.contains n then
    { r with producers := r.producers.insert n producer }
  else r

/-! ### Creations -/

/-- How a request to create a component is met. -/
inductive Admission (φ δ : Type) where
  /-- The component is finished. -/
  | present (i : Ref)
  /-- The request is refused. -/
  | refused (e : Error)
  /-- The creation has begun; `collects` says that it collects the failures set aside. -/
  | admitted (collects : Bool) (r : Registry φ δ)

/-- Meets a request to create a component. -/
def beginCreation (r : Registry φ δ) (n : Name) : Admission φ δ :=
  match r.finished.get? n with
  | some i => .present i
  | none =>
    if r.inDestruction then .refused (.creationNotAllowed n)
    else
      match r.guard.enter n with
      | .error e => .refused e
      | .ok guard =>
        match r.suppressed with
        | none => .admitted true { r with guard := guard, suppressed := some [] }
        | some _ => .admitted false { r with guard := guard }

/-- Sets a failure aside, if a creation is under way that collects them. -/
def suppress (r : Registry φ δ) (e : Error) : Registry φ δ :=
  { r with suppressed := r.suppressed.map (· ++ [e]) }

/-- Ends a creation, after which nothing is collected any more if this creation did so. -/
def leave (r : Registry φ δ) (n : Name) (collects : Bool) : Registry φ δ × Option Error :=
  let (guard, e) := r.guard.leave n
  ({ r with guard := guard, suppressed := if collects then none else r.suppressed }, e)

/-- The failures set aside, for a creation that collects them. -/
def collected (r : Registry φ δ) (collects : Bool) : List Error :=
  if collects then r.suppressed.getD [] else []

/-- Ends a creation that was broken off. -/
def abandon (r : Registry φ δ) (n : Name) (collects : Bool) : Registry φ δ :=
  (r.leave n collects).1.dropEarly n

/-! ### Destruction -/

/-- Raises the mark that everything is being destroyed. -/
def beginDestruction (r : Registry φ δ) : Registry φ δ := { r with inDestruction := true }

/-- Strikes a name from all tiers, with the disposal that is due for it and the links to its
dependents. -/
def withdraw (r : Registry φ δ) (n : Name) : Registry φ δ :=
  { r.purge n with
    disposals := r.disposals.erase n
    graph := r.graph.detachDependents n }

/-- Strikes the links from a name to what it contains. -/
def release (r : Registry φ δ) (n : Name) : Registry φ δ :=
  { r with graph := r.graph.detachContained n }

/-- Strikes every link with an end at a name. -/
def forget (r : Registry φ δ) (n : Name) : Registry φ δ := { r with graph := r.graph.forget n }

/-- Empties the tiers and the graph, and lowers the mark that everything is being
destroyed. -/
def clear (r : Registry φ δ) : Registry φ δ :=
  { r with finished := ∅, producers := ∅, early := ∅, graph := ∅, inDestruction := false }

end Registry

end Componentry
