import Componentry.Chain
import Componentry.Machine

/-!
# Containers

A container creates components from their definitions.  It resolves a name in three ways: for
itself, for a component that is being created and needs it, and for one that can do without
it.  A creation first sees to the declared dependencies, then makes the instance, offers it
for early references, populates it, passes it by the interceptors before and after it is made
ready, and at last settles which instance others get to see.

All of this is written as programs of clients, over a memory that holds the definitions.  The
behaviour of the callbacks is given by a record of programs, `Behaviour`; resolving a name
does not depend on it, since the registry calls the callbacks.
-/

namespace Componentry

/-- What makes an instance for a container. -/
inductive Recipe (κ : Type) where
  /-- The creation of a component from its definition. -/
  | component (name : Name) (d : Definition κ)
  /-- An early reference to an instance that was just made. -/
  | earlyReference (name : Name) (raw : Ref)
  /-- A callback that was handed to the registry directly. -/
  | callback (name : Name) (k : κ)

/-- What disposes of a component of a container. -/
inductive Teardown (κ : Type) where
  /-- The callback of the definition, for the instance that was exposed. -/
  | hook (name : Name) (k : κ) (target : Ref)
  /-- A callback that was handed to the registry directly. -/
  | callback (name : Name) (k : κ)

/-- The memory of a container: its definitions, and what the callbacks keep for themselves. -/
structure Site (κ σ : Type) where
  /-- The definitions. -/
  definitions : Catalog (Definition κ)
  /-- What the callbacks keep. -/
  scratch : σ

/-- A program on the registry and the memory of a container. -/
abbrev Job (κ σ : Type) : Type → Type := Client (Recipe κ) (Teardown κ) (Site κ σ)

/-- A program on the registry and the memory of a container that may fail. -/
abbrev Trial (κ σ : Type) : Type → Type := Attempt (Recipe κ) (Teardown κ) (Site κ σ)

/-- What callbacks do.  A callback that serves the creation of a component is told its name,
for which it may request others. -/
structure Behaviour (κ σ : Type) where
  /-- Makes the instance of a component. -/
  instantiate : κ → Name → Trial κ σ Ref
  /-- Populates an instance, or makes it ready. -/
  wire : κ → Name → Ref → Trial κ σ Unit
  /-- Replaces an instance, or passes it through. -/
  transform : κ → Name → Ref → Trial κ σ Ref
  /-- Makes an instance on direct request. -/
  make : κ → Name → Trial κ σ Ref
  /-- Disposes of a component, with its instance if that is known. -/
  dispose : κ → Name → Option Ref → Job κ σ (Except String Unit)
  /-- Hears a notice. -/
  hear : Notice → σ → Option Panic × σ

/-- What a container is built with, and does not change. -/
structure Container (κ : Type) where
  /-- The settings. -/
  settings : Settings
  /-- The interceptors. -/
  chain : Chain κ

namespace Container

variable {κ σ : Type} (c : Container κ)

/-! ### Resolving a name -/

/-- The finished instance of a name or an early reference to it; if there is neither, the
component is created from its definition. -/
def resolveAlone (n : Name) : Trial κ σ Ref := do
  match ← Attempt.lookup n c.settings.allowCircularReferences with
  | some i => return i
  | none =>
    match ← Attempt.recalls fun s : Site κ σ => s.definitions.get? n with
    | none => throw (.notDefined n)
    | some d => return (← Attempt.create n (.component n d)).ref

/-- Resolves a name, and records that the requester, if there is one, depends on it. -/
def resolve (n : Name) (requester : Option Name) : Trial κ σ Ref := do
  let i ← c.resolveAlone n
  if let some dependent := requester then
    Attempt.edit (.depend n dependent)
  return i

/-- Tells whether a name is finished or defined. -/
def isKnown (n : Name) : Trial κ σ Bool := do
  let finished ← Attempt.reads fun r => r.finished.contains n
  let defined ← Attempt.recalls fun s : Site κ σ => s.definitions.contains n
  return finished || defined

/-- Resolves a name if it is known.  A failure is set aside, and counts as no instance. -/
def resolveOptional (n : Name) (requester : Option Name) : Trial κ σ (Option Ref) := do
  if ← isKnown n then
    tryCatch (some <$> c.resolve n requester) fun e => do
      Attempt.edit (.suppress e)
      return none
  else
    return none

/-- Resolves a name for a component in creation, whose creation fails if this does. -/
def request (current n : Name) : Trial κ σ Ref :=
  Attempt.mapError (fun e => .creation current e []) (c.resolve n (some current))

/-- Resolves a name for a component in creation that can do without it. -/
def requestOptional (current n : Name) : Trial κ σ (Option Ref) :=
  c.resolveOptional n (some current)

/-! ### Creating a component -/

/-- Creates the declared dependencies of a component in their order.  One that depends on the
component itself is refused. -/
def createDependencies (n : Name) : List Name → Trial κ σ Unit
  | [] => return ()
  | dependency :: rest => do
    if ← Attempt.reads fun r => r.graph.isDependent n dependency then
      throw (.circularDependsOn n dependency)
    Attempt.edit (.depend dependency n)
    discard (Attempt.mapError (fun e => .creation n e []) (c.resolveAlone dependency))
    createDependencies n rest

variable (b : Behaviour κ σ)

/-- Passes an instance by interceptors at a stage, one after the other. -/
def passBy (s : Stage) (n : Name) : List (Name × Interceptor κ) → Ref → Trial κ σ Ref
  | [], i => return i
  | (_, ic) :: rest, i => do
    match ic.callback? s n with
    | none => passBy s n rest i
    | some k => passBy s n rest (← b.transform k n i)

/-- Passes an instance by the chain at a stage. -/
def intercept (s : Stage) (n : Name) (i : Ref) : Trial κ σ Ref := passBy b s n c.chain.entries i

/-- Runs a callback on an instance, if there is one. -/
def wireWith (k? : Option κ) (n : Name) (i : Ref) : Trial κ σ Unit :=
  match k? with
  | some k => b.wire k n i
  | none => return ()

/-- Settles which instance others get to see.  If one of them holds an early reference, that
is the one, unless an interceptor has put something else in the place of the raw instance. -/
def settle (n : Name) (raw exposed : Ref) : Trial κ σ Ref := do
  match ← Attempt.lookup n false with
  | none => return exposed
  | some early =>
    if exposed = raw then return early
    else if exposed = early then return exposed
    else throw (.earlyReferenceMismatch n)

/-- Creates a component from its definition. -/
def construct (n : Name) (d : Definition κ) : Trial κ σ Ref := do
  c.createDependencies n d.dependsOn
  let raw ← b.instantiate d.instantiate n
  let offered ←
    if c.settings.allowCircularReferences then
      Attempt.reads fun r => r.guard.isCurrentlyInCreation n
    else pure false
  if offered then
    discard (Attempt.edit (.publish n (.earlyReference n raw)))
  wireWith b d.populate n raw
  let exposed ← c.intercept b .beforeInit n raw
  wireWith b d.init n exposed
  let exposed ← c.intercept b .afterInit n exposed
  let exposed ← if offered then settle n raw exposed else pure exposed
  if let some k := d.dispose then
    Attempt.edit (.onDestroy n (.hook n k exposed))
  return exposed

/-- Creates a component from its definition, and destroys what there is of it if this
fails. -/
def constructOrDestroy (n : Name) (d : Definition κ) : Trial κ σ Ref :=
  tryCatch (c.construct b n d) fun e => do
    Attempt.destroy n
    throw e

/-! ### The container as a whole -/

/-- The names of the definitions that are not lazy. -/
def eagerNames (s : Site κ σ) : List Name :=
  (s.definitions.entries.filter fun e => !e.2.isLazy).map Prod.fst

/-- Resolves names in their order, up to the first that fails. -/
def resolveAll : List Name → Trial κ σ Unit
  | [] => return ()
  | n :: rest => do
    discard (c.resolve n none)
    resolveAll rest

/-- Creates every component that is not lazy. -/
def preinstantiate : Trial κ σ Unit := do
  c.resolveAll (← Attempt.recalls eagerNames)

/-- Files a definition, in place of one with its name. -/
def register (d : Definition κ) : Trial κ σ Unit :=
  Attempt.ofClient
    (.revise (fun s => { s with definitions := s.definitions.insert d.name d }) (.done ()))

/-- The behaviour behind the registry of a container. -/
def host : Host (Recipe κ) (Teardown κ) (Site κ σ) where
  make
    | .component n d => c.constructOrDestroy b n d
    | .earlyReference n raw => c.intercept b .earlyReference n raw
    | .callback n k => b.make k n
  dispose
    | .hook n k target => b.dispose k n (some target)
    | .callback n k => b.dispose k n none
  hear notice s :=
    let (p, scratch) := b.hear notice s.scratch
    (p, { s with scratch := scratch })

/-- The outline of a container with the finished names of its registry. -/
def outline (finished : List Name) : String :=
  Text.Outline.record "Container"
    [("config", c.settings.outline), ("finished", Text.Outline.texts finished),
      ("interceptors", c.chain.outline)]

end Container

end Componentry
