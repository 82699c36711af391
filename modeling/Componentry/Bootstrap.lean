import Componentry.Client
import Componentry.Blueprint

/-!
# Bootstrapping a blueprint

Before a container is built, the extensions of its blueprint run.  Extensions that were
supplied from outside come first.  Then the registry extensions of the blueprint run in
passes: the first pass takes those of the first tier, the second adds those of the second
tier, and all others follow, pass after pass, until a pass finds none that is new.  When all
have run, they are finalized, and then the definition extensions have their turn, tier by
tier.  A blueprint goes through this once.

An extension may file further extensions while it runs; each pass collects its batch before
it runs any of it.
-/

namespace Componentry

/-- Why the bootstrapping of a blueprint stopped. -/
inductive Stop where
  /-- A callback failed, or the blueprint was bootstrapped before. -/
  | failed (e : Error)
  /-- A callback panicked. -/
  | panicked (p : Panic)
  /-- More passes are needed than were allowed. -/
  | exhausted

/-- A program that revises a blueprint and a state of its own, and may stop. -/
abbrev Draft (κ ε σ : Type) : Type → Type := ExceptT Stop (StateM (Blueprint κ ε × σ))

/-- An extension that is supplied from outside. -/
inductive Presupplied (ε : Type) where
  /-- A registry extension. -/
  | registry (e : RegistryExtension ε)
  /-- A definition extension. -/
  | definition (e : DefinitionExtension ε)

namespace Presupplied

variable {ε : Type}

/-- The outline of a supplied extension, which shows its sort alone. -/
def outline : Presupplied ε → String
  | registry _ => Text.Outline.apply "Registry" [".."]
  | definition _ => Text.Outline.apply "Definition" [".."]

/-- The label of the supplied extension at a place. -/
def label (place : Nat) : Name := "presupplied#" ++ toString place

/-- The supplied registry extensions with their labels. -/
def registryOnes (supplied : List (Presupplied ε)) : List (Name × RegistryExtension ε) :=
  supplied.zipIdx.filterMap fun e =>
    match e with
    | (registry x, place) => some (label place, x)
    | (definition _, _) => none

/-- The supplied definition extensions with their labels. -/
def definitionOnes (supplied : List (Presupplied ε)) : List (Name × DefinitionExtension ε) :=
  supplied.zipIdx.filterMap fun e =>
    match e with
    | (definition x, place) => some (label place, x)
    | (registry _, _) => none

end Presupplied

/-- What ran, in its order. -/
structure Report where
  /-- The registry extensions. -/
  registryPhase : List Name
  /-- The definition extensions. -/
  definitionPhase : List Name
deriving DecidableEq

namespace Bootstrap

variable {κ ε σ : Type}

/-- The registry extensions that have been collected, and those that have run. -/
structure Progress (ε : Type) where
  /-- The names that were collected in some pass. -/
  processed : List Name
  /-- What has run, in its order. -/
  ran : List (Name × RegistryExtension ε)

/-- Runs a callback, if there is one. -/
def performing (perform : ε → Draft κ ε σ Unit) (k? : Option ε) : Draft κ ε σ Unit :=
  match k? with
  | some k => perform k
  | none => return ()

/-- Lets registry extensions extend the blueprint, one after the other. -/
def extendAll (perform : ε → Draft κ ε σ Unit) :
    List (Name × RegistryExtension ε) → Draft κ ε σ Unit
  | [] => return ()
  | (_, x) :: rest => do
    performing perform x.extend
    extendAll perform rest

/-- Finalizes registry extensions, one after the other. -/
def finalizeAll (perform : ε → Draft κ ε σ Unit) :
    List (Name × RegistryExtension ε) → Draft κ ε σ Unit
  | [] => return ()
  | (_, x) :: rest => do
    performing perform x.finalize
    finalizeAll perform rest

/-- Runs definition extensions, one after the other. -/
def reviseAll (perform : ε → Draft κ ε σ Unit) :
    List (Name × DefinitionExtension ε) → Draft κ ε σ Unit
  | [] => return ()
  | (_, x) :: rest => do
    perform x.finalize
    reviseAll perform rest

/-- The registry extensions of a blueprint that a pass collects, in the order in which they
run: those of an admitted tier that were not collected before. -/
def batch (b : Blueprint κ ε) (processed : List Name) (allowed : Tier → Bool) :
    List (Name × RegistryExtension ε) :=
  Precedence.sortBy (fun e => e.2.precedence)
    (b.registryExtensions.entries.filter fun e =>
      e.1 ∉ processed && allowed e.2.precedence.tier)

/-- One pass: collects a batch and runs it.  The result is none if the batch is empty. -/
def pass? (perform : ε → Draft κ ε σ Unit) (allowed : Tier → Bool) (p : Progress ε) :
    Draft κ ε σ (Option (Progress ε)) := do
  let (b, _) ← get
  let found := batch b p.processed allowed
  if found.isEmpty then return none
  else
    extendAll perform found
    return some ⟨p.processed ++ found.map Prod.fst, p.ran ++ found⟩

/-- One pass that need not find anything. -/
def pass (perform : ε → Draft κ ε σ Unit) (allowed : Tier → Bool) (p : Progress ε) :
    Draft κ ε σ (Progress ε) := do
  return (← pass? perform allowed p).getD p

/-- Passes over all tiers until one finds nothing. -/
def discover (perform : ε → Draft κ ε σ Unit) : Nat → Progress ε → Draft κ ε σ (Progress ε)
  | 0, _ => throw .exhausted
  | limit + 1, p => do
    match ← pass? perform (fun _ => true) p with
    | some p => discover perform limit p
    | none => return p

/-- The definition extensions of a blueprint, tier by tier, each tier in the order of its
order values. -/
def definitionOrder (b : Blueprint κ ε) : List (Name × DefinitionExtension ε) :=
  [Tier.priority, .ordered, .unordered].flatMap fun t =>
    Precedence.sortBy (fun e => e.2.precedence)
      (b.definitionExtensions.entries.filter fun e => e.2.precedence.tier = t)

/-- Runs all extensions; `limit` bounds the number of passes over all tiers. -/
def run (perform : ε → Draft κ ε σ Unit) (limit : Nat) (supplied : List (Presupplied ε)) :
    Draft κ ε σ Report := do
  let first := Presupplied.registryOnes supplied
  extendAll perform first
  let p ← pass perform (fun t => t = .priority) ⟨[], first⟩
  let p ← pass perform (fun t => t ≠ .unordered) p
  let p ← discover perform limit p
  finalizeAll perform p.ran
  let second := Presupplied.definitionOnes supplied
  reviseAll perform second
  let (b, _) ← get
  let third := definitionOrder b
  reviseAll perform third
  return ⟨p.ran.map Prod.fst, (second ++ third).map Prod.fst⟩

end Bootstrap

/-- What runs the extensions of blueprints, and remembers of which. -/
structure Orchestrator where
  /-- The numbers of the blueprints that were bootstrapped, or began to be. -/
  invoked : List Nat
deriving DecidableEq

namespace Orchestrator

variable {κ ε σ : Type}

/-- An orchestrator that has not bootstrapped any blueprint. -/
def fresh : Orchestrator := ⟨[]⟩

instance : Inhabited Orchestrator := ⟨fresh⟩

/-- Tells whether the bootstrapping of a blueprint has begun. -/
def hasProcessed (o : Orchestrator) (id : Nat) : Bool := o.invoked.contains id

/-- Bootstraps a blueprint, unless this has begun before. -/
def invoke (o : Orchestrator) (perform : ε → Draft κ ε σ Unit) (limit : Nat)
    (supplied : List (Presupplied ε)) (s : Blueprint κ ε × σ) :
    (Except Stop Report × (Blueprint κ ε × σ)) × Orchestrator :=
  if o.hasProcessed s.1.id then ((.error (.failed (.duplicateInvocation s.1.id)), s), o)
  else (Bootstrap.run perform limit supplied s, ⟨s.1.id :: o.invoked⟩)

end Orchestrator

end Componentry
