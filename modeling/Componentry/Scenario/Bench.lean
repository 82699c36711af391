import Componentry.Container
import Componentry.Scenario.Observer

/-!
# The bench

What scripted callbacks keep while a scenario is played: the heap of instances, the
variables, the number of calls of each callback, the order in which instances were first
shown, and the journal since the last step.
-/

namespace Componentry.Scenario

/-- A callback that was made: its label, its scripts, and the place at which its calls are
counted. -/
structure Callback where
  /-- The label under which its steps are reported. -/
  label : String
  /-- The scripts for its calls. -/
  attempts : Attempts
  /-- The place of its counter. -/
  place : Nat

/-- What scripted callbacks keep. -/
structure Bench where
  /-- The objects, by the number of their reference. -/
  heap : Array Cell
  /-- The variables. -/
  bindings : Catalog Ref
  /-- The counters of the callbacks. -/
  calls : Array Nat
  /-- The instances that were shown, the one shown first in front. -/
  shown : Array Ref
  /-- The journal, the last entry in front. -/
  journal : List Entry
  /-- Whether a callback has served the creation of a component. -/
  reached : Bool

namespace Bench

/-- The bench on which nothing has happened. -/
def fresh : Bench := ⟨#[], ∅, #[], #[], [], false⟩

instance : Inhabited Bench := ⟨fresh⟩

/-- The object to which a reference leads. -/
def cell (b : Bench) (i : Ref) : Cell := (b.heap[i.index]?).getD .unit

/-- Adds entries to the journal. -/
def record (b : Bench) (entries : List Entry) : Bench :=
  { b with journal := entries.reverse ++ b.journal }

/-- The journal in its order, and the bench with an empty one. -/
def cut (b : Bench) : List Entry × Bench := (b.journal.reverse, { b with journal := [] })

/-- Makes a new object. -/
def alloc (c : Cell) : StateM Bench Ref :=
  modifyGet fun b => (⟨b.heap.size⟩, { b with heap := b.heap.push c })

/-- Makes a place at which calls are counted. -/
def counter : StateM Bench Nat :=
  modifyGet fun b => (b.calls.size, { b with calls := b.calls.push 0 })

/-- Counts a call, and tells how many there were before. -/
def countCall (place : Nat) : StateM Bench Nat :=
  modifyGet fun b =>
    let before := (b.calls[place]?).getD 0
    (before, { b with calls := b.calls.setIfInBounds place (before + 1) })

/-- Makes a callback. -/
def callback (label : String) (attempts : Attempts) : StateM Bench Callback := do
  return ⟨label, attempts, ← counter⟩

/-- Binds an instance to a variable, if there is one. -/
def bindVariable (x? : Option Name) (i : Ref) : StateM Bench Unit :=
  match x? with
  | some x => modify fun b => { b with bindings := b.bindings.insert x i }
  | none => return ()

/-- Adds a reference to what a node holds. -/
def wire (node : Ref) (n : Name) (i : Ref) : StateM Bench Unit :=
  modify fun b =>
    match b.cell node with
    | .node wired => { b with heap := b.heap.setIfInBounds node.index (.node (wired ++ [(n, i)])) }
    | _ => b

/-- The instance that a value of a script means.  A variable that was never bound, or an
instance that the callback was not given, means a new object. -/
def eval (self : Option Ref) : Value → StateM Bench Ref
  | .text s => alloc (.text s)
  | .num n => alloc (.num n)
  | .flag b => alloc (.flag b)
  | .unit => alloc .unit
  | .node => alloc (.node [])
  | .wrap tag v => do
    let i ← eval self v
    alloc (.wrap tag i)
  | .self =>
    match self with
    | some i => return i
    | none => alloc .unit
  | .var x => do
    match (← get).bindings.get? x with
    | some i => return i
    | none => alloc .unit

/-- The number under which an instance is shown: the next one, if it was not shown before. -/
def number (i : Ref) : StateM Bench Nat :=
  modifyGet fun b =>
    match b.shown.idxOf? i with
    | some id => (id, b)
    | none => (b.shown.size, { b with shown := b.shown.push i })

/-- Shows an instance.  What a wrapper holds is older than the wrapper. -/
def depict (i : Ref) : StateM Bench Portrait := do
  let id ← number i
  match (← get).cell i with
  | .text s => return .text id s
  | .num n => return .num id n
  | .flag b => return .flag id b
  | .unit => return .unit id
  | .node _ => return .node id
  | .wrap tag inner =>
    if _h : inner.index < i.index then return .wrap id tag (← depict inner)
    else return .unit id
termination_by i.index

/-- Shows an instance, if there is one. -/
def depict? : Option Ref → StateM Bench (Option Portrait)
  | some i => some <$> depict i
  | none => return none

/-- Shows the references that a node holds. -/
def depictWired : List (Name × Ref) → StateM Bench (List (Name × Portrait))
  | [] => return []
  | (n, i) :: rest => do
    let p ← depict i
    return (n, p) :: (← depictWired rest)

/-- Shows what a node holds; anything else holds nothing. -/
def inspect (i : Ref) : StateM Bench Reply := do
  match (← get).cell i with
  | .node wired => return .wired (← depictWired wired)
  | _ => return .nothing

end Bench

/-- Makes the callbacks of a definition. -/
def Handler.equip (label : String) : Handler Attempts → StateM Bench (Handler Callback)
  | .plain k => do return .plain (← Bench.callback label k)
  | .typed k => do return .typed (← Bench.callback label k)
  | .populateAs t k => do return .populateAs t (← Bench.callback label k)
  | .disposeAs t => return .disposeAs t
  | .supply place outcome => return .supply place outcome

/-- Makes the callback of a definition that it may lack. -/
def Handler.equip? (label : String) :
    Option (Handler Attempts) → StateM Bench (Option (Handler Callback))
  | some h => some <$> h.equip label
  | none => return none

/-- The label of the step that populates a component. -/
def populateLabel (n : Name) : Option (Handler Attempts) → String
  | some (.populateAs _ _) => "populate_as:" ++ n
  | _ => "populate:" ++ n

/-- Makes the callbacks of a definition. -/
def equipDefinition (d : Definition (Handler Attempts)) :
    StateM Bench (Definition (Handler Callback)) := do
  let instantiate ← d.instantiate.equip ("instantiate:" ++ d.name)
  let populate ← Handler.equip? (populateLabel d.name d.populate) d.populate
  let init ← Handler.equip? ("init:" ++ d.name) d.init
  let dispose ← Handler.equip? ("dispose:" ++ d.name) d.dispose
  return { d with
    instantiate := instantiate
    populate := populate
    init := init
    dispose := dispose }

/-- Makes the callbacks of an interceptor. -/
def equipInterceptor (n : Name) (ic : Interceptor Attempts) :
    StateM Bench (Interceptor (Handler Callback)) := do
  let equip (s : Stage) : StateM Bench (Option (Handler Callback)) :=
    Handler.equip? (stageLabel s n) ((ic.hook s).map .plain)
  let before ← equip .beforeInit
  let after ← equip .afterInit
  let early ← equip .earlyReference
  return { ic with
    hook := fun
      | .beforeInit => before
      | .afterInit => after
      | .earlyReference => early }

end Componentry.Scenario
