import Componentry.Scenario.Bench

/-!
# Performance

How the steps of a script are carried out, as programs on the registry and the memory of a
container.  A step that is over is entered in the journal with what came of it; a step that
fails ends its script, unless it is tolerant of failure.
-/

namespace Componentry.Scenario

/-- A program that scripts give rise to. -/
abbrev Scripted : Type → Type := Trial (Handler Callback) Bench

/-- A container with scripted callbacks. -/
abbrev ScriptedContainer := Container (Handler Callback)

/-- Works on the bench. -/
def onBench {α : Type} (f : StateM Bench α) : Scripted α :=
  Attempt.ofClient <| .view fun _ s =>
    let (a, b) := f.run s.scratch
    .revise (fun s => { s with scratch := b }) (.done a)

/-- Panics. -/
def panicking {α : Type} (p : Panic) : Scripted α := ExceptT.mk (.panic p)

/-- Adds an entry to the journal. -/
def record (e : Entry) : Scripted Unit := onBench (modify fun b => b.record [e])

/-- What a script knows of its place: its label, the instance that the callback was given,
and the component in creation that it serves. -/
structure Scope where
  /-- The label under which the steps are reported. -/
  label : String
  /-- The instance that the callback was given. -/
  self : Option Ref
  /-- The component in creation that the callback serves. -/
  current : Option Name

/-- The scope of the steps that nothing is around. -/
def Scope.top : Scope := ⟨"top", none, none⟩

/-! ### Actions -/

/-- Fails unless an instance has a type, if one is asked for. -/
def checkType (n : Name) (t? : Option ValueType) (i : Ref) : Scripted Unit := do
  if let some t := t? then
    let cell ← onBench do return (← get).cell i
    unless cell.type? = some t do
      throw (.typeMismatch n t.title)

/-- Shows an instance that came out of a step, and binds it to the variable of the step. -/
def present (x? : Option Name) (i : Ref) : Scripted Reply := onBench do
  Bench.bindVariable x? i
  return .shown (← Bench.depict i)

/-- Shows an instance that came out of a step, if there is one. -/
def present? (x? : Option Name) : Option Ref → Scripted Reply
  | some i => present x? i
  | none => return .nothing

/-- Answers what the registry shows. -/
def answering (f : Registry (Recipe (Handler Callback)) (Teardown (Handler Callback)) → Reply) :
    Scripted Reply :=
  Attempt.reads f

/-- Makes a request that answers nothing. -/
def doing {α : Type} (a : Scripted α) : Scripted Reply := do
  discard a
  return .nothing

/-- Requests a component a number of times, each time with the same factory. -/
def contend (n : Name) (factory : Handler Callback) : Nat → Tally → Scripted Tally
  | 0, t => return t
  | times + 1, t => do
    let outcome ← tryCatch (some <$> Attempt.create n (.callback n factory)) fun _ => return none
    let t := match outcome with
      | some m =>
        { t with
          created := t.created + (if m.isCreated then 1 else 0)
          refs := t.refs ++ [m.ref] }
      | none => { t with failed := t.failed + 1 }
    contend n factory times t

/-- Carries out an action in a scope; `x?` is the variable of the step. -/
def perform (c : ScriptedContainer) (scope : Scope) (x? : Option Name) :
    Action Attempts → Scripted Reply
  | .register n v => do
    let i ← onBench do
      let i ← Bench.eval scope.self v
      Bench.bindVariable x? i
      return i
    match ← Attempt.edit (.bind n i) with
    | .ok () => return .nothing
    | .error e => throw e
  | .lookup n early => do present? x? (← Attempt.lookup n early)
  | .create n k => do
    let callback ← onBench (Bench.callback ("create:" ++ n) k)
    let m ← Attempt.create n (.callback n (.plain callback))
    onBench do
      Bench.bindVariable x? m.ref
      return .materialized m.isCreated m.outline (← Bench.depict m.ref)
  | .publish n k => do
    let callback ← onBench (Bench.callback ("early:" ++ n) k)
    return .flag (← Attempt.edit (.publish n (.callback n (.plain callback))))
  | .suppress e => doing (Attempt.edit (.suppress e))
  | .remove n => doing (Attempt.edit (.remove n))
  | .contains n => answering fun r => .flag (r.finished.contains n)
  | .names => answering fun r => .names r.finished.names
  | .count => answering fun r => .count r.finished.size
  | .setExempt n exempt => doing (Attempt.edit (.setExempt n exempt))
  | .inCreation n => answering fun r => .flag (r.guard.isCurrentlyInCreation n)
  | .namesInCreation => answering fun r => .names r.guard.inCreation.toList
  | .inDestruction => answering fun r => .flag r.inDestruction
  | .depend dependee dependent => doing (Attempt.edit (.depend dependee dependent))
  | .contain inner outer => doing (Attempt.edit (.contain inner outer))
  | .isDependent subject candidate =>
    answering fun r => .flag (r.graph.isDependent subject candidate)
  | .dependents n => answering fun r => .names (r.graph.dependentsOf n)
  | .dependencies n => answering fun r => .names (r.graph.dependenciesOf n)
  | .contained n => answering fun r => .names (r.graph.containedOf n)
  | .onDestroy n k => do
    let callback ← onBench (Bench.callback ("dispose:" ++ n) k)
    doing (Attempt.edit (.onDestroy n (.callback n (.plain callback))))
  | .hasDisposal n => answering fun r => .flag (r.disposals.contains n)
  | .pending => answering fun r => .count r.disposals.size
  | .destroy n => doing (Attempt.destroy n)
  | .destroyAll => doing Attempt.destroyAll
  | .state => answering fun r => .state (Snapshot.of r)
  | .contend n times outcome => do
    let place ← onBench Bench.counter
    let t ← contend n (.supply place outcome) times ⟨0, 0, 0, []⟩
    let calls ← onBench do return ((← get).calls[place]?).getD 0
    return .tally { t with calls := calls }
  | .bind v => do present x? (← onBench (Bench.eval scope.self v))
  | .inspect v => onBench do Bench.inspect (← Bench.eval scope.self v)
  | .note text => return .text text
  | .get n t? => do
    let i ← c.resolve n none
    checkType n t? i
    present x? i
  | .getOptional n t? => do
    let i? ← c.resolveOptional n none
    if let some i := i? then checkType n t? i
    present? x? i?
  | .inspectComponent n => do
    let i ← c.resolve n none
    onBench (Bench.inspect i)
  | .isKnown n => return .flag (← Container.isKnown n)
  | .definitionNames => Attempt.recalls fun s => .names s.definitions.names
  | .interceptorNames => return .names c.chain.names
  | .define d => do doing (Container.register (← onBench (equipDefinition d)))
  | .preinstantiate => doing c.preinstantiate
  | .settings => return .settings c.settings
  | .outline => answering fun r => .text (c.outline r.finished.names)
  | .request n t? => do
    let i ← c.request (scope.current.getD "") n
    checkType n t? i
    present x? i
  | .requestOptional n t? => do
    let i? ← c.requestOptional (scope.current.getD "") n
    if let some i := i? then checkType n t? i
    present? x? i?
  | .wire n => do
    let i ← c.request (scope.current.getD "") n
    if let some node := scope.self then onBench (Bench.wire node n i)
    present none i
  | .current => return .text (scope.current.getD "")
  | .currentOutline =>
    return .text
      (Text.Outline.record "CreationContext" [("current", Text.quote (scope.current.getD ""))])
  | .onDestroyCurrent k => do
    let n := scope.current.getD ""
    let callback ← onBench (Bench.callback ("dispose:" ++ n) k)
    doing (Attempt.edit (.onDestroy n (.callback n (.plain callback))))
  | .containInCurrent inner => doing (Attempt.edit (.contain inner (scope.current.getD "")))

/-! ### Scripts -/

/-- Enters what came of a step in the journal, and fails if the step failed and is not
tolerant. -/
def reporting (label verb : String) (tolerant : Bool) (a : Scripted Reply) : Scripted Unit := do
  let outcome ← tryCatch (Except.ok <$> a) fun e => return Except.error e
  match outcome with
  | .ok r => record (.step label verb (.reply r))
  | .error e =>
    record (.step label verb (.error e))
    unless tolerant do
      throw e

/-- The scope of a script that runs with the lock held. -/
def Scope.locked (scope : Scope) (bare : Bool) : Scope :=
  if bare then ⟨"lock", none, none⟩ else { scope with label := "lock" }

/-- Runs a script, up to the instance that it gives, if it gives one. -/
def play (c : ScriptedContainer) (scope : Scope) : Script → Scripted (Option Ref)
  | [] => return none
  | .give v :: _ => some <$> onBench (Bench.eval scope.self v)
  | .fail e :: _ => throw e
  | .panic p :: _ => panicking p
  | .lock verb tolerant bare body :: rest => do
    reporting scope.label verb tolerant do
      present? none (← play c (scope.locked bare) body)
    play c scope rest
  | .act verb tolerant x? a :: rest => do
    reporting scope.label verb tolerant (perform c scope x? a)
    play c scope rest

/-- Carries out a step that nothing is around. -/
def playTop (c : ScriptedContainer) : Step → Scripted Reply
  | .give v => do present none (← onBench (Bench.eval none v))
  | .fail e => throw e
  | .panic p => panicking p
  | .lock _ _ bare body => do present? none (← play c (Scope.top.locked bare) body)
  | .act _ _ x? a => perform c Scope.top x? a

/-! ### Callbacks -/

/-- The script for a call after a number of calls: its own, or the last one. -/
def Callback.script (k : Callback) (before : Nat) : Script :=
  (k.attempts[min before (k.attempts.length - 1)]?).getD []

/-- Calls a callback for a component, with an instance and a creation that it serves. -/
def call (c : ScriptedContainer) (k : Callback) (n : Name) (self : Option Ref)
    (current : Option Name) : Scripted (Option Ref) := do
  let script ← onBench do
    let before ← Bench.countCall k.place
    let portrait ← Bench.depict? self
    modify fun b =>
      { b.record [.call k.label n portrait] with reached := b.reached || current.isSome }
    return k.script before
  play c ⟨k.label, self, current⟩ script

/-- The instance that a callback gave, or a new text with the name of the component. -/
def orNamed (n : Name) : Option Ref → Scripted Ref
  | some i => return i
  | none => onBench (Bench.alloc (.text n))

/-- Counts a call of a supply, and gives what it has. -/
def supplyNext (place : Nat) (outcome : Except Error Value) : Scripted Ref := do
  discard (onBench (Bench.countCall place))
  match outcome with
  | .ok v => onBench (Bench.eval none v)
  | .error e => throw e

/-- Makes the instance of a component. -/
def Handler.instantiate (c : ScriptedContainer) (h : Handler Callback) (n : Name) :
    Scripted Ref := do
  match h with
  | .plain k | .populateAs _ k => orNamed n (← call c k n none (some n))
  | .typed k => do
    let i ← orNamed n (← call c k n none (some n))
    onBench do Bench.alloc ((← get).cell i)
  | .supply place outcome => supplyNext place outcome
  | .disposeAs _ => orNamed n none

/-- Populates an instance, or makes it ready. -/
def Handler.wire (c : ScriptedContainer) (h : Handler Callback) (n : Name) (i : Ref) :
    Scripted Unit := do
  match h with
  | .plain k | .typed k => discard (call c k n (some i) (some n))
  | .populateAs t k => do
    checkType n (some t) i
    let cell ← onBench do return (← get).cell i
    record (.typed n cell.outline)
    discard (call c k n none (some n))
  | .supply _ _ | .disposeAs _ => return ()

/-- Replaces an instance, or passes it through. -/
def Handler.transform (c : ScriptedContainer) (h : Handler Callback) (n : Name) (i : Ref) :
    Scripted Ref := do
  match h with
  | .plain k | .typed k | .populateAs _ k => return (← call c k n (some i) none).getD i
  | .supply _ _ | .disposeAs _ => return i

/-- Makes an instance on direct request. -/
def Handler.make (c : ScriptedContainer) (h : Handler Callback) (n : Name) : Scripted Ref := do
  match h with
  | .plain k | .typed k | .populateAs _ k => orNamed n (← call c k n none none)
  | .supply place outcome => supplyNext place outcome
  | .disposeAs _ => orNamed n none

/-- Disposes of a component. -/
def Handler.dispose (c : ScriptedContainer) (h : Handler Callback) (n : Name) (self : Option Ref) :
    Scripted Unit := do
  match h with
  | .plain k | .typed k | .populateAs _ k => discard (call c k n self none)
  | .disposeAs t => do
    if let some i := self then
      checkType n (some t) i
      let cell ← onBench do return (← get).cell i
      record (.disposedAs n cell.outline)
  | .supply _ _ => return ()

/-- What observers do when they hear a notice. -/
def hear (observers : List Observer) (log : Bool) (notice : Notice) (b : Bench) :
    Option Panic × Bench :=
  let (heard, p) := Observer.reactAll notice observers
  let entries := (Notice.ownLogLine? notice).toList.map Entry.logged ++ heard
  let admitted : Entry → Bool
    | .logged _ => log
    | _ => true
  (p, b.record (entries.filter admitted))

/-- The behaviour of scripted callbacks in a container with observers; `log` says whether the
log is kept in the journal. -/
def behaviour (c : ScriptedContainer) (observers : List Observer) (log : Bool) :
    Behaviour (Handler Callback) Bench where
  instantiate := Handler.instantiate c
  wire := Handler.wire c
  transform := Handler.transform c
  make := Handler.make c
  dispose h n self :=
    (Handler.dispose c h n self).run.andThen fun outcome =>
      .done (outcome.mapError Error.message)
  hear := hear observers log

end Componentry.Scenario
