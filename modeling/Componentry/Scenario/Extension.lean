import Componentry.Scenario.Bench

/-!
# Scripted extensions

How scripted extensions revise a blueprint.  Each revision is carried out and answered; the
steps of an extension are entered in the journal, and it fails or panics at the end if its
script says so.
-/

namespace Componentry.Scenario

/-- A blueprint with scripted callbacks. -/
abbrev ScriptedBlueprint := Blueprint (Handler Callback) ExtensionScript

/-- Revises a blueprint, and answers. -/
def revise (p : ScriptedBlueprint) :
    Revision ExtensionScript → StateM Bench (Reply × ScriptedBlueprint)
  | .define d => do
    let p := p.define (← equipDefinition d)
    return (.count p.definitions.size, p)
  | .undefine n => return (view n, p.undefine n)
  | .redefine n =>
    match p.definitions.get? n with
    | some d =>
      let p := (p.undefine n).define d
      return (.names p.definitions.names, p)
    | none => return (.nothing, p)
  | .definition n => return (view n, p)
  | .contains n => return (.flag (p.definitions.contains n), p)
  | .names => return (.names p.definitions.names, p)
  | .size => return (.count p.definitions.size, p)
  | .isEmpty => return (.flag p.definitions.isEmpty, p)
  | .id => return (.count p.id, p)
  | .addRegistryExtension n x =>
    let p := p.addRegistryExtension n x
    return (.names p.registryExtensions.names, p)
  | .addDefinitionExtension n x =>
    let p := p.addDefinitionExtension n x
    return (.names p.definitionExtensions.names, p)
  | .addInterceptor n ic => do
    let p := p.addInterceptor n (← equipInterceptor n ic)
    return (.names p.interceptors.names, p)
  | .extensionNames =>
    return (.groups
      [p.registryExtensions.names, p.definitionExtensions.names, p.interceptors.names], p)
  | .outline => return (.text p.outline, p)
where
  /-- The definition of a name as far as it is shown. -/
  view (n : Name) : Reply :=
    match p.definitions.get? n with
    | some d => .definition (DefinitionView.of d)
    | none => .nothing

/-- A program that scripted extensions give rise to. -/
abbrev ScriptedDraft : Type → Type := Draft (Handler Callback) ExtensionScript Bench

/-- Works on the blueprint and the bench. -/
def drafting {α : Type} (f : ScriptedBlueprint → StateM Bench (α × ScriptedBlueprint)) :
    ScriptedDraft α :=
  ExceptT.lift do
    let (p, b) ← get
    let ((a, p), b) := (f p).run b
    set (p, b)
    return a

/-- Carries out revisions one after the other, and enters them in the journal. -/
def reviseAll (label : String) : List (String × Revision ExtensionScript) → ScriptedDraft Unit
  | [] => return ()
  | (verb, r) :: rest => do
    drafting fun p => do
      let (reply, p) ← revise p r
      modify fun b => b.record [.step label verb (.reply reply)]
      return ((), p)
    reviseAll label rest

/-- Calls a callback of an extension. -/
def ExtensionScript.run : ExtensionScript → ScriptedDraft Unit
  | .mk label steps stop? => do
    drafting fun p => do
      modify fun b => b.record [.extensionCall label]
      return ((), p)
    reviseAll label steps
    if let some stop := stop? then throw stop

/-- Revises a blueprint before any extension runs. -/
def prepare : List (Revision ExtensionScript) → ScriptedBlueprint →
    StateM Bench ScriptedBlueprint
  | [], p => return p
  | r :: rest, p => do
    let (_, p) ← revise p r
    prepare rest p

end Componentry.Scenario
