import Componentry.Catalog
import Componentry.Precedence

/-!
# Definitions, interceptors and extensions

A definition is the recipe for one component.  An interceptor stands between the recipe and
what others get to see of the component.  An extension changes the recipes before the first
component is made.  Callbacks are of a type `κ`; what they do is said elsewhere.
-/

namespace Componentry

/-- The recipe for a component. -/
structure Definition (κ : Type) where
  /-- The name of the component. -/
  name : Name
  /-- Makes the instance. -/
  instantiate : κ
  /-- Provides the instance with what it needs. -/
  populate : Option κ
  /-- Makes the instance ready for use. -/
  init : Option κ
  /-- Disposes of the instance. -/
  dispose : Option κ
  /-- The components that have to be created before. -/
  dependsOn : List Name
  /-- Whether the component waits until it is asked for. -/
  isLazy : Bool

/-- The outline of a definition, which shows of a callback only whether there is one. -/
def Definition.outline {κ : Type} (d : Definition κ) : String :=
  Text.Outline.record "ComponentDefinition"
    [("name", Text.quote d.name), ("depends_on", Text.Outline.texts d.dependsOn),
      ("lazy", Text.Outline.bool d.isLazy), ("populate", Text.Outline.bool d.populate.isSome),
      ("init", Text.Outline.bool d.init.isSome),
      ("dispose", Text.Outline.bool d.dispose.isSome)]

/-- The points at which interceptors come in. -/
inductive Stage where
  /-- After the instance was populated, before it is made ready. -/
  | beforeInit
  /-- After the instance was made ready. -/
  | afterInit
  /-- When the instance is handed out while it is in creation. -/
  | earlyReference
deriving DecidableEq

/-- What may replace an instance by another one before others get to see it. -/
structure Interceptor (κ : Type) where
  /-- Its place among the interceptors. -/
  precedence : Precedence
  /-- Whether it stands at the tail of the chain. -/
  isInternal : Bool
  /-- The components that it concerns, if not all. -/
  only : Option (List Name)
  /-- What it does at each stage, if anything. -/
  hook : Stage → Option κ

/-- The callback of an interceptor for a component at a stage, if it has one. -/
def Interceptor.callback? {κ : Type} (ic : Interceptor κ) (s : Stage) (n : Name) : Option κ :=
  match ic.only with
  | some names => if n ∈ names then ic.hook s else none
  | none => ic.hook s

/-- What adds definitions, extensions and interceptors to a blueprint. -/
structure RegistryExtension (ε : Type) where
  /-- Its place among the extensions. -/
  precedence : Precedence
  /-- Extends the blueprint, if it does anything. -/
  extend : Option ε
  /-- Comes after all extensions of its kind have extended the blueprint. -/
  finalize : Option ε

/-- What revises a blueprint that is complete. -/
structure DefinitionExtension (ε : Type) where
  /-- Its place among the extensions. -/
  precedence : Precedence
  /-- Revises the blueprint. -/
  finalize : ε

end Componentry
