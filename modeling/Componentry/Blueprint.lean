import Componentry.Definition

/-!
# Blueprints

A blueprint collects, under their names, the definitions from which a container is built,
with the extensions that still change it and the interceptors of the container.
-/

namespace Componentry

/-- Definitions, extensions and interceptors by name. -/
structure Blueprint (κ ε : Type) where
  /-- The number that tells blueprints apart. -/
  id : Nat
  /-- The definitions. -/
  definitions : Catalog (Definition κ)
  /-- The extensions that may add further ones. -/
  registryExtensions : Catalog (RegistryExtension ε)
  /-- The extensions that come when all those have run. -/
  definitionExtensions : Catalog (DefinitionExtension ε)
  /-- The interceptors. -/
  interceptors : Catalog (Interceptor κ)

namespace Blueprint

variable {κ ε : Type}

/-- The blueprint with nothing in it. -/
def fresh (id : Nat) : Blueprint κ ε := ⟨id, ∅, ∅, ∅, ∅⟩

instance : Inhabited (Blueprint κ ε) := ⟨fresh 0⟩

/-- Files a definition, in place of one with its name. -/
def define (b : Blueprint κ ε) (d : Definition κ) : Blueprint κ ε :=
  { b with definitions := b.definitions.insert d.name d }

/-- Strikes a definition. -/
def undefine (b : Blueprint κ ε) (n : Name) : Blueprint κ ε :=
  { b with definitions := b.definitions.erase n }

/-- Files a registry extension. -/
def addRegistryExtension (b : Blueprint κ ε) (n : Name) (e : RegistryExtension ε) :
    Blueprint κ ε :=
  { b with registryExtensions := b.registryExtensions.insert n e }

/-- Files a definition extension. -/
def addDefinitionExtension (b : Blueprint κ ε) (n : Name) (e : DefinitionExtension ε) :
    Blueprint κ ε :=
  { b with definitionExtensions := b.definitionExtensions.insert n e }

/-- Files an interceptor. -/
def addInterceptor (b : Blueprint κ ε) (n : Name) (ic : Interceptor κ) : Blueprint κ ε :=
  { b with interceptors := b.interceptors.insert n ic }

/-- The outline of a blueprint, which shows names alone. -/
def outline (b : Blueprint κ ε) : String :=
  Text.Outline.record "DefinitionRegistry"
    [("id", toString b.id), ("definitions", Text.Outline.texts b.definitions.names),
      ("registry_extensions", Text.Outline.texts b.registryExtensions.names),
      ("definition_extensions", Text.Outline.texts b.definitionExtensions.names),
      ("interceptors", Text.Outline.texts b.interceptors.names)]

end Blueprint

end Componentry
