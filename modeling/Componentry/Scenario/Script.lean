import Componentry.Bootstrap
import Componentry.Scenario.Value

/-!
# Scripts

A script is a list of steps.  Some steps end it, with an instance, an error or a panic; the
others act on a registry, on a container, or on the creation that the script serves.  A
scripted callback has a script for each of its calls, of which the last serves all further
calls.

Definitions, interceptors and extensions hold scripts where those of a container hold
callbacks, since a callback comes into being only when the step that mentions it is carried
out.
-/

namespace Componentry.Scenario

/-- The ways in which a definition uses a callback. -/
inductive Handler (κ : Type) where
  /-- The callback as it is. -/
  | plain (k : κ)
  /-- A callback whose instance is copied into a new object of its type. -/
  | typed (k : κ)
  /-- A callback that comes after the instance was found to have a type. -/
  | populateAs (t : ValueType) (k : κ)
  /-- A disposal that asks only that the instance has a type. -/
  | disposeAs (t : ValueType)
  /-- A supply of new values, or an error; `place` counts the calls. -/
  | supply (place : Nat) (outcome : Except Error Value)

/-- What a step does to a registry, a container or a creation. -/
inductive Action (κ : Type) where
  /-- Binds an instance. -/
  | register (name : Name) (v : Value)
  /-- Looks a name up. -/
  | lookup (name : Name) (early : Bool)
  /-- Creates a component with a factory. -/
  | create (name : Name) (k : κ)
  /-- Offers a producer of early references. -/
  | publish (name : Name) (k : κ)
  /-- Sets a failure aside. -/
  | suppress (e : Error)
  /-- Strikes a name from the tiers. -/
  | remove (name : Name)
  /-- Asks whether a name is finished. -/
  | contains (name : Name)
  /-- Asks for the finished names. -/
  | names
  /-- Asks for the number of finished names. -/
  | count
  /-- Exempts a name, or ends its exemption. -/
  | setExempt (name : Name) (exempt : Bool)
  /-- Asks whether a name is in creation. -/
  | inCreation (name : Name)
  /-- Asks for the names in creation. -/
  | namesInCreation
  /-- Asks whether everything is being destroyed. -/
  | inDestruction
  /-- Records a dependency. -/
  | depend (dependee dependent : Name)
  /-- Records a containment. -/
  | contain (inner outer : Name)
  /-- Asks whether a component depends on another one. -/
  | isDependent (subject candidate : Name)
  /-- Asks for the dependents of a component. -/
  | dependents (name : Name)
  /-- Asks for the dependencies of a component. -/
  | dependencies (name : Name)
  /-- Asks for what a component contains. -/
  | contained (name : Name)
  /-- Sets up a disposal. -/
  | onDestroy (name : Name) (k : κ)
  /-- Asks whether a disposal is due. -/
  | hasDisposal (name : Name)
  /-- Asks how many disposals are due. -/
  | pending
  /-- Destroys a component. -/
  | destroy (name : Name)
  /-- Destroys everything. -/
  | destroyAll
  /-- Asks for the state of the registry. -/
  | state
  /-- Requests a component a number of times, with a factory that counts its calls. -/
  | contend (name : Name) (times : Nat) (outcome : Except Error Value)
  /-- Names an instance. -/
  | bind (v : Value)
  /-- Asks what a node holds. -/
  | inspect (v : Value)
  /-- Says something. -/
  | note (text : String)
  /-- Resolves a name. -/
  | get (name : Name) (t : Option ValueType)
  /-- Resolves a name, if this is possible. -/
  | getOptional (name : Name) (t : Option ValueType)
  /-- Resolves a name, and asks what the node holds. -/
  | inspectComponent (name : Name)
  /-- Asks whether a name is finished or defined. -/
  | isKnown (name : Name)
  /-- Asks for the names of the definitions. -/
  | definitionNames
  /-- Asks for the names of the interceptors. -/
  | interceptorNames
  /-- Files a definition. -/
  | define (d : Definition (Handler κ))
  /-- Creates what is not lazy. -/
  | preinstantiate
  /-- Asks for the settings. -/
  | settings
  /-- Asks for the outline of the container. -/
  | outline
  /-- Resolves a name for the component in creation. -/
  | request (name : Name) (t : Option ValueType)
  /-- Resolves a name for the component in creation, if this is possible. -/
  | requestOptional (name : Name) (t : Option ValueType)
  /-- Resolves a name for the component in creation, and wires the instance into it; this binds
  no variable. -/
  | wire (name : Name)
  /-- Asks for the name of the component in creation. -/
  | current
  /-- Asks for the outline of the creation. -/
  | currentOutline
  /-- Sets up the disposal of the component in creation. -/
  | onDestroyCurrent (k : κ)
  /-- Records that the component in creation contains another one. -/
  | containInCurrent (inner : Name)

/-- A step of a script.  A step that is tolerant of failure lets the script go on. -/
inductive Step where
  /-- Ends the script with an instance. -/
  | give (v : Value)
  /-- Ends the script with an error. -/
  | fail (e : Error)
  /-- Ends the script with a panic. -/
  | panic (p : Panic)
  /-- Runs a script with the lock of the registry held; `bare` says that it has no access to
  the instance and the creation of the script around it. -/
  | lock (verb : String) (tolerant bare : Bool) (body : List Step)
  /-- Acts, and binds the instance that comes out of a request or a value to a variable, if there
  is one. -/
  | act (verb : String) (tolerant : Bool) (target? : Option Name)
      (a : Action (List (List Step)))

/-- A script. -/
abbrev Script := List Step

/-- The scripts for the calls of a callback, the first call in front. -/
abbrev Attempts := List Script

/-- What a step does to a blueprint. -/
inductive Revision (ε : Type) where
  /-- Files a definition. -/
  | define (d : Definition (Handler Attempts))
  /-- Strikes a definition. -/
  | undefine (name : Name)
  /-- Strikes a definition and files it again. -/
  | redefine (name : Name)
  /-- Asks for a definition. -/
  | definition (name : Name)
  /-- Asks whether there is a definition. -/
  | contains (name : Name)
  /-- Asks for the names of the definitions. -/
  | names
  /-- Asks for the number of definitions. -/
  | size
  /-- Asks whether there are no definitions. -/
  | isEmpty
  /-- Asks for the number of the blueprint. -/
  | id
  /-- Files a registry extension. -/
  | addRegistryExtension (name : Name) (x : RegistryExtension ε)
  /-- Files a definition extension. -/
  | addDefinitionExtension (name : Name) (x : DefinitionExtension ε)
  /-- Files an interceptor. -/
  | addInterceptor (name : Name) (ic : Interceptor Attempts)
  /-- Asks for the names of the extensions and interceptors. -/
  | extensionNames
  /-- Asks for the outline of the blueprint. -/
  | outline

/-- A callback of an extension, with the label under which its steps are reported. -/
inductive ExtensionScript where
  /-- A label, revisions under their verbs, and what the script stops with at its end, if
  anything. -/
  | mk (label : String) (steps : List (String × Revision ExtensionScript))
      (stop? : Option Stop)

/-- The label of the callback of an interceptor at a stage. -/
def stageLabel (s : Stage) (n : Name) : String :=
  match s with
  | .beforeInit => "before:" ++ n
  | .afterInit => "after:" ++ n
  | .earlyReference => "early:" ++ n

end Componentry.Scenario
