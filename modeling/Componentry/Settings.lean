import Componentry.Error
import Componentry.Json.Text
import Componentry.Json.Value

/-!
# Settings

The settings of a container, and their reading from a JSON document.  A document is an object
that may name each setting once, or an array that lists settings in their order; a setting
that it leaves out keeps its default.
-/

namespace Componentry

/-- The numbers that a setting may hold lie below two to the power of sixty-four. -/
def numberLimit : Nat := Nat.pow 2 64

/-- The settings of a container. -/
structure Settings where
  /-- Whether a component in creation may be handed out early. -/
  allowCircularReferences : Bool
  /-- How many creations may be nested. -/
  maxCreationDepth : Nat
  /-- The names that may be requested while they are being created. -/
  exemptNames : List Name
  /-- Whether every definition that is not lazy is created from the start. -/
  preinstantiate : Bool
deriving DecidableEq

namespace Settings

/-- The settings of a container for which nothing was asked. -/
def default : Settings := ⟨true, 1024, [], true⟩

instance : Inhabited Settings := ⟨default⟩

/-- A change of one setting. -/
inductive Change where
  /-- Whether a component in creation may be handed out early. -/
  | allowCircularReferences (allow : Bool)
  /-- How many creations may be nested. -/
  | maxCreationDepth (depth : Nat)
  /-- One more exempt name. -/
  | exempt (name : Name)
  /-- Whether every definition that is not lazy is created from the start. -/
  | preinstantiate (eager : Bool)

/-- The settings after a change. -/
def change (s : Settings) : Change → Settings
  | .allowCircularReferences allow => { s with allowCircularReferences := allow }
  | .maxCreationDepth depth => { s with maxCreationDepth := depth }
  | .exempt n => { s with exemptNames := s.exemptNames ++ [n] }
  | .preinstantiate eager => { s with preinstantiate := eager }

/-- The keys of the settings in a document, in their order. -/
def keys : List String :=
  ["allow_circular_references", "max_creation_depth", "exempt_names", "preinstantiate"]

/-- The outline of settings. -/
def outline (s : Settings) : String :=
  Text.Outline.record "ContainerConfig"
    [("allow_circular_references", Text.Outline.bool s.allowCircularReferences),
      ("max_creation_depth", toString s.maxCreationDepth),
      ("exempt_names", Text.Outline.texts s.exemptNames),
      ("preinstantiate", Text.Outline.bool s.preinstantiate)]

/-- The document of settings, all of them named in their order. -/
def document (s : Settings) : String :=
  Json.writeObject
    (keys.zip
      [Text.Outline.bool s.allowCircularReferences, toString s.maxCreationDepth,
        Json.writeArray (s.exemptNames.map Json.writeString),
        Text.Outline.bool s.preinstantiate])

/-! ### Reading a document -/

/-- The texts that an array of strings names. -/
def texts? : List Json.Value → Option (List String)
  | [] => some []
  | .string (some s) :: vs => (texts? vs).map (s :: ·)
  | _ => none

/-- Changes the setting under a key to a value of the right kind. -/
def set? (s : Settings) (key : String) (v : Json.Value) : Option Settings :=
  match key, v with
  | "allow_circular_references", .bool b => some { s with allowCircularReferences := b }
  | "max_creation_depth", .natural n =>
    if n < numberLimit then some { s with maxCreationDepth := n } else none
  | "exempt_names", .array vs => (texts? vs).map fun names => { s with exemptNames := names }
  | "preinstantiate", .bool b => some { s with preinstantiate := b }
  | _, _ => none

/-- Changes the settings that the members of an object name.  A member of another name is
passed over, and a setting is named once at most. -/
def setMembers? (s : Settings) (named : List String) :
    List (Option String × Json.Value) → Option Settings
  | [] => some s
  | (none, _) :: _ => none
  | (some key, v) :: members =>
    if key ∈ keys then
      if key ∈ named then none
      else (s.set? key v).bind fun s => s.setMembers? (key :: named) members
    else s.setMembers? named members

/-- Changes settings in their order to the items of an array that is not too long. -/
def setItems? (s : Settings) : List String → List Json.Value → Option Settings
  | _, [] => some s
  | [], _ :: _ => none
  | key :: keys, v :: vs => (s.set? key v).bind fun s => s.setItems? keys vs

/-- The settings that a value names. -/
def ofValue? : Json.Value → Option Settings
  | .object members => default.setMembers? [] members
  | .array items => default.setItems? keys items
  | _ => none

/-- The settings that a document names. -/
def ofDocument (text : String) : Except Error Settings :=
  match (Json.Value.parse? text).bind ofValue? with
  | some s => .ok s
  | none => .error (.internal "invalid container configuration: ")

end Settings

end Componentry
