import Componentry.Roster
import Componentry.Text.Outline

/-!
# Errors

The causes for which an operation on components fails.  A failed creation may wrap the
failure of a collaborator in a layer of its own, `Error.creation`, which also carries the
failures that were set aside on the way; the innermost cause of an error is its root.
-/

namespace Componentry

/-- A cause of failure. -/
inductive Error where
  /-- Another instance is bound to the name. -/
  | alreadyBound (name : Name)
  /-- The component is requested while it is being created. -/
  | currentlyInCreation (name : Name)
  /-- The component is requested while everything is being destroyed. -/
  | creationNotAllowed (name : Name)
  /-- The extensions of a blueprint were run before. -/
  | duplicateInvocation (blueprint : Nat)
  /-- The book-keeping or a setting does not make sense. -/
  | internal (detail : String)
  /-- No definition is filed under the name. -/
  | notDefined (name : Name)
  /-- The creation of a component failed because of `source`; the failures in `related`
  were set aside meanwhile. -/
  | creation (name : Name) (source : Error) (related : List Error)
  /-- A callback of a component failed. -/
  | factory (name : Name) (message : String)
  /-- The declared dependencies of a component lead back to it. -/
  | circularDependsOn (name dependency : Name)
  /-- The instance that others hold is not the finished one. -/
  | earlyReferenceMismatch (name : Name)
  /-- An instance has another type than the expected one. -/
  | typeMismatch (name : Name) (expected : String)
  /-- Creations are nested too deeply. -/
  | depthExceeded (depth : Nat)
  /-- A callback of an extension failed. -/
  | extensionFailed (name : Name) (message : String)
deriving Inhabited

namespace Error

/-- The name of the kind of an error. -/
def kind : Error → String
  | alreadyBound _ => "AlreadyBound"
  | currentlyInCreation _ => "CurrentlyInCreation"
  | creationNotAllowed _ => "CreationNotAllowed"
  | duplicateInvocation _ => "DuplicateInvocation"
  | internal _ => "Internal"
  | notDefined _ => "NotDefined"
  | creation _ _ _ => "Creation"
  | factory _ _ => "Factory"
  | circularDependsOn _ _ => "CircularDependsOn"
  | earlyReferenceMismatch _ => "EarlyReferenceMismatch"
  | typeMismatch _ _ => "TypeMismatch"
  | depthExceeded _ => "DepthExceeded"
  | extensionFailed _ _ => "Extension"

/-- The component that an error is about. -/
def component? : Error → Option Name
  | alreadyBound n | currentlyInCreation n | creationNotAllowed n | notDefined n
  | creation n _ _ | factory n _ | circularDependsOn n _ | earlyReferenceMismatch n
  | typeMismatch n _ => some n
  | duplicateInvocation _ | internal _ | depthExceeded _ | extensionFailed _ _ => none

/-- The failures that were set aside, as far as the outermost layer carries them. -/
def related : Error → List Error
  | creation _ _ related => related
  | _ => []

/-- The failure inside the outermost layer. -/
def source? : Error → Option Error
  | creation _ source _ => some source
  | _ => none

/-- The innermost failure. -/
def root : Error → Error
  | creation _ source _ => source.root
  | e => e

/-- The failures inside the layers of an error, from the outside in. -/
def sources : Error → List Error
  | creation _ source _ => source :: source.sources
  | _ => []

/-- The layers of an error from the outside in: the component of each, and what it sets
aside. -/
def layers : Error → List (Name × List Error)
  | creation name source related => (name, related) :: source.layers
  | _ => []

/-- Tells whether the root of an error is a request for a component in creation. -/
def isCurrentlyInCreation (e : Error) : Bool :=
  match e.root with
  | currentlyInCreation _ => true
  | _ => false

/-- Adds failures that were set aside to the outermost layer of an error, or, if it has
none, to a new layer for `name`.  Nothing to add changes nothing. -/
def withRelated (e : Error) (name : Name) (causes : List Error) : Error :=
  match causes with
  | [] => e
  | causes =>
    match e with
    | creation n source related => creation n source (related ++ causes)
    | e => creation name e causes

/-- The sentence that tells of an error. -/
def message : Error → String
  | alreadyBound n =>
    "Could not register instance under '" ++ n ++ "': a different instance is already bound"
  | currentlyInCreation n =>
    "Component '" ++ n
      ++ "' is currently in creation: is there an unresolvable circular reference?"
  | creationNotAllowed n =>
    "Creation of component '" ++ n ++ "' not allowed while the registry is being destroyed "
      ++ "(do not request components from a disposal callback)"
  | duplicateInvocation id =>
    "Registry extensions already invoked against definition registry #" ++ toString id
  | internal detail => "Internal consistency violation: " ++ detail
  | notDefined n => "No component definition named '" ++ n ++ "'"
  | creation n source _ => "Error creating component '" ++ n ++ "': " ++ source.message
  | factory n detail => "Factory for component '" ++ n ++ "' failed: " ++ detail
  | circularDependsOn n dependency =>
    "Circular depends-on relationship between '" ++ n ++ "' and '" ++ dependency ++ "'"
  | earlyReferenceMismatch n =>
    "Component '" ++ n ++ "' was injected into other components as an early reference, "
      ++ "but the finished instance was replaced by an interceptor"
  | typeMismatch n expected => "Component '" ++ n ++ "' is not of type " ++ expected
  | depthExceeded depth => "Max creation depth " ++ toString depth ++ " exceeded"
  | extensionFailed n detail => "Extension '" ++ n ++ "' failed: " ++ detail

open Text

/-- The outline of an error. -/
def outline : Error → String
  | alreadyBound n => Outline.apply "AlreadyBound" [quote n]
  | currentlyInCreation n => Outline.apply "CurrentlyInCreation" [quote n]
  | creationNotAllowed n => Outline.apply "CreationNotAllowed" [quote n]
  | duplicateInvocation id => Outline.record "DuplicateInvocation" [("registry", toString id)]
  | internal detail => Outline.apply "Internal" [quote detail]
  | notDefined n => Outline.apply "NotDefined" [quote n]
  | creation n source related =>
    Outline.record "Creation"
      [("name", quote n), ("source", source.outline),
        ("related", Outline.list (related.map outline))]
  | factory n detail => Outline.record "Factory" [("name", quote n), ("message", quote detail)]
  | circularDependsOn n dependency =>
    Outline.record "CircularDependsOn" [("name", quote n), ("dependency", quote dependency)]
  | earlyReferenceMismatch n => Outline.apply "EarlyReferenceMismatch" [quote n]
  | typeMismatch n expected =>
    Outline.record "TypeMismatch" [("name", quote n), ("expected", quote expected)]
  | depthExceeded depth => Outline.apply "DepthExceeded" [toString depth]
  | extensionFailed n detail =>
    Outline.record "Extension" [("extension", quote n), ("message", quote detail)]

/-! ### Layers and roots -/

@[simp]
theorem root_creation (n : Name) (e : Error) (causes : List Error) :
  (creation n e causes).root = e.root
  := by
  simp [root]

@[simp]
theorem withRelated_nil (e : Error) (n : Name) :
  e.withRelated n [] = e
  := rfl

/-- Setting failures aside does not change the root. -/
@[simp]
theorem root_withRelated (e : Error) (n : Name) (causes : List Error) :
  (e.withRelated n causes).root = e.root
  := by
  unfold withRelated
  split
  · rfl
  · split <;> simp [root]

/-- Failures that are set aside stand behind those set aside before. -/
@[simp]
theorem related_withRelated (e : Error) (n : Name) (causes : List Error) :
  (e.withRelated n causes).related = e.related ++ causes
  := by
  unfold withRelated
  split
  · simp
  · cases e <;> simp [related]

end Error

end Componentry
