import Componentry.Client

/-!
# Notices

What is announced while components are created and destroyed.  Notices go out at fixed
points of a creation and of a disposal; who hears them may panic, and does nothing else to
the registry.
-/

namespace Componentry

/-- Why a disposal failed. -/
inductive DisposalFailure where
  /-- It returned an error, with this text. -/
  | failed (text : String)
  /-- It panicked, with this text. -/
  | panicked (text : String)
deriving DecidableEq

/-- The text that tells why a disposal failed. -/
def DisposalFailure.reason : DisposalFailure → String
  | failed text | panicked text => text

/-- An announcement about a component. -/
inductive Notice where
  /-- Its creation begins. -/
  | creating (name : Name)
  /-- It is finished. -/
  | created (name : Name)
  /-- Its creation failed. -/
  | creationFailed (name : Name) (e : Error)
  /-- Its disposal has run. -/
  | destroyed (name : Name)
  /-- Its disposal has failed. -/
  | disposalFailed (name : Name) (cause : DisposalFailure)

namespace Notice

/-- The component that a notice is about. -/
def name : Notice → Name
  | creating n | created n | creationFailed n _ | destroyed n | disposalFailed n _ => n

/-- The name of the event that a notice announces. -/
def event : Notice → String
  | creating _ => "creating"
  | created _ => "created"
  | creationFailed _ _ => "creation_failed"
  | destroyed _ => "destroyed"
  | disposalFailed _ _ => "disposal_failed"

end Notice

/-- The behaviour behind the producers, the disposals and the notices of a registry. -/
structure Host (φ δ μ : Type) where
  /-- Makes an instance. -/
  make : φ → Client φ δ μ (Except Error Ref)
  /-- Disposes of a component; an error is told by its text. -/
  dispose : δ → Client φ δ μ (Except String Unit)
  /-- Hears a notice, and panics or does not. -/
  hear : Notice → μ → Option Panic × μ

end Componentry
