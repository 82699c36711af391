import Componentry.Error

/-!
# The creation guard

The guard knows which components are being created.  It refuses to begin the creation of a
component again before it has ended, unless the name is exempt, and it bounds the number of
creations that are nested.
-/

namespace Componentry

/-- The creations that have begun and not ended. -/
structure Guard where
  /-- The names in creation, the outermost in front; exempt names are not entered. -/
  inCreation : Roster
  /-- The names whose creation may begin again before it has ended. -/
  exempt : Roster
  /-- The number of creations that have begun and not ended. -/
  depth : Nat
  /-- The greatest number of creations that may be nested. -/
  limit : Nat
deriving DecidableEq

namespace Guard

/-- The guard of a registry in which nothing was created yet. -/
def fresh (limit : Nat) (exempt : Roster) : Guard := ⟨∅, exempt, 0, limit⟩

instance : Inhabited Guard := ⟨fresh 0 ∅⟩

/-- Exempts a name, or ends its exemption. -/
def setExempt (g : Guard) (n : Name) (exempt : Bool) : Guard :=
  { g with exempt := if exempt then g.exempt.insert n else g.exempt.erase n }

/-- Tells whether a name was entered as being in creation, exempt or not. -/
def isEntered (g : Guard) (n : Name) : Bool := g.inCreation.contains n

/-- Tells whether a name is in creation and not exempt. -/
def isCurrentlyInCreation (g : Guard) (n : Name) : Bool :=
  !g.exempt.contains n && g.isEntered n

/-- Begins the creation of a component, or refuses to. -/
def enter (g : Guard) (n : Name) : Except Error Guard :=
  if g.limit ≤ g.depth then .error (.depthExceeded g.depth)
  else if n ∈ g.exempt then .ok { g with depth := g.depth + 1 }
  else if n ∈ g.inCreation then .error (.currentlyInCreation n)
  else .ok { g with inCreation := g.inCreation.insert n, depth := g.depth + 1 }

/-- The error about the end of a creation that was not entered. -/
def notEntered (n : Name) : Error :=
  .internal ("component '" ++ n ++ "' isn't currently in creation")

/-- Ends the creation of a component.  The error, if there is one, says that the name was
not entered; the guard is the one after the end in either case. -/
def leave (g : Guard) (n : Name) : Guard × Option Error :=
  let g := { g with depth := g.depth - 1 }
  if n ∈ g.exempt then (g, none)
  else if n ∈ g.inCreation then ({ g with inCreation := g.inCreation.erase n }, none)
  else (g, some (notEntered n))

end Guard

end Componentry
