import Componentry.Registry

/-!
# Values and cells

Scenarios try a container out with scripted callbacks.  Their instances are cells of a heap:
plain values of four types, nodes that collect references to others, and wrappers around an
instance.  A value of a script says which instance is meant, or how a new one is made.
-/

namespace Componentry.Scenario

/-- The types of plain values. -/
inductive ValueType where
  /-- Texts. -/
  | text
  /-- Natural numbers of sixty-four bits. -/
  | num
  /-- Truth values. -/
  | flag
  /-- The type of one value. -/
  | unit
deriving DecidableEq

/-- The name by which errors call a type. -/
def ValueType.title : ValueType → String
  | text => "alloc::string::String"
  | num => "u64"
  | flag => "bool"
  | unit => "()"

/-- What a script says about an instance. -/
inductive Value where
  /-- A new text. -/
  | text (s : String)
  /-- A new number. -/
  | num (n : Nat)
  /-- A new truth value. -/
  | flag (b : Bool)
  /-- A new object of the type of one value. -/
  | unit
  /-- A new node that holds no references. -/
  | node
  /-- A new wrapper with a tag. -/
  | wrap (tag : String) (inner : Value)
  /-- The instance that the running callback was given. -/
  | self
  /-- The instance that was bound to a variable. -/
  | var (x : Name)

/-- An object of the heap. -/
inductive Cell where
  /-- A text. -/
  | text (s : String)
  /-- A number. -/
  | num (n : Nat)
  /-- A truth value. -/
  | flag (b : Bool)
  /-- The one value of its type. -/
  | unit
  /-- A node, with the names that were asked for and the instances that came. -/
  | node (wired : List (Name × Ref))
  /-- A wrapper around an instance. -/
  | wrap (tag : String) (inner : Ref)
deriving Inhabited

/-- The type of a cell, if it is a plain value. -/
def Cell.type? : Cell → Option ValueType
  | text _ => some .text
  | num _ => some .num
  | flag _ => some .flag
  | unit => some .unit
  | node _ | wrap _ _ => none

/-- The outline of a plain value. -/
def Cell.outline : Cell → String
  | text s => Text.quote s
  | num n => toString n
  | flag b => Text.Outline.bool b
  | unit | node _ | wrap _ _ => "()"

/-- An instance as it is shown: its number, which it got when it was first shown, and what it
holds. -/
inductive Portrait where
  /-- A text. -/
  | text (id : Nat) (s : String)
  /-- A number. -/
  | num (id : Nat) (n : Nat)
  /-- A truth value. -/
  | flag (id : Nat) (b : Bool)
  /-- The one value of its type. -/
  | unit (id : Nat)
  /-- A node. -/
  | node (id : Nat)
  /-- A wrapper. -/
  | wrap (id : Nat) (tag : String) (inner : Portrait)

end Componentry.Scenario
