import Componentry.Blueprint

/-!
# Interceptor chains

The interceptors of a container stand in a chain, in which every name occurs once.  What is
added goes to the tail, and leaves any earlier place.  `install` adds the interceptors of a
blueprint tier by tier, each tier in the order of its order values, and then moves the
internal ones to the tail.
-/

namespace Componentry

/-- The interceptors of a container in the order in which they come in. -/
structure Chain (κ : Type) where
  /-- The interceptors with their names. -/
  entries : List (Name × Interceptor κ)

namespace Chain

variable {κ ε : Type}

/-- The chain without interceptors. -/
def empty : Chain κ := ⟨[]⟩

instance : EmptyCollection (Chain κ) := ⟨empty⟩

instance : Inhabited (Chain κ) := ⟨empty⟩

/-- The names of the interceptors, in their order. -/
def names (c : Chain κ) : List Name := c.entries.map Prod.fst

/-- The number of interceptors. -/
def length (c : Chain κ) : Nat := c.entries.length

/-- Tells whether there are no interceptors. -/
def isEmpty (c : Chain κ) : Bool := c.entries.isEmpty

/-- Puts an interceptor at the tail, and takes one of its name out. -/
def add (c : Chain κ) (entry : Name × Interceptor κ) : Chain κ :=
  ⟨c.entries.filter (fun e => e.1 ≠ entry.1) ++ [entry]⟩

/-- Puts interceptors at the tail, one after the other. -/
def addAll (c : Chain κ) (entries : List (Name × Interceptor κ)) : Chain κ :=
  entries.foldl add c

/-- The interceptors of a tier, in the order of their order values. -/
def ofTier (t : Tier) (entries : List (Name × Interceptor κ)) : List (Name × Interceptor κ) :=
  Precedence.sortBy (fun e => e.2.precedence) (entries.filter fun e => e.2.precedence.tier = t)

/-- The internal interceptors, in the order of their order values. -/
def internals (entries : List (Name × Interceptor κ)) : List (Name × Interceptor κ) :=
  Precedence.sortBy (fun e => e.2.precedence) (entries.filter fun e => e.2.isInternal)

/-- Adds the interceptors of a blueprint: tier by tier, and then the internal ones again. -/
def install (c : Chain κ) (b : Blueprint κ ε) : Chain κ :=
  let entries := b.interceptors.entries
  c.addAll (ofTier .priority entries ++ ofTier .ordered entries ++ ofTier .unordered entries
    ++ internals entries)

/-- The outline of a chain, which shows names alone. -/
def outline (c : Chain κ) : String := Text.Outline.texts c.names

@[ext]
theorem ext_entries {c d : Chain κ} (h : c.entries = d.entries) :
  c = d
  := by
  cases c
  cases d
  simpa using h

theorem names_add (c : Chain κ) (entry : Name × Interceptor κ) :
  (c.add entry).names = c.names.filter (· ≠ entry.1) ++ [entry.1]
  := by
  simp only [names, add, List.map_append, List.map_cons, List.map_nil]
  rw [List.filter_map]
  rfl

end Chain

end Componentry
