import Componentry.Registry

/-!
# Client programs

A client is a program that works on a registry: it asks for instances and creations, records
dependencies, sets disposals up, destroys components, and returns a value or panics.  It may
also have something done under protection, so that a panic goes no further.  The behaviour
of every callback is such a program too, so that a callback may do whatever a client may do.

Clients are trees: each node is a request, and its branches go on with the answer.  Besides
the registry they share a memory of some type `μ`.  Clients form a monad; a client whose
result may be an error is an `Attempt`.
-/

namespace Componentry

/-- A panic, with its payload if that is a text. -/
inductive Panic where
  /-- The payload is a text. -/
  | text (s : String)
  /-- The payload is something else. -/
  | other
deriving DecidableEq

namespace Panic

/-- The payload, if it is a text. -/
def text? : Panic → Option String
  | text s => some s
  | other => none

/-- The text that reports a panic. -/
def reason : Panic → String
  | text s => s
  | other => "non-string panic payload"

end Panic

/-- A request that is answered at once. -/
inductive Edit (φ δ : Type) where
  /-- Binds an instance to a name. -/
  | bind (name : Name) (i : Ref)
  /-- Offers a producer of early references. -/
  | publish (name : Name) (producer : φ)
  /-- Sets a failure aside. -/
  | suppress (e : Error)
  /-- Strikes a name from the three tiers. -/
  | remove (name : Name)
  /-- Exempts a name, or ends its exemption. -/
  | setExempt (name : Name) (exempt : Bool)
  /-- Records a dependency. -/
  | depend (dependee dependent : Name)
  /-- Records a containment. -/
  | contain (inner outer : Name)
  /-- Sets up the disposal of a component, in place of any other. -/
  | onDestroy (name : Name) (disposal : δ)

/-- The type of the answer to a request. -/
def Edit.Answer {φ δ : Type} : Edit φ δ → Type
  | bind _ _ => Except Error Unit
  | publish _ _ => Bool
  | _ => Unit

/-- The registry after a request, and the answer to it. -/
def Registry.edit {φ δ : Type} (r : Registry φ δ) : (e : Edit φ δ) → Registry φ δ × e.Answer
  | .bind n i =>
    match r.bind n i with
    | .ok r => (r, .ok ())
    | .error e => (r, .error e)
  | .publish n producer => r.publish n producer
  | .suppress e => (r.suppress e, ())
  | .remove n => (r.purge n, ())
  | .setExempt n exempt => ({ r with guard := r.guard.setExempt n exempt }, ())
  | .depend dependee dependent => ({ r with graph := r.graph.depend dependee dependent }, ())
  | .contain inner outer => ({ r with graph := r.graph.contain inner outer }, ())
  | .onDestroy n disposal => ({ r with disposals := r.disposals.insert n disposal }, ())

/-- A program that works on a registry and a memory. -/
inductive Client (φ δ μ α : Type) where
  /-- Returns a value. -/
  | done (a : α)
  /-- Panics. -/
  | panic (p : Panic)
  /-- Reads the registry and the memory. -/
  | view (next : Registry φ δ → μ → Client φ δ μ α)
  /-- Changes the memory. -/
  | revise (f : μ → μ) (next : Client φ δ μ α)
  /-- Makes a request that is answered at once. -/
  | edit (e : Edit φ δ) (next : e.Answer → Client φ δ μ α)
  /-- Looks a name up, with early references made if need be. -/
  | lookup (name : Name) (early : Bool) (next : Except Error (Option Ref) → Client φ δ μ α)
  /-- Creates a component, unless it is finished. -/
  | create (name : Name) (factory : φ) (next : Except Error Materialized → Client φ δ μ α)
  /-- Destroys a component with its dependents and what it contains. -/
  | destroy (name : Name) (next : Unit → Client φ δ μ α)
  /-- Destroys every component with a disposal, and clears the registry. -/
  | destroyAll (next : Unit → Client φ δ μ α)
  /-- Does at once what a disposal does, and stops a panic that comes out of it. -/
  | protect (body : δ) (next : Except Panic (Except String Unit) → Client φ δ μ α)

namespace Client

variable {φ δ μ α β : Type}

/-- Goes on with the value that a client returns. -/
def andThen (c : Client φ δ μ α) (k : α → Client φ δ μ β) : Client φ δ μ β :=
  match c with
  | done a => k a
  | panic p => panic p
  | view next => view fun r m => (next r m).andThen k
  | revise f next => revise f (next.andThen k)
  | edit e next => edit e fun a => (next a).andThen k
  | lookup n early next => lookup n early fun a => (next a).andThen k
  | create n factory next => create n factory fun a => (next a).andThen k
  | destroy n next => destroy n fun u => (next u).andThen k
  | destroyAll next => destroyAll fun u => (next u).andThen k
  | protect body next => protect body fun a => (next a).andThen k

instance : Monad (Client φ δ μ) where
  pure := done
  bind := andThen

@[simp]
theorem pure_eq (a : α) :
  (pure a : Client φ δ μ α) = done a
  := rfl

@[simp]
theorem bind_eq (c : Client φ δ μ α) (k : α → Client φ δ μ β) :
  c >>= k = c.andThen k
  := rfl

/-- Returning what was returned changes nothing. -/
theorem andThen_done (c : Client φ δ μ α) :
  c.andThen done = c
  := by
  induction c <;> simp_all [andThen]

/-- It does not matter how a sequence of clients is split. -/
theorem andThen_assoc {γ : Type} (c : Client φ δ μ α) (k : α → Client φ δ μ β)
    (l : β → Client φ δ μ γ) :
  (c.andThen k).andThen l = c.andThen fun a => (k a).andThen l
  := by
  induction c <;> simp_all [andThen]

instance : LawfulMonad (Client φ δ μ) :=
  LawfulMonad.mk' _ (fun c => andThen_done c) (fun _ _ => rfl) (fun c k l => andThen_assoc c k l)

end Client

/-- A client whose result may be an error. -/
abbrev Attempt (φ δ μ : Type) : Type → Type := ExceptT Error (Client φ δ μ)

namespace Attempt

variable {φ δ μ α : Type}

/-- A client that cannot fail. -/
def ofClient (c : Client φ δ μ α) : Attempt φ δ μ α :=
  ExceptT.mk (c.andThen fun a => .done (.ok a))

/-- What the registry shows. -/
def reads (f : Registry φ δ → α) : Attempt φ δ μ α :=
  ofClient (.view fun r _ => .done (f r))

/-- What the memory shows. -/
def recalls (f : μ → α) : Attempt φ δ μ α :=
  ofClient (.view fun _ m => .done (f m))

/-- Makes a request that is answered at once. -/
def edit (e : Edit φ δ) : Attempt φ δ μ e.Answer :=
  ofClient (.edit e .done)

/-- Looks a name up. -/
def lookup (n : Name) (early : Bool) : Attempt φ δ μ (Option Ref) :=
  ExceptT.mk (.lookup n early .done)

/-- Creates a component. -/
def create (n : Name) (factory : φ) : Attempt φ δ μ Materialized :=
  ExceptT.mk (.create n factory .done)

/-- Destroys a component. -/
def destroy (n : Name) : Attempt φ δ μ Unit :=
  ofClient (.destroy n .done)

/-- Destroys every component with a disposal. -/
def destroyAll : Attempt φ δ μ Unit :=
  ofClient (.destroyAll .done)

/-- Changes the error of an attempt. -/
def mapError (f : Error → Error) (c : Attempt φ δ μ α) : Attempt φ δ μ α :=
  tryCatch c fun e => throw (f e)

end Attempt

end Componentry
