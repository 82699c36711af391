import Componentry.Proofs.Conduct
import Componentry.Proofs.Tiers

/-!
# Programs that are confined to a creation

A confined program does what a callback can do in the context of a creation, and what a container
does on its behalf: it looks names up, creates components from their definitions, destroys
components, and makes records.  A secluded program works on the memory alone.

If the callbacks of a container are confined, and its hooks and disposals secluded, then everything
that runs or waits in the container is confined, at every moment of every run.  Programs make
requests only on top of creations then: while a hook or a disposal runs, nothing else goes on.
-/

namespace Componentry

open Machine

variable {κ σ α β : Type} {D : Catalog (Definition κ)} {n : Name}

/-! ### Confined programs -/

/-- A program that works on the memory alone, of which it leaves the definitions as they are. -/
inductive Client.Secluded : Job κ σ α → Prop
  | done (a : α) : Secluded (.done a)
  | panic (p : Panic) : Secluded (.panic p)
  | view {next : Registry (Recipe κ) (Teardown κ) → Site κ σ → Job κ σ α}
      (h : ∀ r s, Secluded (next r s)) : Secluded (.view next)
  | revise {f : Site κ σ → Site κ σ} {next : Job κ σ α}
      (keeps : ∀ s, (f s).definitions = s.definitions) (h : Secluded next) :
      Secluded (.revise f next)

/-- A request that makes a record. -/
def Edit.Records : Edit (Recipe κ) (Teardown κ) → Prop
  | suppress _ | depend _ _ | contain _ _ | onDestroy _ _ => True
  | bind _ _ | publish _ _ | remove _ | setExempt _ _ => False

/-- A program that is confined to the definitions `D`.  It may end as any program does, or as `last`
allows. -/
inductive Client.Confined (D : Catalog (Definition κ)) (last : Job κ σ α → Prop) :
    Job κ σ α → Prop
  | last {p : Job κ σ α} (h : last p) : Confined D last p
  | done (a : α) : Confined D last (.done a)
  | panic (p : Panic) : Confined D last (.panic p)
  | view {next : Registry (Recipe κ) (Teardown κ) → Site κ σ → Job κ σ α}
      (h : ∀ r s, s.definitions = D → Confined D last (next r s)) : Confined D last (.view next)
  | revise {f : Site κ σ → Site κ σ} {next : Job κ σ α}
      (keeps : ∀ s, (f s).definitions = s.definitions) (h : Confined D last next) :
      Confined D last (.revise f next)
  | edit {e : Edit (Recipe κ) (Teardown κ)} {next : e.Answer → Job κ σ α} (he : e.Records)
      (h : ∀ a, Confined D last (next a)) : Confined D last (.edit e next)
  | lookup (n : Name) (early : Bool) {next : Except Error (Option Ref) → Job κ σ α}
      (h : ∀ a, Confined D last (next a)) : Confined D last (.lookup n early next)
  | create {n : Name} {d : Definition κ} (defined : D.get? n = some d)
      {next : Except Error Materialized → Job κ σ α} (h : ∀ a, Confined D last (next a)) :
      Confined D last (.create n (.component n d) next)
  | destroy (n : Name) {next : Unit → Job κ σ α} (h : ∀ u, Confined D last (next u)) :
      Confined D last (.destroy n next)

/-- A confined program that offers no early references. -/
abbrev Client.Reserved (D : Catalog (Definition κ)) (p : Job κ σ α) : Prop :=
  p.Confined D fun _ => False

/-- A program that offers early references to a component, and is reserved after that. -/
def Client.Offers (D : Catalog (Definition κ)) (n : Name) (p : Job κ σ α) : Prop :=
  ∃ raw next, p = .edit (.publish n (.earlyReference n raw)) next ∧ ∀ a, (next a).Reserved D

namespace Client

variable {last : Job κ σ α → Prop} {last' : Job κ σ β → Prop}

/-- A program that goes on after another one is secluded if both are. -/
theorem Secluded.andThen {p : Job κ σ α} {k : α → Job κ σ β} (h : p.Secluded)
    (hk : ∀ a, (k a).Secluded) :
  (p.andThen k).Secluded
  := by
  induction h with
  | done a => apply hk
  | panic p => apply Secluded.panic
  | view _ ih => exact .view ih
  | revise keeps _ ih => exact .revise keeps ih

/-- A program that goes on after another one is confined if both are, and if what the first one may
do last is confined with what comes after it. -/
theorem Confined.andThen {p : Job κ σ α} {k : α → Job κ σ β} (h : p.Confined D last)
    (hlast : ∀ p, last p → (p.andThen k).Confined D last') (hk : ∀ a, (k a).Confined D last') :
  (p.andThen k).Confined D last'
  := by
  induction h with
  | last h => apply hlast _ h
  | done a => apply hk
  | panic p => apply Confined.panic
  | view _ ih => exact .view ih
  | revise keeps _ ih => exact .revise keeps ih
  | edit he _ ih => exact .edit he ih
  | lookup n early _ ih => exact .lookup n early ih
  | create defined _ ih => exact .create defined ih
  | destroy n _ ih => exact .destroy n ih

/-- A program that works on the memory alone is confined. -/
theorem Secluded.confined {p : Job κ σ α} (h : p.Secluded) :
  p.Confined D last
  := by
  induction h with
  | done a => apply Confined.done
  | panic p => apply Confined.panic
  | view _ ih => exact .view fun r s _ => ih r s
  | revise keeps _ ih => exact .revise keeps ih

/-- A reserved program is confined, whatever it may do last. -/
theorem Confined.of_reserved {p : Job κ σ α} (h : p.Reserved D) :
  p.Confined D last
  := by
  rw [← andThen_done p]
  apply h.andThen _ Confined.done
  rintro _ ⟨⟩

/-- A program that offers early references may go on with a reserved one. -/
theorem Offers.andThen {p : Job κ σ α} {k : α → Job κ σ β} (h : p.Offers D n)
    (hk : ∀ a, (k a).Reserved D) :
  (p.andThen k).Offers D n
  := by
  obtain ⟨raw, next, rfl, h⟩ := h
  use raw, fun a => (next a).andThen k, rfl
  intro a
  apply (h a).andThen _ hk
  rintro _ ⟨⟩

end Client

namespace Attempt

variable {last : Job κ σ (Except Error α) → Prop}

/-- A reserved attempt may come before whatever is confined. -/
theorem confined_bind {x : Trial κ σ β} {k : β → Trial κ σ α} (hx : Client.Reserved D x.run)
    (hk : ∀ b, (k b).run.Confined D last) :
  (x >>= k).run.Confined D last
  := by
  apply Client.Confined.andThen hx
  · rintro _ ⟨⟩
  · rintro (e | b)
    · apply Client.Confined.done
    · apply hk

/-- A reserved attempt is confined if what is done about its error is. -/
theorem confined_tryCatch {x : Trial κ σ α} {k : Error → Trial κ σ α}
    (hx : Client.Reserved D x.run) (hk : ∀ e, (k e).run.Confined D last) :
  (tryCatch x k : Trial κ σ α).run.Confined D last
  := by
  apply Client.Confined.andThen hx
  · rintro _ ⟨⟩
  · rintro (e | a)
    · apply hk
    · apply Client.Confined.done

/-- To apply a function to what a reserved attempt returns is reserved. -/
theorem reserved_map {x : Trial κ σ β} {f : β → α} (hx : Client.Reserved D x.run) :
  Client.Reserved D (f <$> x).run
  := by
  apply confined_bind hx
  intro b
  apply Client.Confined.done

/-- To change the error of a reserved attempt is reserved. -/
theorem reserved_mapError {x : Trial κ σ α} {f : Error → Error} (hx : Client.Reserved D x.run) :
  Client.Reserved D (mapError f x).run
  := by
  apply confined_tryCatch hx
  intro e
  apply Client.Confined.done

theorem reserved_reads (f : Registry (Recipe κ) (Teardown κ) → α) :
  Client.Reserved D (reads f : Trial κ σ α).run
  := .view fun _ _ _ => .done _

/-- A request that makes a record is reserved. -/
theorem reserved_edit (e : Edit (Recipe κ) (Teardown κ)) (he : e.Records) :
  Client.Reserved D (edit e : Trial κ σ e.Answer).run
  := .edit he fun _ => .done _

/-- What is made of the definitions is confined to them. -/
theorem confined_recalls {f : Site κ σ → β} {k : β → Trial κ σ α}
    (hk : ∀ s, s.definitions = D → (k (f s)).run.Confined D last) :
  (recalls f >>= k).run.Confined D last
  := .view fun _ s hs => hk s hs

/-- Attempts that are secluded one by one are secluded one after the other. -/
theorem secluded_bind {x : Trial κ σ β} {k : β → Trial κ σ α} (hx : Client.Secluded x.run)
    (hk : ∀ b, (k b).run.Secluded) :
  (x >>= k).run.Secluded
  := by
  apply Client.Secluded.andThen hx
  rintro (e | b)
  · apply Client.Secluded.done
  · apply hk

end Attempt

/-! ### The programs of a container -/

namespace Container

open Attempt

variable (c : Container κ)

/-- To resolve a name for no one in particular is reserved. -/
theorem reserved_resolveAlone (n : Name) :
  Client.Reserved D (c.resolveAlone n : Trial κ σ Ref).run
  := by
  apply confined_bind (Client.Confined.lookup n _ .done)
  rintro (_ | i)
  · apply confined_recalls
    rintro s rfl
    cases defined : s.definitions.get? n with
    | none => apply Client.Confined.done
    | some d =>
      apply reserved_map
      exact .create defined .done
  · apply Client.Confined.done

/-- A component may ask for another one. -/
theorem reserved_resolve (n : Name) (requester : Option Name) :
  Client.Reserved D (c.resolve n requester : Trial κ σ Ref).run
  := by
  apply confined_bind (c.reserved_resolveAlone n)
  intro i
  cases requester with
  | none => apply Client.Confined.done
  | some dependent =>
    apply confined_bind (reserved_edit (.depend n dependent) trivial)
    intro _
    apply Client.Confined.done

/-- A request through the context is reserved. -/
theorem reserved_request (current n : Name) :
  Client.Reserved D (c.request current n : Trial κ σ Ref).run
  := reserved_mapError (c.reserved_resolve n (some current))

/-- A component may ask for another one that it can do without. -/
theorem reserved_resolveOptional (n : Name) (requester : Option Name) :
  Client.Reserved D (c.resolveOptional n requester : Trial κ σ (Option Ref)).run
  := by
  have known : Client.Reserved D (isKnown n : Trial κ σ Bool).run := by
    apply confined_bind (reserved_reads _)
    intro finished
    apply confined_recalls
    intro s _
    apply Client.Confined.done
  apply confined_bind known
  rintro (_ | _)
  · apply Client.Confined.done
  · apply confined_tryCatch (reserved_map (c.reserved_resolve n requester))
    intro e
    apply confined_bind (reserved_edit (.suppress e) trivial)
    intro _
    apply Client.Confined.done

/-- To create declared dependencies is reserved. -/
theorem reserved_createDependencies (n : Name) (dependencies : List Name) :
  Client.Reserved D (c.createDependencies n dependencies : Trial κ σ Unit).run
  := by
  induction dependencies with
  | nil => apply Client.Confined.done
  | cons dependency rest ih =>
    have create : Client.Reserved D (do
        Attempt.edit (.depend dependency n)
        discard (Attempt.mapError (fun e => .creation n e []) (c.resolveAlone dependency))
        c.createDependencies n rest : Trial κ σ Unit).run := by
      apply confined_bind (reserved_edit (.depend dependency n) trivial)
      intro _
      apply confined_bind (reserved_map (reserved_mapError (c.reserved_resolveAlone dependency)))
      intro _
      exact ih
    apply confined_bind (reserved_reads _)
    intro dependent
    cases dependent with
    | true => apply Client.Confined.done
    | false => exact create

/-- To settle which instance others get to see is reserved. -/
theorem reserved_settle (n : Name) (raw exposed : Ref) :
  Client.Reserved D (settle n raw exposed : Trial κ σ Ref).run
  := by
  apply confined_bind (Client.Confined.lookup n false .done)
  rintro (_ | early)
  · apply Client.Confined.done
  · dsimp only
    split
    · apply Client.Confined.done
    · split
      · apply Client.Confined.done
      · apply Client.Confined.done

end Container

/-- The callbacks of a container are confined to creations, and its hooks and its disposals work on
the memory alone. -/
structure Behaviour.Confined (b : Behaviour κ σ) (D : Catalog (Definition κ)) : Prop where
  instantiate : ∀ k n, Client.Reserved D (b.instantiate k n).run
  wire : ∀ k n i, Client.Reserved D (b.wire k n i).run
  transform : ∀ k n i, (b.transform k n i).run.Secluded
  dispose : ∀ k n target, (b.dispose k n target).Secluded

namespace Behaviour.Confined

open Attempt

variable {b : Behaviour κ σ} (h : b.Confined D) (c : Container κ)

include h

/-- The interceptors are secluded if their callbacks are. -/
theorem intercept (s : Stage) (n : Name) (i : Ref) :
  (c.intercept b s n i).run.Secluded
  := by
  rw [Container.intercept]
  generalize c.chain.entries = entries
  induction entries generalizing i with
  | nil => apply Client.Secluded.done
  | cons entry rest ih =>
    obtain ⟨name, ic⟩ := entry
    rw [Container.passBy]
    cases ic.callback? s n with
    | none => apply ih
    | some k =>
      apply secluded_bind (h.transform k n i)
      intro j
      apply ih

/-- The callback that wires an instance is reserved. -/
theorem wireWith (k? : Option κ) (n : Name) (i : Ref) :
  Client.Reserved D (Container.wireWith b k? n i).run
  := by
  cases k? with
  | none => apply Client.Confined.done
  | some k => apply h.wire

/-- Every disposal of the container is secluded, be it a hook or a callback. -/
theorem dispose_host (t : Teardown κ) :
  ((c.host b).dispose t).Secluded
  := by
  cases t with
  | hook n k target => apply h.dispose k n (some target)
  | callback n k => apply h.dispose k n none

end Behaviour.Confined

/-! ### Constructions -/

namespace Container

variable (c : Container κ) (b : Behaviour κ σ)

/-- What a construction does once its instance is made: it makes the instance ready, settles which
instance others get to see, and sets the disposal of this one up. -/
def complete (n : Name) (d : Definition κ) (raw : Ref) (offered : Bool) : Trial κ σ Ref := do
  wireWith b d.populate n raw
  let exposed ← c.intercept b .beforeInit n raw
  wireWith b d.init n exposed
  let exposed ← c.intercept b .afterInit n exposed
  let exposed ← if offered then settle n raw exposed else pure exposed
  if let some k := d.dispose then
    Attempt.edit (.onDestroy n (.hook n k exposed))
  return exposed

/-- A construction has three parts: the one in which its instance is made, the one in which this is
offered for early references, and the rest. -/
theorem construct_eq (n : Name) (d : Definition κ) :
  c.construct b n d = (do
    c.createDependencies n d.dependsOn
    let raw ← b.instantiate d.instantiate n
    let offered ←
      if c.settings.allowCircularReferences then
        Attempt.reads fun r => r.guard.isCurrentlyInCreation n
      else pure false
    if offered then
      discard (Attempt.edit (.publish n (.earlyReference n raw)))
    c.complete b n d raw offered)
  := rfl

end Container

namespace Behaviour.Confined

open Attempt

variable {b : Behaviour κ σ} (h : b.Confined D) (c : Container κ)

include h

/-- What a construction does once its instance is made is reserved. -/
theorem complete (n : Name) (d : Definition κ) (raw : Ref) (offered : Bool) :
  Client.Reserved D (c.complete b n d raw offered).run
  := by
  have finish : ∀ exposed, Client.Reserved D (do
      if let some k := d.dispose then
        Attempt.edit (.onDestroy n (.hook n k exposed))
      return exposed : Trial κ σ Ref).run := by
    intro exposed
    cases d.dispose with
    | none => apply Client.Confined.done
    | some k =>
      apply confined_bind (reserved_edit (.onDestroy n (.hook n k exposed)) trivial)
      intro _
      apply Client.Confined.done
  apply confined_bind (h.wireWith d.populate n raw)
  intro _
  apply confined_bind (h.intercept c .beforeInit n raw).confined
  intro i
  apply confined_bind (h.wireWith d.init n i)
  intro _
  apply confined_bind (h.intercept c .afterInit n i).confined
  intro i
  cases offered with
  | true =>
    apply confined_bind (Container.reserved_settle n raw i)
    exact finish
  | false => exact finish i

/-- A construction offers early references to its own component, and does so once. -/
theorem construct (n : Name) (d : Definition κ) :
  (c.construct b n d).run.Confined D (Client.Offers D n)
  := by
  rw [Container.construct_eq]
  apply confined_bind (c.reserved_createDependencies n d.dependsOn)
  intro _
  apply confined_bind (h.instantiate d.instantiate n)
  intro raw
  have go : ∀ offered, (do
      if offered then
        discard (Attempt.edit (.publish n (.earlyReference n raw)))
      c.complete b n d raw offered : Trial κ σ Ref).run.Confined D (Client.Offers D n) := by
    intro offered
    cases offered with
    | true =>
      apply Client.Confined.last
      use raw, fun _ => (c.complete b n d raw true).run, rfl
      intro _
      apply h.complete
    | false => exact (h.complete c n d raw false).of_reserved
  cases c.settings.allowCircularReferences with
  | true =>
    apply confined_bind (reserved_reads _)
    exact go
  | false => exact go false

/-- A construction is confined: it may offer early references to its component, and is reserved
after that. -/
theorem constructOrDestroy (n : Name) (d : Definition κ) :
  (c.constructOrDestroy b n d).run.Confined D (Client.Offers D n)
  := by
  have destroy : ∀ e, Client.Reserved D (do
      Attempt.destroy n
      throw e : Trial κ σ Ref).run := by
    intro e
    apply confined_bind (Client.Confined.destroy n fun _ => .done _)
    intro _
    apply Client.Confined.done
  apply (h.construct c n d).andThen
  · intro p hp
    apply Client.Confined.last
    apply hp.andThen
    rintro (e | i)
    · apply destroy
    · apply Client.Confined.done
  · rintro (e | i)
    · exact (destroy e).of_reserved
    · apply Client.Confined.done

end Behaviour.Confined

/-! ### Crews -/

section Crew

open Attempt

variable (c : Container κ)

theorem reserved_note (f : Ledger σ → Ledger σ) :
  Client.Reserved D (Ledger.note f : Trial κ (Ledger σ) Unit).run
  := .revise (fun _ => rfl) (.done _)

/-- An errand keeps to the context of a creation. -/
theorem Errand.reserved_run (e : Errand κ σ α) (n : Name) :
  Client.Reserved D (e.run c n).run
  := by
  induction e with
  | done outcome => apply Client.Confined.done
  | consult next ih =>
    apply confined_recalls
    intro s _
    apply ih
  | revise f next ih =>
    apply confined_bind (reserved_note _)
    intro _
    apply ih
  | get d next ih =>
    have observed : Client.Reserved D (observing (c.request n d) :
        Trial κ (Ledger σ) (Except Error Ref)).run := by
      apply confined_tryCatch (reserved_map (c.reserved_request n d))
      intro e
      apply Client.Confined.done
    apply confined_bind observed
    intro answer
    apply confined_bind (reserved_note _)
    intro _
    apply ih
  | getOptional d next ih =>
    apply confined_bind (c.reserved_resolveOptional d (some n))
    intro answer
    apply confined_bind (reserved_note _)
    intro _
    apply ih
  | onDestroy k next ih =>
    apply confined_bind (reserved_edit (.onDestroy n (.callback n k)) trivial)
    intro _
    apply ih

/-- The callbacks of a crew are confined, whatever the definitions are. -/
theorem Crew.confined_behaviour (crew : Crew κ σ) (D : Catalog (Definition κ)) :
  (crew.behaviour c).Confined D
  where
  instantiate k n := by
    apply confined_bind (reserved_note _)
    intro _
    apply Errand.reserved_run
  wire k n i := Errand.reserved_run c _ n
  transform k n i := by
    apply Client.Secluded.view
    intro _ s
    exact .revise (fun _ => rfl) (.done _)
  dispose k n target := by
    apply Client.Secluded.view
    intro _ s
    refine .revise (fun _ => rfl) ?_
    cases (crew.dispose k n target s.scratch.own).1 with
    | ok a => apply Client.Secluded.done
    | error p => apply Client.Secluded.panic

end Crew

/-! ### The stack and the machine -/

namespace Stack

variable {φ δ μ : Type} {ρ : Role}

/-- The program on top may make requests: it is the one that was asked for, or serves a creation. -/
def IsOpen : {ρ : Role} → Stack φ δ μ α ρ → Prop
  | _, base | _, creating _ _ _ _ => True
  | _, producing _ _ _ _ | _, disposing _ _ _ _ | _, protecting _ _ => False

/-- The program offers early references to the component in whose creation it runs.  The one that
was asked for may offer them to `own`. -/
def Offering (D : Catalog (Definition κ)) (own : Option Name) :
    {ρ : Role} → Stack (Recipe κ) (Teardown κ) (Site κ σ) α ρ → Job κ σ (ρ.Result α) → Prop
  | _, base => fun p => ∃ n, own = some n ∧ p.Offers D n
  | _, creating n _ _ _ => fun p => p.Offers D n
  | _, producing _ _ _ _ | _, disposing _ _ _ _ | _, protecting _ _ => fun _ => False

/-- The component to which the program on top offers early references, if it offers any. -/
def owner (own : Option Name) : {ρ : Role} → Stack φ δ μ α ρ → Option Name
  | _, base => own
  | _, creating n _ _ _ => some n
  | _, producing _ _ _ _ | _, disposing _ _ _ _ | _, protecting _ _ => none

/-- A program that offers early references does so to the component in whose creation it runs. -/
theorem of_offering {own : Option Name}
    {stack : Stack (Recipe κ) (Teardown κ) (Site κ σ) α ρ} {p : Job κ σ (ρ.Result α)}
    (h : stack.Offering D own p) :
  ∃ n, stack.owner own = some n ∧ p.Offers D n
  := by
  cases stack with
  | base => exact h
  | creating n => exact ⟨n, rfl, h⟩
  | producing | disposing | protecting => cases h

variable (D : Catalog (Definition κ)) (own : Option Name)

/-- The program may run on top of the stack. -/
structure Suits (stack : Stack (Recipe κ) (Teardown κ) (Site κ σ) α ρ) (p : Job κ σ (ρ.Result α)) :
    Prop where
  confined : stack.IsOpen → p.Confined D (stack.Offering D own)
  secluded : ¬ stack.IsOpen → p.Secluded

/-- The program that waits on top of the stack may make requests, whatever it waits for. -/
structure Awaits (stack : Stack (Recipe κ) (Teardown κ) (Site κ σ) α ρ)
    (resume : β → Job κ σ (ρ.Result α)) : Prop where
  isOpen : stack.IsOpen
  confined : ∀ b, (resume b).Confined D (stack.Offering D own)

/-- Every program on the stack may run when it is its turn. -/
def Confined : {ρ : Role} → Stack (Recipe κ) (Teardown κ) (Site κ σ) α ρ → Prop
  | _, base => True
  | _, creating _ _ resume below => below.Awaits D own resume ∧ below.Confined
  | _, producing n producer resume below =>
    (∃ raw, producer = .earlyReference n raw) ∧ below.Awaits D own resume ∧ below.Confined
  | _, disposing _ tasks resume below =>
    .clear ∉ tasks ∧ below.Awaits D own resume ∧ below.Confined
  | _, protecting _ _ => False

variable {D own} {stack : Stack (Recipe κ) (Teardown κ) (Site κ σ) α ρ}

/-- A program that waits for a result may run when it gets one. -/
theorem Awaits.suits {resume : β → Job κ σ (ρ.Result α)} (h : stack.Awaits D own resume) (b : β) :
  stack.Suits D own (resume b)
  := ⟨fun _ => h.confined b, fun closed => absurd h.isOpen closed⟩

end Stack

/-- The definitions are known, and every producer makes early references to its component. -/
structure World.Confined (D : Catalog (Definition κ))
    (w : World (Recipe κ) (Teardown κ) (Site κ σ)) : Prop where
  definitions : w.memory.definitions = D
  producers : ∀ n p, w.registry.producers.get? n = some p → ∃ raw, p = .earlyReference n raw

/-- A container in which nothing has happened. -/
theorem World.confined_fresh (settings : Settings) (memory : Site κ σ) :
  World.Confined memory.definitions ⟨Registry.fresh settings, memory⟩
  := ⟨rfl, nofun⟩

namespace World.Confined

variable {w w' : World (Recipe κ) (Teardown κ) (Site κ σ)}

/-- A world is confined if it has the definitions of a confined one, and no other producers. -/
theorem of_subset (h : w.Confined D) (hm : w'.memory.definitions = w.memory.definitions)
    (hp : ∀ n p, w'.registry.producers.get? n = some p → w.registry.producers.get? n = some p) :
  w'.Confined D
  where
  definitions := hm.trans h.definitions
  producers n p hn := h.producers n p (hp n p hn)

/-- A world stays confined when the producer of an early reference to a component is put into it. -/
theorem insert (h : w.Confined D) (raw : Ref) (hm : w'.memory = w.memory)
    (hp : w'.registry.producers = w.registry.producers.insert n (.earlyReference n raw)) :
  w'.Confined D
  where
  definitions := by
    rw [hm]
    exact h.definitions
  producers m q hq := by
    rw [hp] at hq
    obtain ⟨rfl, rfl⟩ | hq := Catalog.of_get?_insert hq
    · use raw
    · apply h.producers m q hq

/-- A request that makes a record leaves the world confined. -/
theorem records (h : w.Confined D) {e : Edit (Recipe κ) (Teardown κ)} (he : e.Records) :
  World.Confined D { w with registry := (w.registry.edit e).1 }
  := by
  cases e with
  | bind | publish | remove | setExempt => cases he
  | suppress | depend | contain | onDestroy => exact h.of_subset rfl fun _ _ => id

/-- To offer early references leaves the world confined. -/
theorem publish (h : w.Confined D) (n : Name) (raw : Ref) :
  World.Confined D { w with registry := (w.registry.edit (.publish n (.earlyReference n raw))).1 }
  := by
  simp only [Registry.edit, Registry.publish]
  split
  · exact h
  · exact h.insert raw rfl rfl

/-- To restore the producer of an early reference leaves the world confined. -/
theorem restore (h : w.Confined D) (n : Name) (raw : Ref) :
  World.Confined D (w.onRegistry (·.restore n (.earlyReference n raw)))
  := by
  unfold Registry.restore World.onRegistry
  dsimp only
  split
  · exact h.insert raw rfl rfl
  · exact h

end World.Confined

namespace Machine

variable {own : Option Name} {ρ : Role} {stack : Stack (Recipe κ) (Teardown κ) (Site κ σ) α ρ}
  {w : World (Recipe κ) (Teardown κ) (Site κ σ)}

/-- The programs of a machine may run when it is their turn. -/
def Contained (D : Catalog (Definition κ)) (own : Option Name) :
    Machine (Recipe κ) (Teardown κ) (Site κ σ) α → Prop
  | running p stack _ => stack.Suits D own p ∧ stack.Confined D own
  | tearing tasks resume stack _ => .clear ∉ tasks ∧ stack.Awaits D own resume ∧ stack.Confined D own
  | unwinding _ stack _ => stack.Confined D own
  | halted _ _ => True

/-- Everything that runs or waits is confined. -/
structure Confined (D : Catalog (Definition κ)) (own : Option Name)
    (m : Machine (Recipe κ) (Teardown κ) (Site κ σ) α) : Prop where
  contained : m.Contained D own
  world : m.world.Confined D

/-- A machine is confined if the program that runs, those that wait and the world are. -/
theorem Confined.running {p : Job κ σ (ρ.Result α)} (hp : stack.Suits D own p)
    (h : stack.Confined D own) (hw : w.Confined D) :
  (running p stack w).Confined D own
  := ⟨⟨hp, h⟩, hw⟩

variable {b : Behaviour κ σ} {c : Container κ}

/-- Whoever hears a notice leaves the definitions alone. -/
theorem confined_announcing {notice : Notice}
    {next : World (Recipe κ) (Teardown κ) (Site κ σ) →
      Machine (Recipe κ) (Teardown κ) (Site κ σ) α} (h : stack.Confined D own)
    (hw : w.Confined D)
    (goes : ∀ m, World.Confined D { w with memory := m } →
      (next { w with memory := m }).Confined D own) :
  (announcing (c.host b) notice stack w next).Confined D own
  := by
  have heard : World.Confined D { w with memory := ((c.host b).hear notice w.memory).2 } :=
    hw.of_subset rfl fun _ _ => id
  apply announcing_of (P := fun m => m.Confined D own)
  · intro _
    apply goes _ heard
  · intro p _
    exact ⟨h, heard⟩

/-- The end of a creation leaves the machine confined. -/
theorem confined_finishCreation {n : Name} {collects : Bool} {outcome : Except Error Ref}
    {resume : Except Error Materialized → Job κ σ (ρ.Result α)} (ha : stack.Awaits D own resume)
    (h : stack.Confined D own) (hw : w.Confined D) :
  (finishCreation (c.host b) n collects outcome resume stack w).Confined D own
  := by
  simp only [finishCreation]
  split
  · exact .running (ha.suits _) h (hw.of_subset rfl fun _ _ => id)
  · split
    · exact .running (ha.suits _) h (hw.of_subset rfl fun _ _ => id)
    · apply confined_announcing h
      · exact hw.of_subset rfl fun _ _ => Catalog.of_get?_erase
      · intro m
        exact .running (ha.suits _) h
    · apply confined_announcing h
      · exact hw.of_subset rfl fun _ _ => Catalog.of_get?_erase
      · intro m
        exact .running (ha.suits _) h

/-- The end of a lookup leaves the machine confined. -/
theorem confined_finishLookup {n : Name} {raw : Ref} {outcome : Except Error Ref}
    {resume : Except Error (Option Ref) → Job κ σ (ρ.Result α)} (ha : stack.Awaits D own resume)
    (h : stack.Confined D own) (hw : w.Confined D) :
  (finishLookup n (.earlyReference n raw) outcome resume stack w).Confined D own
  := by
  cases outcome with
  | ok i => exact .running (ha.suits _) h (hw.of_subset rfl fun _ _ => id)
  | error e => exact .running (ha.suits _) h (hw.restore n raw)

/-- The end of a disposal leaves the machine confined. -/
theorem confined_finishDisposal {notice : Notice} {tasks : List (Task (Teardown κ))}
    {resume : Unit → Job κ σ (ρ.Result α)} (ht : .clear ∉ tasks) (ha : stack.Awaits D own resume)
    (h : stack.Confined D own) (hw : w.Confined D) :
  (finishDisposal (c.host b) notice tasks resume stack w).Confined D own
  := by
  apply confined_announcing h hw
  intro m hw
  exact ⟨⟨ht, ha, h⟩, hw⟩

/-- A program that returns leaves the machine confined. -/
theorem confined_finish {a : ρ.Result α} (h : stack.Confined D own) (hw : w.Confined D) :
  (finish (c.host b) a stack w).Confined D own
  := by
  cases stack with
  | base => exact ⟨trivial, hw⟩
  | creating n collects resume below => exact confined_finishCreation h.1 h.2 hw
  | producing n producer resume below =>
    obtain ⟨⟨raw, rfl⟩, ha, h⟩ := h
    exact confined_finishLookup ha h hw
  | disposing n tasks resume below =>
    rcases a with text | u
    · exact confined_finishDisposal h.1 h.2.1 h.2.2 hw
    · exact confined_finishDisposal h.1 h.2.1 h.2.2 hw
  | protecting resume below => cases h

/-- A panic that unwinds a frame leaves the machine confined. -/
theorem confined_unwind {p : Panic} (h : stack.Confined D own) (hw : w.Confined D) :
  (unwind (c.host b) p stack w).Confined D own
  := by
  cases stack with
  | base => exact ⟨trivial, hw⟩
  | creating n collects resume below =>
    exact ⟨h.2, hw.of_subset rfl fun _ _ => Catalog.of_get?_erase⟩
  | producing n producer resume below => exact ⟨h.2.2, hw⟩
  | disposing n tasks resume below => exact confined_finishDisposal h.1 h.2.1 h.2.2 hw
  | protecting resume below => cases h

/-- To meet a request for a creation leaves the machine confined. -/
theorem confined_startCreation (hb : b.Confined D) {n : Name} {d : Definition κ}
    {resume : Except Error Materialized → Job κ σ (ρ.Result α)} (ha : stack.Awaits D own resume)
    (h : stack.Confined D own) (hw : w.Confined D) :
  (startCreation (c.host b) n (.component n d) resume stack w).Confined D own
  := by
  unfold startCreation
  split
  · exact .running (ha.suits _) h hw
  · exact .running (ha.suits _) h hw
  · rename_i admitted
    obtain ⟨-, -, guard, suppressed, -, -, -, rfl⟩ := Registry.of_admitted admitted
    have hw : World.Confined D { w with
        registry := { w.registry with guard := guard, suppressed := suppressed } } :=
      hw.of_subset rfl fun _ _ => id
    apply confined_announcing h hw
    intro m hw
    refine .running ⟨fun _ => ?_, fun closed => absurd trivial closed⟩ ⟨ha, h⟩ hw
    apply hb.constructOrDestroy

/-- To look a name up leaves the machine confined. -/
theorem confined_startLookup (hb : b.Confined D) {n : Name} {early : Bool}
    {resume : Except Error (Option Ref) → Job κ σ (ρ.Result α)} (ha : stack.Awaits D own resume)
    (h : stack.Confined D own) (hw : w.Confined D) :
  (startLookup (c.host b) n early resume stack w).Confined D own
  := by
  unfold startLookup
  split
  · exact .running (ha.suits _) h hw
  · rename_i producer r pending
    obtain ⟨-, hp, rfl⟩ := Registry.of_sight_pending pending
    obtain ⟨raw, rfl⟩ := hw.producers n producer hp
    refine .running ⟨nofun, fun _ => ?_⟩ ⟨⟨raw, rfl⟩, ha, h⟩
      (hw.of_subset rfl fun _ _ => Catalog.of_get?_erase)
    apply hb.intercept

theorem clear_notMem_destroys {names : List Name} {tasks : List (Task (Teardown κ))}
    (h : .clear ∉ tasks) :
  .clear ∉ names.map .destroy ++ tasks
  := by
  simpa using h

/-- The destruction of a component does not clear the registry. -/
theorem clear_notMem_destructionTasks {n : Name} {dependents : List Name}
    {disposal? : Option (Teardown κ)} {tasks : List (Task (Teardown κ))} (h : .clear ∉ tasks) :
  .clear ∉ destructionTasks n dependents disposal? ++ tasks
  := by
  simpa [destructionTasks] using h

/-- To work off a task leaves the machine confined, if the task is none that clears the registry. -/
theorem confined_tear (hb : b.Confined D) {task : Task (Teardown κ)}
    {tasks : List (Task (Teardown κ))} {resume : Unit → Job κ σ (ρ.Result α)}
    (ht : .clear ∉ task :: tasks) (ha : stack.Awaits D own resume) (h : stack.Confined D own)
    (hw : w.Confined D) :
  (tear (c.host b) task tasks resume stack w).Confined D own
  := by
  obtain ⟨ne, rest⟩ := not_or.mp (List.mem_cons.not.mp ht)
  cases task with
  | destroy n =>
    exact ⟨⟨clear_notMem_destructionTasks rest, ha, h⟩,
      hw.of_subset rfl fun _ _ => Catalog.of_get?_erase⟩
  | dispose n disposal =>
    refine .running ⟨nofun, fun _ => ?_⟩ ⟨rest, ha, h⟩ hw
    apply hb.dispose_host
  | contents n =>
    exact ⟨⟨clear_notMem_destroys rest, ha, h⟩, hw.of_subset rfl fun _ _ => id⟩
  | forget n => exact ⟨⟨rest, ha, h⟩, hw.of_subset rfl fun _ _ => id⟩
  | clear => exact absurd rfl ne

/-- A hook or a disposal works on the memory alone with every step. -/
theorem confined_step_secluded {p : Job κ σ (ρ.Result α)} (closed : ¬ stack.IsOpen)
    (hp : p.Secluded) (h : stack.Confined D own) (hw : w.Confined D) :
  (step (c.host b) (running p stack w)).Confined D own
  := by
  have suits : ∀ {p : Job κ σ (ρ.Result α)}, p.Secluded → stack.Suits D own p :=
    fun hp => ⟨fun isOpen => absurd isOpen closed, fun _ => hp⟩
  cases hp with
  | done a => exact confined_finish h hw
  | panic p => exact ⟨h, hw⟩
  | view hn => exact .running (suits (hn _ _)) h hw
  | revise keeps hn => exact .running (suits hn) h (hw.of_subset (keeps _) fun _ _ => id)

/-- A confined program stays confined with every step. -/
theorem confined_step_open (hb : b.Confined D) {p : Job κ σ (ρ.Result α)} (isOpen : stack.IsOpen)
    (hp : p.Confined D (stack.Offering D own)) (h : stack.Confined D own) (hw : w.Confined D) :
  (step (c.host b) (running p stack w)).Confined D own
  := by
  have suits : ∀ {p : Job κ σ (ρ.Result α)}, p.Confined D (stack.Offering D own) →
      stack.Suits D own p :=
    fun hp => ⟨fun _ => hp, fun closed => absurd isOpen closed⟩
  cases hp with
  | last offers =>
    obtain ⟨n, -, raw, next, rfl, hn⟩ := Stack.of_offering offers
    exact .running (suits (hn _).of_reserved) h (hw.publish n raw)
  | done a => exact confined_finish h hw
  | panic p => exact ⟨h, hw⟩
  | view hn => exact .running (suits (hn _ _ hw.definitions)) h hw
  | revise keeps hn => exact .running (suits hn) h (hw.of_subset (keeps _) fun _ _ => id)
  | edit he hn => exact .running (suits (hn _)) h (hw.records he)
  | lookup n early hn => exact confined_startLookup hb ⟨isOpen, hn⟩ h hw
  | create defined hn => exact confined_startCreation hb ⟨isOpen, hn⟩ h hw
  | destroy n hn => exact ⟨⟨by simp, ⟨isOpen, hn⟩, h⟩, hw⟩

/-- Everything stays confined with every step. -/
theorem Confined.step (hb : b.Confined D) {m : Machine (Recipe κ) (Teardown κ) (Site κ σ) α}
    (h : m.Confined D own) :
  (m.step (c.host b)).Confined D own
  := by
  obtain ⟨h, hw⟩ := h
  cases m with
  | halted outcome w => exact ⟨h, hw⟩
  | unwinding p stack w => exact confined_unwind h hw
  | tearing tasks resume stack w =>
    obtain ⟨ht, ha, h⟩ := h
    cases tasks with
    | nil => exact .running (ha.suits _) h hw
    | cons task tasks => exact confined_tear hb ht ha h hw
  | running p stack w =>
    obtain ⟨hp, h⟩ := h
    by_cases isOpen : stack.IsOpen
    · exact confined_step_open hb isOpen (hp.confined isOpen) h hw
    · exact confined_step_secluded isOpen (hp.secluded isOpen) h hw

/-- Everything stays confined throughout a run. -/
theorem Confined.runFor (hb : b.Confined D) {m : Machine (Recipe κ) (Teardown κ) (Site κ σ) α}
    (h : m.Confined D own) (k : Nat) :
  (runFor (c.host b) k m).Confined D own
  := by
  induction k generalizing m with
  | zero => exact h
  | succ k ih =>
    rw [runFor_succ]
    apply ih (h.step hb)

/-- A confined program creates components from their definitions, and only where it may make
requests. -/
theorem Confined.of_create {factory : Recipe κ}
    {next : Except Error Materialized → Job κ σ (ρ.Result α)}
    (h : (Machine.running (.create n factory next) stack w).Confined D own) :
  stack.IsOpen ∧ ∃ d, factory = .component n d ∧ D.get? n = some d
  := by
  obtain ⟨⟨hp, -⟩, -⟩ := h
  by_cases isOpen : stack.IsOpen
  · use isOpen
    cases hp.confined isOpen with
    | last offers =>
      obtain ⟨_, -, _, _, ⟨⟩, -⟩ := Stack.of_offering offers
    | create defined _ => exact ⟨_, rfl, defined⟩
  · cases hp.secluded isOpen

/-- The requests of a confined program make records, or offer early references. -/
theorem Confined.of_edit {e : Edit (Recipe κ) (Teardown κ)} {next : e.Answer → Job κ σ (ρ.Result α)}
    (h : (Machine.running (.edit e next) stack w).Confined D own) :
  e.Records ∨ ∃ n raw, e = .publish n (.earlyReference n raw) ∧ stack.owner own = some n
  := by
  obtain ⟨⟨hp, -⟩, -⟩ := h
  by_cases isOpen : stack.IsOpen
  · cases hp.confined isOpen with
    | last offers =>
      obtain ⟨n, owner, raw, _, ⟨⟩, -⟩ := Stack.of_offering offers
      exact .inr ⟨n, raw, rfl, owner⟩
    | edit he _ => exact .inl he
  · cases hp.secluded isOpen

/-- Confined programs leave the exemptions alone. -/
theorem Confined.exempt_edit {e : Edit (Recipe κ) (Teardown κ)}
    {next : e.Answer → Job κ σ (ρ.Result α)}
    (h : (Machine.running (.edit e next) stack w).Confined D own) (m : Name) (exempt : Bool) :
  e ≠ .setExempt m exempt
  := by
  rintro rfl
  obtain he | ⟨n, raw, ⟨⟩, -⟩ := h.of_edit
  cases he

/-- A step of a confined machine changes no exemption. -/
theorem Confined.keepsExemptions {m : Machine (Recipe κ) (Teardown κ) (Site κ σ) α}
    (h : m.Confined D own) :
  m.KeepsExemptions
  := by
  unfold KeepsExemptions
  split
  · exact absurd rfl (h.exempt_edit _ _)
  · trivial

/-- Whatever moment a confined machine gets to, it is confined there. -/
theorem Confined.leads (hb : b.Confined D) {m m' : Machine (Recipe κ) (Teardown κ) (Site κ σ) α}
    (h : m.Confined D own) (leads : Leads (c.host b) m m') :
  m'.Confined D own
  := by
  obtain ⟨k, rfl⟩ := leads
  apply h.runFor hb

end Machine

end Componentry
