import Componentry.Proofs.Calls
import Componentry.Proofs.Footprint
import Componentry.Proofs.Moves
import Componentry.Proofs.Nesting

/-!
# The conduct of programs in a container

The programs of a container are orderly: whatever they ask for, the only producers they offer make
early references, they change no exemption, they strike no instance but by a destruction, and the
hook of a definition is set up by a construction alone, right before it returns the instance for
which the hook is set up.  If the callbacks are orderly as well, everything that runs or waits in a
container is orderly, at every moment of every run.
-/

namespace Componentry

open Machine

variable {κ σ α β : Type}

/-! ### Orderly programs -/

/-- The recipe is for an early reference. -/
def Recipe.IsEarly : Recipe κ → Prop
  | earlyReference _ _ => True
  | component _ _ | callback _ _ => False

/-- The teardown is the hook of a definition. -/
def Teardown.IsHook : Teardown κ → Prop
  | hook _ _ _ => True
  | callback _ _ => False

/-- A request that any program may make. -/
def Edit.Orderly : Edit (Recipe κ) (Teardown κ) → Prop
  | publish _ producer => producer.IsEarly
  | onDestroy _ disposal => ¬ disposal.IsHook
  | remove _ | setExempt _ _ => False
  | bind _ _ | suppress _ | depend _ _ | contain _ _ => True

/-- An orderly program.  It may end as any program does, or as `last` allows. -/
inductive Client.Orderly (last : Job κ σ α → Prop) : Job κ σ α → Prop
  | last {p : Job κ σ α} (h : last p) : Orderly last p
  | done (a : α) : Orderly last (.done a)
  | panic (p : Panic) : Orderly last (.panic p)
  | view {next : Registry (Recipe κ) (Teardown κ) → Site κ σ → Job κ σ α}
      (h : ∀ r m, Orderly last (next r m)) : Orderly last (.view next)
  | revise (f : Site κ σ → Site κ σ) {next : Job κ σ α} (h : Orderly last next) :
      Orderly last (.revise f next)
  | edit {e : Edit (Recipe κ) (Teardown κ)} {next : e.Answer → Job κ σ α} (he : e.Orderly)
      (h : ∀ a, Orderly last (next a)) : Orderly last (.edit e next)
  | lookup (n : Name) (early : Bool) {next : Except Error (Option Ref) → Job κ σ α}
      (h : ∀ a, Orderly last (next a)) : Orderly last (.lookup n early next)
  | create (n : Name) (d : Definition κ) {next : Except Error Materialized → Job κ σ α}
      (h : ∀ a, Orderly last (next a)) : Orderly last (.create n (.component n d) next)
  | destroy (n : Name) {next : Unit → Job κ σ α} (h : ∀ u, Orderly last (next u)) :
      Orderly last (.destroy n next)
  | destroyAll {next : Unit → Job κ σ α} (h : ∀ u, Orderly last (next u)) :
      Orderly last (.destroyAll next)
  | protect (body : Teardown κ) {next : Except Panic (Except String Unit) → Job κ σ α}
      (h : ∀ a, Orderly last (next a)) : Orderly last (.protect body next)

/-- A program that sets the hook of a component up for an instance, and returns this instance. -/
def Client.Hooks (n : Name) (p : Job κ σ (Except Error Ref)) : Prop :=
  ∃ k i, p = .edit (.onDestroy n (.hook n k i)) fun _ => .done (.ok i)

/-- An orderly program that never sets the hook of a definition up. -/
abbrev Client.Plain (p : Job κ σ α) : Prop := p.Orderly fun _ => False

namespace Client

variable {last : Job κ σ α → Prop} {last' : Job κ σ β → Prop}

/-- A program that goes on after another one is orderly if both are, and if what the first one may
do last is orderly with what comes after it. -/
theorem Orderly.andThen {p : Job κ σ α} {k : α → Job κ σ β} (h : p.Orderly last)
    (hlast : ∀ p, last p → (p.andThen k).Orderly last') (hk : ∀ a, (k a).Orderly last') :
  (p.andThen k).Orderly last'
  := by
  induction h with
  | last h => apply hlast _ h
  | done a => apply hk
  | panic p => apply Orderly.panic
  | view _ ih => apply Orderly.view ih
  | revise f _ ih => apply Orderly.revise f ih
  | edit he _ ih => apply Orderly.edit he ih
  | lookup n early _ ih => apply Orderly.lookup n early ih
  | create n d _ ih => apply Orderly.create n d ih
  | destroy n _ ih => apply Orderly.destroy n ih
  | destroyAll _ ih => apply Orderly.destroyAll ih
  | protect body _ ih => apply Orderly.protect body ih

end Client

namespace Attempt

variable {last : Job κ σ (Except Error α) → Prop} {last' : Job κ σ (Except Error β) → Prop}

theorem orderly_pure (a : α) :
  Client.Orderly last (pure a : Trial κ σ α).run
  := Client.Orderly.done (Except.ok a)

theorem orderly_throw (e : Error) :
  Client.Orderly last (throw e : Trial κ σ α).run
  := Client.Orderly.done (Except.error e)

/-- A step that is orderly throughout may come before whatever is orderly. -/
theorem orderly_bind {x : Trial κ σ β} {k : β → Trial κ σ α} (hx : Client.Plain x.run)
    (hk : ∀ b, (k b).run.Orderly last) :
  (x >>= k).run.Orderly last
  := by
  apply Client.Orderly.andThen hx
  · rintro _ ⟨⟩
  · rintro (e | b)
    · apply Client.Orderly.done
    · apply hk

/-- A choice between two steps, with the same after both, is orderly if its branches are. -/
theorem orderly_ite_bind {p : Prop} [Decidable p] {x y : Trial κ σ β} {k : β → Trial κ σ α}
    (hx : Client.Plain x.run) (hy : Client.Plain y.run) (hk : ∀ b, (k b).run.Orderly last) :
  (if p then x >>= k else y >>= k).run.Orderly last
  := by
  split
  · apply orderly_bind hx hk
  · apply orderly_bind hy hk

/-- A step that is made only on a condition is orderly with what comes after it. -/
theorem orderly_if_then {p : Prop} [Decidable p] {x : Trial κ σ Unit} {k : Unit → Trial κ σ α}
    (hx : Client.Plain x.run) (hk : ∀ u, (k u).run.Orderly last) :
  (if p then x >>= k else k ()).run.Orderly last
  := by
  split
  · apply orderly_bind hx hk
  · apply hk

/-- An attempt whose error is caught is orderly if the attempt and what is done about the error are.
-/
theorem orderly_tryCatch {x : Trial κ σ α} {k : Error → Trial κ σ α}
    (hx : x.run.Orderly last)
    (hlast : ∀ p, last p → ∀ k : Except Error α → Job κ σ (Except Error α),
      (∀ a, k (.ok a) = .done (.ok a)) → (p.andThen k).Orderly last)
    (hk : ∀ e, (k e).run.Orderly last) :
  (tryCatch x k : Trial κ σ α).run.Orderly last
  := by
  apply Client.Orderly.andThen hx
  · intro p hp
    apply hlast p hp
    intro a
    rfl
  · rintro (e | a)
    · apply hk
    · apply Client.Orderly.done

/-- An attempt that sets no hook up stays so if its error is caught. -/
theorem plain_tryCatch {x : Trial κ σ α} {k : Error → Trial κ σ α} (hx : Client.Plain x.run)
    (hk : ∀ e, Client.Plain (k e).run) :
  Client.Plain (tryCatch x k : Trial κ σ α).run
  := by
  apply orderly_tryCatch hx _ hk
  rintro _ ⟨⟩

/-- To apply a function to what an attempt returns sets no hook up. -/
theorem plain_map {x : Trial κ σ β} {f : β → α} (hx : Client.Plain x.run) :
  Client.Plain (f <$> x).run
  := by
  apply orderly_bind hx
  intro b
  apply orderly_pure

/-- To change the error of an attempt sets no hook up. -/
theorem plain_mapError {x : Trial κ σ α} {f : Error → Error} (hx : Client.Plain x.run) :
  Client.Plain (mapError f x).run
  := by
  apply plain_tryCatch hx
  intro e
  apply orderly_throw

/-- A program that sets no hook up does not do so as an attempt. -/
theorem plain_ofClient {p : Job κ σ α} (h : p.Plain) :
  Client.Plain (ofClient p).run
  := by
  apply h.andThen
  · rintro _ ⟨⟩
  · intro a
    apply Client.Orderly.done

/-- To read from the registry sets no hook up. -/
theorem plain_reads (f : Registry (Recipe κ) (Teardown κ) → α) :
  Client.Plain (reads f : Trial κ σ α).run
  := by
  apply plain_ofClient
  apply Client.Orderly.view
  intro r m
  apply Client.Orderly.done

/-- To recall something from the memory sets no hook up. -/
theorem plain_recalls (f : Site κ σ → α) :
  Client.Plain (recalls f : Trial κ σ α).run
  := by
  apply plain_ofClient
  apply Client.Orderly.view
  intro r m
  apply Client.Orderly.done

/-- A request that any program may make sets no hook up. -/
theorem plain_edit (e : Edit (Recipe κ) (Teardown κ)) (he : e.Orderly) :
  Client.Plain (edit e : Trial κ σ e.Answer).run
  := by
  apply plain_ofClient
  apply Client.Orderly.edit he
  intro a
  apply Client.Orderly.done

/-- To look a name up sets no hook up. -/
theorem plain_lookup (n : Name) (early : Bool) :
  Client.Plain (lookup n early : Trial κ σ (Option Ref)).run
  := Client.Orderly.lookup n early .done

/-- To ask for a creation from a definition sets no hook up. -/
theorem plain_create (n : Name) (d : Definition κ) :
  Client.Plain (create n (.component n d) : Trial κ σ Materialized).run
  := Client.Orderly.create n d .done

/-- To destroy a component sets no hook up. -/
theorem plain_destroy (n : Name) :
  Client.Plain (destroy n : Trial κ σ Unit).run
  := Client.Orderly.destroy n fun _ => .done _

/-- To destroy everything sets no hook up. -/
theorem plain_destroyAll :
  Client.Plain (destroyAll : Trial κ σ Unit).run
  := Client.Orderly.destroyAll fun _ => .done _

end Attempt

/-! ### The programs of a container -/

namespace Container

open Attempt

variable (c : Container κ)

/-- To resolve a name for no one in particular sets no hook up. -/
theorem plain_resolveAlone (n : Name) :
  Client.Plain (c.resolveAlone n : Trial κ σ Ref).run
  := by
  apply orderly_bind (plain_lookup _ _)
  rintro (_ | i)
  · apply orderly_bind (plain_recalls _)
    rintro (_ | d)
    · apply orderly_throw
    · apply plain_map (plain_create n d)
  · apply orderly_pure

/-- To resolve a name for a component sets no hook up. -/
theorem plain_resolve (n : Name) (requester : Option Name) :
  Client.Plain (c.resolve n requester : Trial κ σ Ref).run
  := by
  apply orderly_bind (c.plain_resolveAlone n)
  intro i
  cases requester with
  | none => apply orderly_pure
  | some dependent =>
    apply orderly_bind (plain_edit (.depend n dependent) trivial)
    intro _
    apply orderly_pure

/-- To resolve a name and do without it if need be sets no hook up. -/
theorem plain_resolveOptional (n : Name) (requester : Option Name) :
  Client.Plain (c.resolveOptional n requester : Trial κ σ (Option Ref)).run
  := by
  have known : Client.Plain (isKnown n : Trial κ σ Bool).run := by
    apply orderly_bind (plain_reads _)
    intro finished
    apply orderly_bind (plain_recalls _)
    intro defined
    apply orderly_pure
  apply orderly_bind known
  rintro (_ | _)
  · apply orderly_pure
  · apply plain_tryCatch (plain_map (c.plain_resolve n requester))
    intro e
    apply orderly_bind (plain_edit (.suppress e) trivial)
    intro _
    apply orderly_pure

/-- A request through the context sets no hook up. -/
theorem plain_request (current n : Name) :
  Client.Plain (c.request current n : Trial κ σ Ref).run
  := plain_mapError (c.plain_resolve n (some current))

/-- To create declared dependencies sets no hook up. -/
theorem plain_createDependencies (n : Name) (dependencies : List Name) :
  Client.Plain (c.createDependencies n dependencies : Trial κ σ Unit).run
  := by
  induction dependencies with
  | nil => apply orderly_pure
  | cons dependency rest ih =>
    apply orderly_bind (plain_reads _)
    intro dependent
    apply orderly_if_then (orderly_throw _)
    intro _
    apply orderly_bind (plain_edit (.depend dependency n) trivial)
    intro _
    apply orderly_bind (plain_map (plain_mapError (c.plain_resolveAlone dependency)))
    intro _
    apply ih

/-- To create the components in advance that are not lazy sets no hook up. -/
theorem plain_preinstantiate :
  Client.Plain (c.preinstantiate : Trial κ σ Unit).run
  := by
  apply orderly_bind (plain_recalls _)
  intro names
  induction names with
  | nil => apply orderly_pure
  | cons n rest ih =>
    apply orderly_bind (plain_map (c.plain_resolve n none))
    intro _
    apply ih

/-- What a container is called for from outside is orderly. -/
theorem plain_perform (call : Call κ) :
  Client.Plain (call.perform c : Trial κ σ (Option Ref)).run
  := by
  cases call with
  | get n => apply plain_map (c.plain_resolve n none)
  | getOptional n => apply c.plain_resolveOptional
  | preinstantiate =>
    apply orderly_bind c.plain_preinstantiate
    intro _
    apply orderly_pure
  | register d =>
    apply orderly_bind
    · apply plain_ofClient
      apply Client.Orderly.revise
      apply Client.Orderly.done
    · intro _
      apply orderly_pure
  | destroy n =>
    apply orderly_bind (plain_destroy n)
    intro _
    apply orderly_pure
  | destroyAll =>
    apply orderly_bind plain_destroyAll
    intro _
    apply orderly_pure

/-- To settle which instance others get to see sets no hook up. -/
theorem plain_settle (n : Name) (raw exposed : Ref) :
  Client.Plain (settle n raw exposed : Trial κ σ Ref).run
  := by
  apply orderly_bind (plain_lookup n false)
  rintro (_ | early)
  · apply orderly_pure
  · dsimp only
    split
    · apply orderly_pure
    · split
      · apply orderly_pure
      · apply orderly_throw

end Container

/-- The callbacks of a container are orderly, and its disposals keep aloof. -/
structure Behaviour.Orderly (b : Behaviour κ σ) (c : Container κ) : Prop where
  instantiate : ∀ k n, Client.Plain (b.instantiate k n).run
  wire : ∀ k n i, Client.Plain (b.wire k n i).run
  transform : ∀ k n i, Client.Plain (b.transform k n i).run
  dispose : ∀ k n target, (b.dispose k n target).Aloof (c.host b)

namespace Behaviour.Orderly

open Attempt

variable {b : Behaviour κ σ} {c : Container κ} (h : b.Orderly c)

include h

/-- The interceptors set no hook up if the callbacks are orderly. -/
theorem intercept (s : Stage) (n : Name) (i : Ref) :
  Client.Plain (c.intercept b s n i).run
  := by
  rw [Container.intercept]
  generalize c.chain.entries = entries
  induction entries generalizing i with
  | nil => apply orderly_pure
  | cons entry rest ih =>
    obtain ⟨name, ic⟩ := entry
    rw [Container.passBy]
    cases ic.callback? s n with
    | none => apply ih
    | some k =>
      apply orderly_bind (h.transform k n i)
      intro j
      apply ih

/-- The callback that wires an instance sets no hook up. -/
theorem wireWith (k? : Option κ) (n : Name) (i : Ref) :
  Client.Plain (Container.wireWith b k? n i).run
  := by
  cases k? with
  | none => apply orderly_pure
  | some k => apply h.wire

/-- A construction sets the hook of its component up last of all. -/
theorem construct (n : Name) (d : Definition κ) :
  (c.construct b n d).run.Orderly (Client.Hooks n)
  := by
  have offer : ∀ raw, Client.Plain (discard (Attempt.edit (.publish n (.earlyReference n raw))) :
      Trial κ σ Unit).run := by
    intro raw
    apply plain_map
    apply plain_edit (.publish n (.earlyReference n raw)) trivial
  apply orderly_bind (c.plain_createDependencies n d.dependsOn)
  intro _
  apply orderly_bind (h.instantiate d.instantiate n)
  intro raw
  apply orderly_ite_bind (plain_reads _) (orderly_pure _)
  intro offered
  apply orderly_if_then (offer raw)
  intro _
  apply orderly_bind (h.wireWith d.populate n raw)
  intro _
  apply orderly_bind (h.intercept .beforeInit n raw)
  intro i
  apply orderly_bind (h.wireWith d.init n i)
  intro _
  apply orderly_bind (h.intercept .afterInit n i)
  intro i
  apply orderly_ite_bind (Container.plain_settle n raw i) (orderly_pure i)
  intro i
  cases d.dispose with
  | none => apply orderly_pure
  | some k =>
    apply Client.Orderly.last
    use k, i
    rfl

/-- A construction that fails has set nothing up. -/
theorem constructOrDestroy (n : Name) (d : Definition κ) :
  (c.constructOrDestroy b n d).run.Orderly (Client.Hooks n)
  := by
  apply orderly_tryCatch (h.construct n d)
  · rintro _ ⟨k, i, rfl⟩ next hnext
    apply Client.Orderly.last
    use k, i
    rw [Client.andThen]
    simp only [Client.andThen, hnext]
  · intro e
    apply orderly_bind (plain_destroy n)
    intro _
    apply orderly_throw

/-- Every disposal of a container keeps aloof from the registry, be it a hook or a callback. -/
theorem aloof (t : Teardown κ) :
  ((c.host b).dispose t).Aloof (c.host b)
  := by
  cases t with
  | hook n k target => apply h.dispose k n (some target)
  | callback n k => apply h.dispose k n none

/-- Whatever disposals are due in a registry, they keep aloof from it. -/
theorem undisputed (r : Registry (Recipe κ) (Teardown κ)) :
  r.Undisputed (c.host b)
  := by
  intro _ t _
  apply h.aloof t

end Behaviour.Orderly

section Crew

open Attempt

variable {c : Container κ}

theorem plain_note (f : Ledger σ → Ledger σ) :
  Client.Plain (Ledger.note f : Trial κ (Ledger σ) Unit).run
  := by
  apply plain_ofClient
  apply Client.Orderly.revise
  apply Client.Orderly.done

/-- An errand is orderly. -/
theorem Errand.plain_run (e : Errand κ σ α) (n : Name) :
  Client.Plain (e.run c n).run
  := by
  induction e with
  | done outcome => apply Client.Orderly.done
  | consult next ih =>
    apply orderly_bind (plain_recalls _)
    intro s
    apply ih
  | revise f next ih =>
    apply orderly_bind (plain_note _)
    intro _
    apply ih
  | get d next ih =>
    have observed : Client.Plain (observing (c.request n d) :
        Trial κ (Ledger σ) (Except Error Ref)).run := by
      apply plain_tryCatch
      · apply plain_map (c.plain_request n d)
      · intro e
        apply orderly_pure
    apply orderly_bind observed
    intro answer
    apply orderly_bind (plain_note _)
    intro _
    apply ih
  | getOptional d next ih =>
    apply orderly_bind (c.plain_resolveOptional d (some n))
    intro answer
    apply orderly_bind (plain_note _)
    intro _
    apply ih
  | onDestroy k next ih =>
    apply orderly_bind (plain_edit (.onDestroy n (.callback n k)) id)
    intro _
    apply ih

/-- The callbacks of a crew are orderly. -/
theorem Crew.orderly_behaviour (crew : Crew κ σ) (c : Container κ) :
  (crew.behaviour c).Orderly c
  where
  instantiate k n := by
    apply orderly_bind (plain_note _)
    intro _
    apply Errand.plain_run
  wire k n i := Errand.plain_run _ n
  transform k n i := by
    apply Client.Orderly.view
    intro _ s
    apply Client.Orderly.revise
    apply Client.Orderly.done
  dispose k n target := by
    apply Client.Aloof.view
    intro _ s
    apply Client.Aloof.revise
    cases (crew.dispose k n target s.scratch.own).1 with
    | ok a => apply Client.Aloof.done
    | error p => apply Client.Aloof.panic

end Crew

/-! ### The registry -/

namespace Guard

variable {g g' : Guard} {n : Name}

/-- To enter a creation changes no exemption. -/
theorem exempt_enter (h : g.enter n = .ok g') :
  g'.exempt = g.exempt
  := by
  unfold enter at h
  repeat' split at h
  all_goals cases h
  all_goals rfl

/-- To leave a creation changes no exemption. -/
theorem exempt_leave (g : Guard) (n : Name) :
  (g.leave n).1.exempt = g.exempt
  := by
  simp only [leave]
  repeat' split
  all_goals rfl

end Guard

namespace Registry

variable {r r' : Registry (Recipe κ) (Teardown κ)} {exempt : Roster} {n : Name}

/-- The names that are exempt are known, and everything that is offered makes early references. -/
structure Orderly (r : Registry (Recipe κ) (Teardown κ)) (exempt : Roster) : Prop where
  exempt : r.guard.exempt = exempt
  producers : ∀ n p, r.producers.get? n = some p → p.IsEarly

/-- A new registry is orderly, with the exemptions of its settings. -/
theorem orderly_fresh (s : Settings) :
  (fresh s : Registry (Recipe κ) (Teardown κ)).Orderly (.ofList s.exemptNames)
  where
  exempt := rfl
  producers := by rintro n p ⟨⟩

/-- A registry is orderly if it has the exemptions of an orderly one, and no other producers. -/
theorem Orderly.of_subset (h : r.Orderly exempt) (hg : r'.guard.exempt = r.guard.exempt)
    (hp : ∀ n p, r'.producers.get? n = some p → r.producers.get? n = some p) :
  r'.Orderly exempt
  where
  exempt := hg.trans h.exempt
  producers n p hn := h.producers n p (hp n p hn)

/-- A registry stays orderly when the producer of an early reference is put into it. -/
theorem Orderly.insert (h : r.Orderly exempt) (hg : r'.guard = r.guard) {p : Recipe κ}
    (early : p.IsEarly) (hp : r'.producers = r.producers.insert n p) :
  r'.Orderly exempt
  where
  exempt := by
    rw [hg]
    apply h.exempt
  producers m q hq := by
    rw [hp] at hq
    rcases Catalog.of_get?_insert hq with ⟨-, rfl⟩ | hq
    · apply early
    · apply h.producers m q hq

theorem Orderly.dropEarly (h : r.Orderly exempt) (n : Name) :
  (r.dropEarly n).Orderly exempt
  := h.of_subset rfl fun _ _ => Catalog.of_get?_erase

theorem Orderly.install (h : r.Orderly exempt) (n : Name) (i : Ref) :
  (r.install n i).Orderly exempt
  := h.of_subset rfl fun _ _ => Catalog.of_get?_erase

theorem Orderly.leave (h : r.Orderly exempt) (n : Name) (collects : Bool) :
  (r.leave n collects).1.Orderly exempt
  := h.of_subset (Guard.exempt_leave _ _) fun _ _ => id

/-- A request that any program may make leaves the registry orderly. -/
theorem Orderly.edit (h : r.Orderly exempt) {e : Edit (Recipe κ) (Teardown κ)} (he : e.Orderly) :
  (r.edit e).1.Orderly exempt
  := by
  cases e with
  | bind n i =>
    obtain ⟨-, hb⟩ | hb := r.edit_bind n i
    · rw [hb]
      apply h.install
    · rw [hb]
      apply h
  | publish n producer =>
    simp only [Registry.edit, publish]
    split
    · apply h
    · exact h.insert rfl he rfl
  | remove n => cases he
  | setExempt n b => cases he
  | suppress | depend | contain | onDestroy => exact h.of_subset rfl fun _ _ => id

/-- To set a hook up leaves the registry orderly. -/
theorem Orderly.hooked (h : r.Orderly exempt) (n : Name) (t : Teardown κ) :
  (r.edit (.onDestroy n t)).1.Orderly exempt
  := h.of_subset rfl fun _ _ => id

/-- To restore the producer of an early reference leaves the registry orderly. -/
theorem Orderly.restore (h : r.Orderly exempt) {p : Recipe κ} (early : p.IsEarly) (n : Name) :
  (r.restore n p).Orderly exempt
  := by
  unfold Registry.restore
  split
  · exact h.insert rfl early rfl
  · apply h

end Registry

/-! ### The stack and the machine -/

namespace Stack

variable {ρ : Role}

/-- What a program on top of a stack may do last. -/
def Last : {ρ : Role} → Stack (Recipe κ) (Teardown κ) (Site κ σ) α ρ →
    Job κ σ (ρ.Result α) → Prop
  | _, creating n _ _ _ => Client.Hooks n
  | _, base | _, producing _ _ _ _ | _, disposing _ _ _ _ | _, protecting _ _ => fun _ => False

/-- A program that may run on top of a stack: if it disposes of something it keeps aloof, and
otherwise it is orderly. -/
structure Admits (host : Host (Recipe κ) (Teardown κ) (Site κ σ))
    (stack : Stack (Recipe κ) (Teardown κ) (Site κ σ) α ρ) (p : Job κ σ (ρ.Result α)) : Prop where
  aloof : ρ = .disposer → p.Aloof host
  orderly : ρ ≠ .disposer → p.Orderly stack.Last

/-- Every program on the stack may run when it is its turn, and none that disposes of something
waits for a creation, for an early reference or for a disposal. -/
def Orderly (host : Host (Recipe κ) (Teardown κ) (Site κ σ)) :
    {ρ : Role} → Stack (Recipe κ) (Teardown κ) (Site κ σ) α ρ → Prop
  | _, base => True
  | _, @creating _ _ _ _ _ _ ρ resume below =>
    ρ ≠ .disposer ∧ (∀ a, below.Admits host (resume a)) ∧ below.Orderly host
  | _, @producing _ _ _ _ _ producer ρ resume below =>
    producer.IsEarly ∧ ρ ≠ .disposer ∧ (∀ a, below.Admits host (resume a)) ∧ below.Orderly host
  | _, @disposing _ _ _ _ _ _ ρ resume below =>
    ρ ≠ .disposer ∧ (∀ u, below.Admits host (resume u)) ∧ below.Orderly host
  | _, protecting resume below => (∀ a, below.Admits host (resume a)) ∧ below.Orderly host

end Stack

namespace Machine

variable {host : Host (Recipe κ) (Teardown κ) (Site κ σ)} {exempt : Roster} {ρ : Role}
  {stack : Stack (Recipe κ) (Teardown κ) (Site κ σ) α ρ}
  {w : World (Recipe κ) (Teardown κ) (Site κ σ)}

/-- The programs of a machine are orderly: the one that runs, and those that wait. -/
def Conducted (host : Host (Recipe κ) (Teardown κ) (Site κ σ)) :
    Machine (Recipe κ) (Teardown κ) (Site κ σ) α → Prop
  | running p stack _ => stack.Admits host p ∧ stack.Orderly host
  | @tearing _ _ _ _ _ ρ resume stack _ =>
    ρ ≠ .disposer ∧ (∀ u, stack.Admits host (resume u)) ∧ stack.Orderly host
  | unwinding _ stack _ => stack.Orderly host
  | halted _ _ => True

/-- Everything that runs or waits is orderly, and so is the registry. -/
structure Orderly (host : Host (Recipe κ) (Teardown κ) (Site κ σ)) (exempt : Roster)
    (m : Machine (Recipe κ) (Teardown κ) (Site κ σ) α) : Prop where
  conducted : m.Conducted host
  registry : m.registry.Orderly exempt

/-- A machine is orderly if the program that runs, those that wait and the registry are. -/
theorem Orderly.running {p : Job κ σ (ρ.Result α)} (hp : stack.Admits host p)
    (h : stack.Orderly host) (hr : w.registry.Orderly exempt) :
  (running p stack w).Orderly host exempt
  := ⟨⟨hp, h⟩, hr⟩

/-- After a notice the machine is orderly if what goes on after it is. -/
theorem orderly_announcing {notice : Notice}
    {next : World (Recipe κ) (Teardown κ) (Site κ σ) →
      Machine (Recipe κ) (Teardown κ) (Site κ σ) α} (h : stack.Orderly host)
    (hr : w.registry.Orderly exempt)
    (goes : ∀ m, (next { w with memory := m }).Orderly host exempt) :
  (announcing host notice stack w next).Orderly host exempt
  := by
  apply announcing_of (P := fun m => m.Orderly host exempt)
  · intro _
    apply goes
  · intro p _
    use h
    exact hr

/-- The end of a creation leaves the machine orderly. -/
theorem orderly_finishCreation {n : Name} {collects : Bool} {outcome : Except Error Ref}
    {resume : Except Error Materialized → Job κ σ (ρ.Result α)}
    (ha : ∀ a, stack.Admits host (resume a)) (h : stack.Orderly host)
    (hr : w.registry.Orderly exempt) :
  (finishCreation host n collects outcome resume stack w).Orderly host exempt
  := by
  have hr := hr.leave n collects
  simp only [finishCreation]
  split
  · exact .running (ha _) h hr
  · split
    · exact .running (ha _) h hr
    · apply orderly_announcing h (hr.install n _)
      intro m
      exact .running (ha _) h (hr.install n _)
    · apply orderly_announcing h (hr.dropEarly n)
      intro m
      exact .running (ha _) h (hr.dropEarly n)

/-- The end of a lookup leaves the machine orderly. -/
theorem orderly_finishLookup {n : Name} {producer : Recipe κ} {outcome : Except Error Ref}
    {resume : Except Error (Option Ref) → Job κ σ (ρ.Result α)} (early : producer.IsEarly)
    (ha : ∀ a, stack.Admits host (resume a)) (h : stack.Orderly host)
    (hr : w.registry.Orderly exempt) :
  (finishLookup n producer outcome resume stack w).Orderly host exempt
  := by
  cases outcome with
  | ok i => exact .running (ha _) h (hr.of_subset rfl fun _ _ => id)
  | error e => exact .running (ha _) h (hr.restore early n)

/-- The end of a disposal leaves the machine orderly. -/
theorem orderly_finishDisposal {notice : Notice} {tasks : List (Task (Teardown κ))}
    {resume : Unit → Job κ σ (ρ.Result α)} (hρ : ρ ≠ .disposer)
    (ha : ∀ u, stack.Admits host (resume u)) (h : stack.Orderly host)
    (hr : w.registry.Orderly exempt) :
  (finishDisposal host notice tasks resume stack w).Orderly host exempt
  := by
  apply orderly_announcing h hr
  intro m
  exact ⟨⟨hρ, ha, h⟩, hr⟩

/-- A program that returns leaves the machine orderly. -/
theorem orderly_finish {a : ρ.Result α} (h : stack.Orderly host)
    (hr : w.registry.Orderly exempt) :
  (finish host a stack w).Orderly host exempt
  := by
  cases stack with
  | base => exact ⟨trivial, hr⟩
  | creating n collects resume below => exact orderly_finishCreation h.2.1 h.2.2 hr
  | producing n producer resume below => exact orderly_finishLookup h.1 h.2.2.1 h.2.2.2 hr
  | disposing n tasks resume below =>
    rcases a with text | u
    · exact orderly_finishDisposal h.1 h.2.1 h.2.2 hr
    · exact orderly_finishDisposal h.1 h.2.1 h.2.2 hr
  | protecting resume below => exact .running (h.1 _) h.2 hr

/-- A panic that unwinds a frame leaves the machine orderly. -/
theorem orderly_unwind {p : Panic} (h : stack.Orderly host) (hr : w.registry.Orderly exempt) :
  (unwind host p stack w).Orderly host exempt
  := by
  cases stack with
  | base => exact ⟨trivial, hr⟩
  | creating n collects resume below => exact ⟨h.2.2, (hr.leave n collects).dropEarly n⟩
  | producing n producer resume below => exact ⟨h.2.2.2, hr⟩
  | disposing n tasks resume below => exact orderly_finishDisposal h.1 h.2.1 h.2.2 hr
  | protecting resume below => exact .running (h.1 _) h.2 hr

variable {b : Behaviour κ σ} {c : Container κ}

/-- To meet a request for a creation leaves the machine orderly. -/
theorem orderly_startCreation (orderly : b.Orderly c) {n : Name} {d : Definition κ}
    {resume : Except Error Materialized → Job κ σ (ρ.Result α)} (hρ : ρ ≠ .disposer)
    (ha : ∀ a, stack.Admits (c.host b) (resume a)) (h : stack.Orderly (c.host b))
    (hr : w.registry.Orderly exempt) :
  (startCreation (c.host b) n (.component n d) resume stack w).Orderly (c.host b) exempt
  := by
  unfold startCreation
  split
  · exact .running (ha _) h hr
  · exact .running (ha _) h hr
  · rename_i hb
    obtain ⟨-, -, guard, suppressed, he, -, -, rfl⟩ := Registry.of_admitted hb
    have hr : ({ w.registry with guard := guard, suppressed := suppressed } :
        Registry (Recipe κ) (Teardown κ)).Orderly exempt :=
      hr.of_subset (Guard.exempt_enter he) fun _ _ => id
    apply orderly_announcing h hr
    intro m
    refine .running ⟨by rintro ⟨⟩, fun _ => ?_⟩ ⟨hρ, ha, h⟩ hr
    apply orderly.constructOrDestroy

/-- To look a name up leaves the machine orderly. -/
theorem orderly_startLookup (orderly : b.Orderly c) {n : Name} {early : Bool}
    {resume : Except Error (Option Ref) → Job κ σ (ρ.Result α)} (hρ : ρ ≠ .disposer)
    (ha : ∀ a, stack.Admits (c.host b) (resume a)) (h : stack.Orderly (c.host b))
    (hr : w.registry.Orderly exempt) :
  (startLookup (c.host b) n early resume stack w).Orderly (c.host b) exempt
  := by
  unfold startLookup
  split
  · exact .running (ha _) h hr
  · rename_i producer r hs
    obtain ⟨-, hp, rfl⟩ := Registry.of_sight_pending hs
    have hp := hr.producers n producer hp
    refine .running ⟨by rintro ⟨⟩, fun _ => ?_⟩ ⟨hp, hρ, ha, h⟩
      (hr.of_subset rfl fun _ _ => Catalog.of_get?_erase)
    cases producer with
    | component | callback => cases hp
    | earlyReference m raw => apply orderly.intercept

/-- To work off a task leaves the machine orderly. -/
theorem orderly_tear (orderly : b.Orderly c) (task : Task (Teardown κ))
    {tasks : List (Task (Teardown κ))} {resume : Unit → Job κ σ (ρ.Result α)}
    (hρ : ρ ≠ .disposer) (ha : ∀ u, stack.Admits (c.host b) (resume u))
    (h : stack.Orderly (c.host b)) (hr : w.registry.Orderly exempt) :
  (tear (c.host b) task tasks resume stack w).Orderly (c.host b) exempt
  := by
  cases task with
  | dispose n disposal =>
    refine .running ⟨fun _ => ?_, fun hne => absurd rfl hne⟩ ⟨hρ, ha, h⟩ hr
    apply orderly.aloof
  | destroy n =>
    exact ⟨⟨hρ, ha, h⟩, hr.of_subset rfl fun _ _ => Catalog.of_get?_erase⟩
  | contents n => exact ⟨⟨hρ, ha, h⟩, hr.of_subset rfl fun _ _ => id⟩
  | forget n => exact ⟨⟨hρ, ha, h⟩, hr.of_subset rfl fun _ _ => id⟩
  | clear => exact ⟨⟨hρ, ha, h⟩, hr.of_subset rfl (by rintro _ _ ⟨⟩)⟩

/-- A disposal keeps aloof with every step. -/
theorem orderly_step_aloof {p : Job κ σ (ρ.Result α)}
    (hρ : ρ = .disposer) (hp : p.Aloof (c.host b)) (h : stack.Orderly (c.host b))
    (hr : w.registry.Orderly exempt) :
  (step (c.host b) (running p stack w)).Orderly (c.host b) exempt
  := by
  have admits : ∀ {p : Job κ σ (ρ.Result α)}, p.Aloof (c.host b) → stack.Admits (c.host b) p :=
    fun hp => ⟨fun _ => hp, fun hne => absurd hρ hne⟩
  cases hp with
  | done a => exact orderly_finish h hr
  | panic p => exact ⟨h, hr⟩
  | view hn => exact .running (admits (hn _ _)) h hr
  | revise hn => exact .running (admits hn) h hr
  | protect hb hn =>
    refine .running ⟨fun _ => hb, fun hne => absurd rfl hne⟩ ⟨fun a => admits (hn a), h⟩ hr

/-- An orderly program stays orderly with every step. -/
theorem orderly_step_running (orderly : b.Orderly c) {p : Job κ σ (ρ.Result α)}
    (hρ : ρ ≠ .disposer) (hp : p.Orderly stack.Last) (h : stack.Orderly (c.host b))
    (hr : w.registry.Orderly exempt) :
  (step (c.host b) (running p stack w)).Orderly (c.host b) exempt
  := by
  have admits : ∀ {p : Job κ σ (ρ.Result α)}, p.Orderly stack.Last → stack.Admits (c.host b) p :=
    fun hp => ⟨fun he => absurd he hρ, fun _ => hp⟩
  cases hp with
  | last hl =>
    cases stack with
    | creating n collects resume below =>
      obtain ⟨k, i, rfl⟩ := hl
      exact .running (admits (.done _)) h (hr.hooked n _)
    | base | producing | disposing | protecting => cases hl
  | done a => exact orderly_finish h hr
  | panic p => exact ⟨h, hr⟩
  | view hn => exact .running (admits (hn _ _)) h hr
  | revise f hn => exact .running (admits hn) h hr
  | edit he hn => exact .running (admits (hn _)) h (hr.edit he)
  | lookup n early hn => exact orderly_startLookup orderly hρ (fun a => admits (hn a)) h hr
  | create n d hn => exact orderly_startCreation orderly hρ (fun a => admits (hn a)) h hr
  | destroy n hn => exact ⟨⟨hρ, fun u => admits (hn u), h⟩, hr⟩
  | destroyAll hn =>
    exact ⟨⟨hρ, fun u => admits (hn u), h⟩, hr.of_subset rfl fun _ _ => id⟩
  | protect body hn =>
    refine .running ⟨fun _ => orderly.aloof body, fun hne => absurd rfl hne⟩
      ⟨fun a => admits (hn a), h⟩ hr

/-- Everything stays orderly with every step. -/
theorem Orderly.step (orderly : b.Orderly c)
    {m : Machine (Recipe κ) (Teardown κ) (Site κ σ) α} (h : m.Orderly (c.host b) exempt) :
  (m.step (c.host b)).Orderly (c.host b) exempt
  := by
  obtain ⟨h, hr⟩ := h
  cases m with
  | halted outcome w => exact ⟨h, hr⟩
  | unwinding p stack w => exact orderly_unwind h hr
  | @tearing tasks ρ resume stack w =>
    obtain ⟨hρ, ha, h⟩ := h
    cases tasks with
    | nil => exact .running (ha _) h hr
    | cons task tasks => exact orderly_tear orderly task hρ ha h hr
  | @running ρ p stack w =>
    obtain ⟨hp, h⟩ := h
    by_cases hρ : ρ = .disposer
    · exact orderly_step_aloof hρ (hp.aloof hρ) h hr
    · exact orderly_step_running orderly hρ (hp.orderly hρ) h hr

/-- Everything stays orderly throughout a run. -/
theorem Orderly.runFor (orderly : b.Orderly c)
    {m : Machine (Recipe κ) (Teardown κ) (Site κ σ) α} (h : m.Orderly (c.host b) exempt) (k : Nat) :
  (runFor (c.host b) k m).Orderly (c.host b) exempt
  := by
  induction k generalizing m with
  | zero => apply h
  | succ k ih =>
    rw [runFor_succ]
    apply ih (h.step orderly)

/-- No exemption changes when everything is orderly. -/
theorem Orderly.keepsExemptions {m : Machine (Recipe κ) (Teardown κ) (Site κ σ) α}
    (h : m.Orderly host exempt) :
  m.KeepsExemptions
  := by
  obtain ⟨h, -⟩ := h
  cases m with
  | halted | unwinding | tearing => trivial
  | @running ρ p stack w =>
    by_cases hρ : ρ = .disposer
    · cases h.1.aloof hρ <;> trivial
    · cases h.1.orderly hρ with
      | last hl =>
        cases stack with
        | creating n collects resume below =>
          obtain ⟨k, i, rfl⟩ := hl
          trivial
        | base | producing | disposing | protecting => cases hl
      | @edit e next he _ =>
        cases e with
        | setExempt => cases he
        | bind | publish | suppress | remove | depend | contain | onDestroy => trivial
      | done | panic | view | revise | lookup | create | destroy | destroyAll | protect => trivial

end Machine

end Componentry
