import Componentry.Proofs.Termination

/-!
# The early reference of a component in creation

While a component is in creation, others may get an early reference to it.  A construction offers
one, a lookup takes the offer and has the reference made, and if this fails the offer stands as
before.  What becomes of an offer is a small automaton with the states of `Offer`, and each step of
a confined machine is one of its turns.

Three facts are read off the automaton.  An early reference is made at most once, the interceptors
make it from the instance that was offered, and the registry holds it as long as the component is
not destroyed.
-/

namespace Componentry

open Machine

variable {κ σ α : Type} {D : Catalog (Definition κ)} {c : Container κ} {b : Behaviour κ σ}
  {n : Name} {own : Option Name}

/-! ### Moments of a run -/

section Moments

variable {φ δ μ : Type}

/-- The component whose early reference the program on top makes. -/
def Stack.producing? : {ρ : Role} → Stack φ δ μ α ρ → Option Name
  | _, producing n _ _ _ => some n
  | _, base | _, creating _ _ _ _ | _, disposing _ _ _ _ | _, protecting _ _ => none

namespace Machine

/-- The component whose early reference the running program makes. -/
def producing? : Machine φ δ μ α → Option Name
  | running _ stack _ => stack.producing?
  | tearing _ _ _ _ | unwinding _ _ _ | halted _ _ => none

/-- In a run an early reference is made for a component, which is not destroyed after that. -/
def Exposes (host : Host φ δ μ) (m : Machine φ δ μ α) (n : Name) (i : Ref) : Prop :=
  ∃ k, (∃ p, (runFor host k m).Materializes n p i) ∧
    ∀ l > k, (runFor host l m).task? ≠ some (.destroy n)

variable {m : Machine φ δ μ α} {p : φ} {i : Ref}

/-- An early reference is materialized where it is being made. -/
theorem Materializes.producing (h : m.Materializes n p i) :
  m.producing? = some n
  := by
  obtain ⟨ρ, resume, below, w, rfl⟩ := h.eq
  rfl

/-- An early reference fails where it is being made. -/
theorem Fails.producing (h : m.Fails n p) :
  m.producing? = some n
  := by
  obtain ⟨e, ρ, resume, below, w, rfl⟩ := h.eq
  rfl

end Machine

end Moments

/-! ### The registry -/

namespace Registry

variable {φ δ : Type} {r : Registry φ δ}

/-- A producer is put back where there is none, or it is lost. -/
theorem Bare.restore (h : r.Bare n) (p : φ) :
  ((r.restore n p).producers.get? n = some p ∧ (r.restore n p).early.get? n = none) ∨
    (r.restore n p).Bare n
  := by
  unfold Registry.restore
  split
  · exact .inl ⟨Catalog.get?_insert_self _ _ _, h.2⟩
  · exact .inr h

end Registry

/-! ### Confined machines -/

/-- Where a program may make requests, no early reference is being made. -/
theorem Stack.Confined.not_produces {ρ : Role}
    {stack : Stack (Recipe κ) (Teardown κ) (Site κ σ) α ρ} (h : stack.Confined D own)
    (isOpen : stack.IsOpen) :
  ¬ stack.Produces
  := by
  induction stack with
  | base => exact id
  | creating n collects resume below ih => exact ih h.2 h.1.isOpen
  | producing | disposing | protecting => cases isOpen

/-- The program on top makes no early reference if it may make requests. -/
theorem Stack.producing?_of_open {ρ : Role}
    {stack : Stack (Recipe κ) (Teardown κ) (Site κ σ) α ρ} (isOpen : stack.IsOpen) :
  stack.producing? = none
  := by
  cases stack with
  | base | creating => rfl
  | producing | disposing | protecting => cases isOpen

namespace Machine

variable {m : Machine (Recipe κ) (Teardown κ) (Site κ σ) α} {ρ : Role}
  {stack : Stack (Recipe κ) (Teardown κ) (Site κ σ) α ρ}
  {w : World (Recipe κ) (Teardown κ) (Site κ σ)}

/-- What is not secluded does not run on behalf of a producer. -/
theorem Confined.not_produces {p : Job κ σ (ρ.Result α)}
    (h : (Machine.running p stack w).Confined D own)
    (busy : ¬ p.Secluded) :
  ¬ stack.Produces
  := by
  apply h.contained.2.not_produces
  by_contra closed
  exact busy (h.contained.1.secluded closed)

/-- Producers make no requests in a confined machine. -/
theorem Confined.discreet (h : m.Confined D own) :
  m.Discreet
  := by
  unfold Discreet
  split
  · exact h.not_produces nofun
  · exact h.not_produces nofun
  · exact h.not_produces nofun
  · exact h.not_produces nofun
  · exact h.not_produces nofun
  · trivial

theorem producing?_announcing {host : Host (Recipe κ) (Teardown κ) (Site κ σ)} {notice : Notice}
    {next : World (Recipe κ) (Teardown κ) (Site κ σ) →
      Machine (Recipe κ) (Teardown κ) (Site κ σ) α}
    (goes : ∀ memory, (next { w with memory }).producing? = none) :
  (announcing host notice stack w next).producing? = none
  := by
  apply announcing_of (P := fun m => m.producing? = none)
  · intro _
    apply goes
  · intro _ _
    rfl

/-- An early reference begins to be made only with a lookup. -/
theorem Confined.producing_step (h : m.Confined D own)
    (host : Host (Recipe κ) (Teardown κ) (Site κ σ)) (hn : (m.step host).producing? = some n) :
  m.producing? = some n ∨ ∃ p, m.sought? = some (n, p)
  := by
  have quiet {x : Option Name} (none : x = none) (some : x = some n) {P : Prop} : P := by
    rw [none] at some
    cases some
  -- where the stack is open, no early reference is being made
  cases m with
  | halted outcome w => cases hn
  | tearing tasks resume stack w =>
    obtain ⟨ht, ha, hs⟩ := h.contained
    cases tasks with
    | nil => exact quiet (Stack.producing?_of_open ha.isOpen) hn
    | cons task tasks => cases task <;> cases hn
  | unwinding p stack w =>
    cases stack with
    | base | creating | producing => cases hn
    | disposing m tasks resume below => exact quiet (producing?_announcing fun _ => rfl) hn
    | protecting => cases h.contained
  | running p stack w =>
    cases p with
    | done a =>
      obtain ⟨-, hs⟩ := h.contained
      cases stack with
      | base => cases hn
      | creating m collects resume below =>
        obtain ⟨w', -, next | ⟨-, p, next⟩⟩ :=
          finishCreation_cases host m collects a resume below w
        · rw [Machine.step, finish, next] at hn
          exact quiet (Stack.producing?_of_open hs.1.isOpen) hn
        · rw [Machine.step, finish, next] at hn
          cases hn
      | producing m producer resume below =>
        rcases a with e | i
        · exact quiet (Stack.producing?_of_open hs.2.1.isOpen) hn
        · exact quiet (Stack.producing?_of_open hs.2.1.isOpen) hn
      | disposing m tasks resume below =>
        rcases a with text | u
        · exact quiet (producing?_announcing fun _ => rfl) hn
        · exact quiet (producing?_announcing fun _ => rfl) hn
      | protecting => cases hs
    | lookup m early next =>
      rw [Machine.step, startLookup] at hn
      split at hn
      · exact .inl hn
      · rename_i p r pending
        obtain rfl := Option.some.inj hn
        exact .inr ⟨p, sought_of_pending pending⟩
    | create m factory next =>
      rw [Machine.step, startCreation] at hn
      split at hn
      · exact .inl hn
      · exact .inl hn
      · exact quiet (producing?_announcing fun _ => rfl) hn
    | panic | destroy | destroyAll | protect => cases hn
    | view | revise | edit => exact .inl hn

end Machine

/-! ### Within a creation -/

namespace Machine

variable {m : Machine (Recipe κ) (Teardown κ) (Site κ σ) α} {ρ : Role}
  {stack : Stack (Recipe κ) (Teardown κ) (Site κ σ) α ρ}
  {w : World (Recipe κ) (Teardown κ) (Site κ σ)}

/-- The machine is confined, and runs within the creation of a component that is not exempt. -/
structure Within (D : Catalog (Definition κ)) (own : Option Name) (n : Name)
    (m : Machine (Recipe κ) (Teardown κ) (Site κ σ) α) : Prop where
  confined : m.Confined D own
  entered : n ∈ m.registry.guard.inCreation
  bound : n ∉ m.registry.guard.exempt
  unfinished : m.registry.finished.get? n = none
  outside : n ∉ m.creations

/-- The creation within which a machine runs does not begin again. -/
theorem Within.outside_step (h : m.Within D own n)
    (host : Host (Recipe κ) (Teardown κ) (Site κ σ)) :
  n ∉ (m.step host).creations
  := by
  intro begun
  obtain begun | ⟨ρ, factory, next, stack, w, rfl⟩ := mem_creations_step host begun
  · exact h.outside begun
  · have refused : ∃ e, w.registry.beginCreation n = .refused e := by
      have unfinished : w.registry.finished.get? n = none := h.unfinished
      have bound : n ∉ w.registry.guard.exempt := h.bound
      have entered : n ∈ w.registry.guard.inCreation := h.entered
      simp only [Registry.beginCreation, unfinished, Guard.enter, if_neg bound, if_pos entered]
      split
      · exact ⟨_, rfl⟩
      · split
        · exact ⟨_, rfl⟩
        · rename_i admitted
          split at admitted <;> cases admitted
    obtain ⟨e, refused⟩ := refused
    rw [Machine.step, startCreation, refused] at begun
    exact h.outside begun

/-- Other components may be finished, but not the one within whose creation the machine runs. -/
theorem Within.unfinished_step (h : m.Within D own n)
    (host : Host (Recipe κ) (Teardown κ) (Site κ σ)) :
  (m.step host).registry.finished.get? n = none
  := by
  have unfinished := h.unfinished
  have alters := alters_step host m
  generalize (m.step host).registry = r at alters ⊢
  cases alters with
  | keeps | memoizes | leaves | drops | abandons | marks | releases | forgets => exact unfinished
  | clears => rfl
  | edits e next stack w =>
    obtain he | ⟨m, raw, rfl, -⟩ := h.confined.of_edit
    · cases e with
      | bind | publish | remove | setExempt => cases he
      | suppress | depend | contain | onDestroy => exact unfinished
    · simp only [Registry.edit, Registry.publish]
      split <;> exact unfinished
  | takes next stack w pending =>
    obtain ⟨-, -, rfl⟩ := Registry.of_sight_pending pending
    exact unfinished
  | restores m producer e resume below w =>
    obtain ⟨producers, hr⟩ := w.registry.restore_eq m producer
    rw [hr]
    exact unfinished
  | admits factory next stack w admitted =>
    obtain ⟨-, -, _, _, -, -, -, rfl⟩ := Registry.of_admitted admitted
    exact unfinished
  | installs m collects i resume below w entered unbound =>
    have ne : n ≠ m := fun same => h.outside (by simp [Machine.creations, Stack.creations, same])
    exact (Catalog.get?_insert_of_ne ne).trans unfinished
  | withdraws m tasks resume stack w => exact Catalog.get?_erase_of_eq_none unfinished m

/-- The creation within which a machine runs does not end. -/
theorem Within.entered_step (h : m.Within D own n)
    (host : Host (Recipe κ) (Teardown κ) (Site κ σ)) :
  n ∈ (m.step host).registry.guard.inCreation
  := by
  have entered := h.entered
  have other {m : Name} {names : List Name} (outside : n ∉ names ++ [m]) : n ≠ m := by
    rintro rfl
    apply outside
    simp
  have alters := alters_step host m
  generalize (m.step host).registry = r at alters ⊢
  cases alters with
  | keeps | memoizes | marks | withdraws | releases | forgets | clears => exact entered
  | edits e next stack w =>
    by_cases aside : ∃ f, e = .suppress f
    · obtain ⟨f, rfl⟩ := aside
      exact entered
    · have still := w.registry.still_edit e h.confined.exempt_edit fun f hf => aside ⟨f, hf⟩
      rw [still.guard]
      exact entered
  | takes next stack w pending =>
    rw [(Registry.still_of_pending pending).guard]
    exact entered
  | restores m producer e resume below w =>
    rw [(w.registry.still_restore m producer).guard]
    exact entered
  | admits factory next stack w admitted =>
    obtain ⟨-, -, guard, _, he, -, -, rfl⟩ := Registry.of_admitted admitted
    exact Guard.mem_of_enter he entered
  | leaves | installs | drops | abandons =>
    exact Guard.mem_leave_of_ne entered (other h.outside)

/-- With every step a machine stays within the creation in which it runs. -/
theorem Within.step (hb : b.Confined D) (h : m.Within D own n) :
  (m.step (c.host b)).Within D own n
  where
  confined := h.confined.step hb
  entered := h.entered_step _
  bound := by
    rw [h.confined.exempt_step]
    exact h.bound
  unfinished := h.unfinished_step _
  outside := h.outside_step _

/-- The one program that may offer early references is at the bottom of the stack. -/
theorem Within.of_publishes {p : Recipe κ} (h : m.Within D own n) (publishes : m.Publishes n p) :
  own = some n ∧ ∃ (raw : Ref) (next : Bool → Job κ σ α)
    (w : World (Recipe κ) (Teardown κ) (Site κ σ)), p = .earlyReference n raw ∧
      (∀ a, (next a).Reserved D) ∧
      m = @running _ _ _ α .main (.edit (.publish n (.earlyReference n raw)) next) .base w
  := by
  unfold Publishes at publishes
  split at publishes
  · rename_i m q next stack w
    obtain ⟨rfl, rfl⟩ := publishes
    obtain ⟨⟨hp, -⟩, -⟩ := h.confined
    by_cases isOpen : stack.IsOpen
    · cases hp.confined isOpen with
      | edit he _ => cases he
      | last offers =>
        obtain ⟨m, owner, raw, next, offer, reserved⟩ := Stack.of_offering offers
        cases offer
        cases stack with
        | base => exact ⟨owner, raw, next, w, rfl, reserved, rfl⟩
        | creating m collects resume below =>
          obtain rfl := Option.some.inj owner
          exact absurd (by simp [Machine.creations, Stack.creations]) h.outside
        | producing | disposing | protecting => cases isOpen
    · cases hp.secluded isOpen
  · cases publishes

/-- Once a construction has made its offer, no further one is made within the creation. -/
theorem Within.quiet (h : m.Within D none n) (p : Recipe κ) :
  ¬ m.Publishes n p
  := by
  intro publishes
  cases (h.of_publishes publishes).1

end Machine

/-! ### Offers -/

/-- What has become of the early reference to a component in creation. -/
inductive Offer where
  /-- Nothing was offered yet. -/
  | awaited
  /-- An early reference to the instance `raw` can be made. -/
  | offered (raw : Ref)
  /-- An early reference to the instance `raw` is being made. -/
  | taken (raw : Ref)
  /-- The early reference was made. -/
  | made (i : Ref)
  /-- There is no early reference any more. -/
  | gone

namespace Offer

/-- The offer has led to an early reference, or to nothing. -/
def Spent : Offer → Prop
  | made _ | gone => True
  | awaited | offered _ | taken _ => False

/-- Only early references to the instance `raw` can be made. -/
def Of (raw : Ref) : Offer → Prop
  | offered i | taken i => i = raw
  | made _ | gone => True
  | awaited => False

end Offer

namespace Machine

variable {m : Machine (Recipe κ) (Teardown κ) (Site κ σ) α} {ρ : Role}
  {stack : Stack (Recipe κ) (Teardown κ) (Site κ σ) α ρ}
  {w : World (Recipe κ) (Teardown κ) (Site κ σ)}

/-- The interceptors make an early reference to the instance `raw` of a component. -/
inductive Crafts (c : Container κ) (b : Behaviour κ σ) (n : Name) (raw : Ref) :
    Machine (Recipe κ) (Teardown κ) (Site κ σ) α → Prop
  /-- They have begun in the world `u`, and what the rest returns is what they return. -/
  | intro {ρ : Role} {p : Job κ σ (Except Error Ref)} (secluded : p.Secluded)
    (u : World (Recipe κ) (Teardown κ) (Site κ σ))
    (resume : Except Error (Option Ref) → Job κ σ (ρ.Result α))
    (below : Stack (Recipe κ) (Teardown κ) (Site κ σ) α ρ)
    (w : World (Recipe κ) (Teardown κ) (Site κ σ))
    (rest : ∀ outcome v, p.Returns (c.host b) w outcome v →
      (c.intercept b .earlyReference n raw).run.Returns (c.host b) u outcome v) :
    Crafts c b n raw
      (@running _ _ _ α .maker p (.producing n (.earlyReference n raw) resume below) w)

/-- The registry and the stack are as they should be for a state of the offer. -/
def Stands (c : Container κ) (b : Behaviour κ σ) (D : Catalog (Definition κ)) (n : Name) :
    Offer → Machine (Recipe κ) (Teardown κ) (Site κ σ) α → Prop
  | .awaited, m => m.Within D (some n) n ∧ m.producing? ≠ some n ∧ m.registry.Bare n
  | .offered raw, m => m.Within D none n ∧ m.producing? ≠ some n ∧
    m.registry.producers.get? n = some (.earlyReference n raw) ∧ m.registry.early.get? n = none
  | .taken raw, m => m.Within D none n ∧ m.Crafts c b n raw ∧ m.registry.Bare n
  | .made i, m => m.Within D none n ∧ m.producing? ≠ some n ∧
    m.registry.producers.get? n = none ∧ m.registry.early.get? n = some i
  | .gone, m => m.Within D none n ∧ m.producing? ≠ some n ∧ m.registry.Bare n

/-- Where an offer stands, the machine is within the creation. -/
theorem Stands.within {m : Machine (Recipe κ) (Teardown κ) (Site κ σ) α} {o : Offer}
    (h : m.Stands c b D n o) :
  ∃ own, m.Within D own n
  := by
  cases o with
  | awaited | offered | taken | made | gone => exact ⟨_, h.1⟩

/-- What the next step of a machine makes of an offer. -/
inductive Turns (c : Container κ) (b : Behaviour κ σ) (n : Name)
    (m : Machine (Recipe κ) (Teardown κ) (Site κ σ) α) : Offer → Offer → Prop
  /-- Still nothing is offered. -/
  | waits : Turns c b n m .awaited .awaited
  /-- The offer is made. -/
  | published (raw : Ref) : Turns c b n m .awaited (.offered raw)
  /-- Everything stays as it is. -/
  | stays (o : Offer) (spared : m.task? ≠ some (.destroy n)) (unmade : ∀ p i, ¬ m.Materializes n p i) :
    Turns c b n m o o
  /-- A lookup takes the offer. -/
  | taken (raw : Ref) : Turns c b n m (.offered raw) (.taken raw)
  /-- The interceptors fail, and the offer stands again. -/
  | returned (raw : Ref) (unmade : ∀ p i, ¬ m.Materializes n p i) :
    Turns c b n m (.taken raw) (.offered raw)
  /-- The interceptors have made the early reference. -/
  | made (raw i : Ref) (made : m.Materializes n (.earlyReference n raw) i)
      (u v : World (Recipe κ) (Teardown κ) (Site κ σ))
      (returns : (c.intercept b .earlyReference n raw).run.Returns (c.host b) u (.ok i) v) :
    Turns c b n m (.taken raw) (.made i)
  /-- The interceptors panic. -/
  | lost (raw : Ref) (unmade : ∀ p i, ¬ m.Materializes n p i) : Turns c b n m (.taken raw) .gone
  /-- The component is destroyed. -/
  | struck (o : Offer) (struck : m.task? = some (.destroy n)) : Turns c b n m o .gone

variable {o o' : Offer} {raw i : Ref}

/-- How a step treats the early tiers of a component whose early reference is not being made. -/
inductive Treats (host : Host (Recipe κ) (Teardown κ) (Site κ σ)) (n : Name)
    (m : Machine (Recipe κ) (Teardown κ) (Site κ σ) α) : Prop
  /-- They stay as they are. -/
  | spares (spared : m.task? ≠ some (.destroy n)) (aside : (m.step host).producing? ≠ some n)
      (producers : (m.step host).registry.producers.get? n = m.registry.producers.get? n)
      (early : (m.step host).registry.early.get? n = m.registry.early.get? n)
  /-- A lookup takes the producer. -/
  | takes {ρ : Role} {p : Recipe κ} (resume : Except Error (Option Ref) → Job κ σ (ρ.Result α))
      (below : Stack (Recipe κ) (Teardown κ) (Site κ σ) α ρ)
      (w : World (Recipe κ) (Teardown κ) (Site κ σ))
      (offered : m.registry.producers.get? n = some p)
      (next : m.step host
        = @running _ _ _ α .maker (host.make p) (.producing n p resume below) w)
      (bare : w.registry.Bare n)
  /-- A destruction empties them. -/
  | strikes (struck : m.task? = some (.destroy n)) (aside : (m.step host).producing? ≠ some n)
      (bare : (m.step host).registry.Bare n)

/-- A step that neither makes an offer nor goes on with an early reference treats what there is
early of the component in one of the ways listed. -/
theorem Within.treats (h : m.Within D own n) (quiet : ∀ p, ¬ m.Publishes n p)
    (unmaking : m.producing? ≠ some n) (host : Host (Recipe κ) (Teardown κ) (Site κ σ)) :
  m.Treats host n
  := by
  by_cases seeks : ∃ p, m.sought? = some (n, p)
  · obtain ⟨p, sought⟩ := seeks
    obtain ⟨ρ, early, r, next, stack, w, rfl, pending⟩ := of_sought sought
    refine .takes (p := p) next stack { w with registry := r } ?_ ?_ ?_
    · exact (bare_of_sought sought host).1
    · simp only [Machine.step, startLookup, pending]
    · exact (Registry.lends_of_pending pending).bare
  have aside : (m.step host).producing? ≠ some n := by
    intro making
    exact (h.confined.producing_step host making).elim unmaking seeks
  by_cases struck : m.task? = some (.destroy n)
  · obtain ⟨ρ, tasks, resume, stack, w, rfl⟩ := of_task struck
    exact .strikes struck aside (w.registry.bare_dropEarly n)
  by_cases touches : m.Touches n
  · exfalso
    cases touches with
    | binds i next stack w =>
      obtain ⟨⟨⟩⟩ | ⟨x, raw, ⟨⟩, -⟩ := h.confined.of_edit
    | publishes p publishes => exact quiet p publishes
    | removes removes =>
      unfold Removes at removes
      split at removes
      · obtain ⟨⟨⟩⟩ | ⟨x, raw, ⟨⟩, -⟩ := h.confined.of_edit
      · exact struck (congrArg (fun x => some (Task.destroy x)) removes)
      · exact absurd List.mem_cons_self h.confined.contained.1
      · exact removes
    | takes p sought => exact seeks ⟨p, sought⟩
    | keeps p i makes => exact unmaking makes.producing
    | restores p fails => exact unmaking fails.producing
    | ends collects ending => exact h.outside (mem_creations_of_ending ending)
  · obtain ⟨producers, early⟩ := tiers_of_not_touches touches host
    exact .spares struck aside producers early

/-- The interceptors go on making an early reference, or they have made it, or they have failed. -/
theorem Crafts.step (making : m.Crafts c b n raw) (h : m.Within D none n)
    (next : (m.step (c.host b)).Within D none n) (bare : m.registry.Bare n) :
  ∃ o, m.Turns c b n (.taken raw) o ∧ (m.step (c.host b)).Stands c b D n o
  := by
  obtain ⟨secluded, u, resume, below, w, rest⟩ := making
  have aside : below.producing? ≠ some n := by
    rw [Stack.producing?_of_open h.confined.contained.2.2.1.isOpen]
    nofun
  cases secluded with
  | done outcome =>
    rcases outcome with e | i
    · have unmade : ∀ p i, ¬ (@running _ _ _ α .maker (.done (.error e))
          (.producing n (.earlyReference n raw) resume below) w).Materializes n p i :=
        fun _ _ h => nomatch h.2.2
      obtain ⟨offered, none⟩ | bare := bare.restore (.earlyReference n raw)
      · exact ⟨.offered raw, .returned raw unmade, next, aside, offered, none⟩
      · exact ⟨.gone, .lost raw unmade, next, aside, bare⟩
    · refine ⟨.made i, .made raw i ⟨rfl, rfl, rfl⟩ u w (rest _ _ (Client.returns_done _ w)), next,
        aside, bare.1, ?_⟩
      exact Catalog.get?_insert_self _ _ _
  | panic p =>
    exact ⟨.gone, .lost raw (fun _ _ h => nomatch h), next, nofun, bare⟩
  | view hn =>
    refine ⟨.taken raw, .stays _ nofun (fun _ _ h => nomatch h), next, ?_, bare⟩
    refine .intro (hn _ _) u resume below w fun outcome v returns => rest outcome v ?_
    intro _ _ next stack
    exact Leads.step (returns next stack)
  | revise keeps hn =>
    refine ⟨.taken raw, .stays _ nofun (fun _ _ h => nomatch h), next, ?_, bare⟩
    refine .intro hn u resume below _ fun outcome v returns => rest outcome v ?_
    intro _ _ next stack
    exact Leads.step (returns next stack)

/-- An offer can be taken from then on. -/
theorem Stands.published (hb : b.Confined D) {p : Recipe κ} (h : m.Stands c b D n .awaited)
    (publishes : m.Publishes n p) :
  ∃ raw, p = .earlyReference n raw ∧ (m.step (c.host b)).Stands c b D n (.offered raw)
  := by
  obtain ⟨within, -, -⟩ := h
  obtain ⟨-, raw, after, w, rfl, reserved, rfl⟩ := within.of_publishes publishes
  have next := within.step (c := c) hb
  refine ⟨raw, rfl, ⟨?_, next.entered, next.bound, next.unfinished, next.outside⟩, nofun,
    Registry.publish_unfinished within.unfinished _⟩
  exact .running ⟨fun _ => (reserved _).of_reserved, fun closed => absurd trivial closed⟩ trivial
    next.confined.world

/-- Each step of a machine is a turn of the offer. -/
theorem Stands.step (hb : b.Confined D) (h : m.Stands c b D n o) :
  ∃ o', m.Turns c b n o o' ∧ (m.step (c.host b)).Stands c b D n o'
  := by
  cases o with
  | awaited =>
    -- only the construction itself offers the instance, and it does so once
    by_cases publishes : ∃ p, m.Publishes n p
    · obtain ⟨p, publishes⟩ := publishes
      obtain ⟨raw, -, next⟩ := h.published hb publishes
      exact ⟨.offered raw, .published raw, next⟩
    · obtain ⟨within, aside, bare⟩ := h
      have quiet := not_exists.mp publishes
      have next := within.step (c := c) hb
      cases within.treats quiet aside (c.host b) with
      | spares spared aside producers early =>
        exact ⟨.awaited, .waits, next, aside, producers.trans bare.1, early.trans bare.2⟩
      | takes resume below w offered => cases bare.1.symm.trans offered
      | strikes struck aside bare => exact ⟨.awaited, .waits, next, aside, bare⟩
  | offered raw =>
    obtain ⟨within, aside, offered, unmade⟩ := h
    have next := within.step (c := c) hb
    cases within.treats (within.quiet) aside (c.host b) with
    | spares spared aside' producers early =>
      exact ⟨.offered raw, .stays _ spared fun _ _ h => aside h.producing, next, aside',
        producers.trans offered, early.trans unmade⟩
    | takes resume below w taken stepped bare =>
      obtain rfl := Option.some.inj (offered.symm.trans taken)
      use .taken raw, .taken raw, next
      rw [stepped]
      exact ⟨.intro (hb.intercept c .earlyReference n raw) w resume below w fun _ _ => id, bare⟩
    | strikes struck aside bare => exact ⟨.gone, .struck _ struck, next, aside, bare⟩
  | taken raw =>
    obtain ⟨within, making, bare⟩ := h
    exact making.step within (within.step hb) bare
  | made i =>
    obtain ⟨within, aside, unoffered, made⟩ := h
    have next := within.step (c := c) hb
    cases within.treats (within.quiet) aside (c.host b) with
    | spares spared aside' producers early =>
      exact ⟨.made i, .stays _ spared fun _ _ h => aside h.producing, next, aside',
        producers.trans unoffered, early.trans made⟩
    | takes resume below w offered => cases unoffered.symm.trans offered
    | strikes struck aside bare => exact ⟨.gone, .struck _ struck, next, aside, bare⟩
  | gone =>
    obtain ⟨within, aside, bare⟩ := h
    have next := within.step (c := c) hb
    cases within.treats (within.quiet) aside (c.host b) with
    | spares spared aside' producers early =>
      exact ⟨.gone, .stays _ spared fun _ _ h => aside h.producing, next, aside',
        producers.trans bare.1, early.trans bare.2⟩
    | takes resume below w offered => cases bare.1.symm.trans offered
    | strikes struck aside bare => exact ⟨.gone, .struck _ struck, next, aside, bare⟩

/-! ### Runs -/

/-- An early reference is kept while it is being made. -/
theorem Stands.of_materializes {p : Recipe κ} (h : m.Stands c b D n o)
    (made : m.Materializes n p i) :
  ∃ raw, o = .taken raw
  := by
  cases o with
  | taken raw => exact ⟨raw, rfl⟩
  | awaited | offered | made | gone => exact absurd made.producing h.2.1

/-- The registry has an early reference exactly if the offer has led to it. -/
theorem Stands.early_iff (h : m.Stands c b D n o) :
  m.registry.early.get? n = some i ↔ o = .made i
  := by
  have none (none : m.registry.early.get? n = none) (o : Offer) (ne : o ≠ .made i) :
      m.registry.early.get? n = some i ↔ o = .made i := by
    rw [none]
    exact iff_of_false nofun ne
  cases o with
  | awaited => exact none h.2.2.2 _ nofun
  | offered raw => exact none h.2.2.2 _ nofun
  | taken raw => exact none h.2.2.2 _ nofun
  | gone => exact none h.2.2.2 _ nofun
  | made j => rw [h.2.2.2, Option.some_inj, Offer.made.injEq]

/-- The early reference after a step is the one that was kept, or the one before unless the
component was destroyed. -/
theorem Stands.early_step (hb : b.Confined D) (h : m.Stands c b D n o) :
  (m.step (c.host b)).registry.early.get? n = some i ↔ (∃ p, m.Materializes n p i) ∨
    m.registry.early.get? n = some i ∧ m.task? ≠ some (.destroy n)
  := by
  obtain ⟨o', turn, next⟩ := h.step hb
  rw [next.early_iff, h.early_iff]
  have unmade (ne : ∀ raw, o ≠ .taken raw) (p : Recipe κ) : ¬ m.Materializes n p i := by
    intro made
    obtain ⟨raw, same⟩ := h.of_materializes made
    exact ne raw same
  constructor
  · rintro rfl
    cases turn with
    | stays _ spared => exact .inr ⟨rfl, spared⟩
    | made raw _ made => exact .inl ⟨_, made⟩
  · rintro (⟨p, made⟩ | ⟨rfl, spared⟩)
    · cases turn with
      | waits | published | taken => exact absurd made (unmade nofun p)
      | stays _ _ none | returned _ none | lost _ none => exact absurd made (none p i)
      | struck _ struck => exact absurd struck (made.task _)
      | made raw j made' =>
        obtain ⟨-, rfl⟩ := made.unique made'
        rfl
    · cases turn with
      | stays => rfl
      | struck _ struck => exact absurd struck spared

/-- What every turn keeps of an offer stays throughout a run. -/
theorem Stands.runFor_of (hb : b.Confined D) {P : Offer → Prop}
    (keeps : ∀ (m : Machine (Recipe κ) (Teardown κ) (Site κ σ) α) o o', m.Turns c b n o o' →
      P o → P o') (h : m.Stands c b D n o) (ho : P o) (k : Nat) :
  ∃ o', P o' ∧ (runFor (c.host b) k m).Stands c b D n o'
  := by
  induction k generalizing m o with
  | zero => exact ⟨o, ho, h⟩
  | succ k ih =>
    obtain ⟨o', turn, next⟩ := h.step hb
    rw [runFor_succ]
    exact ih next (keeps m o o' turn ho)

/-- In every run an offer stands, in one state or another. -/
theorem Stands.runFor (hb : b.Confined D) (h : m.Stands c b D n o) (k : Nat) :
  ∃ o', (runFor (c.host b) k m).Stands c b D n o'
  := by
  obtain ⟨o', -, h⟩ := h.runFor_of hb (P := fun _ => True) (fun _ _ _ _ => id) trivial k
  exact ⟨o', h⟩

/-- An offer that is spent stays so. -/
theorem Turns.spent (h : m.Turns c b n o o') (spent : o.Spent) :
  o'.Spent
  := by
  cases h with
  | stays => exact spent
  | struck => trivial
  | waits | published | taken | returned | made | lost => cases spent

/-- A turn does not change the instance to which early references can be made. -/
theorem Turns.of (h : m.Turns c b n o o') (ho : o.Of raw) :
  o'.Of raw
  := by
  cases h with
  | waits | published => cases ho
  | stays | taken | returned => exact ho
  | made | lost | struck => trivial

/-- After an early reference has been kept no other one is made. -/
theorem Stands.spent (hb : b.Confined D) {j k : Nat} {p : Recipe κ} (h : m.Stands c b D n o)
    (made : (Machine.runFor (c.host b) j m).Materializes n p i) (later : j < k) :
  ∃ o', o'.Spent ∧ (Machine.runFor (c.host b) k m).Stands c b D n o'
  := by
  obtain ⟨d, rfl⟩ := Nat.exists_eq_add_of_lt later
  obtain ⟨o', h⟩ := h.runFor hb j
  obtain ⟨raw, rfl⟩ := h.of_materializes made
  obtain ⟨o', turn, next⟩ := h.step hb
  have spent : o'.Spent := by
    cases turn with
    | stays _ _ none | returned _ none | lost _ none => exact absurd made (none p i)
    | struck | made => trivial
  rw [Nat.add_right_comm, runFor_add, runFor_step]
  exact next.runFor_of hb (fun _ _ _ => Turns.spent) spent d

/-- An early reference is made once. -/
theorem Stands.once (hb : b.Confined D) {j k : Nat} {p q : Recipe κ} {i' : Ref}
    (h : m.Stands c b D n o) (made : (Machine.runFor (c.host b) j m).Materializes n p i)
    (again : (Machine.runFor (c.host b) k m).Materializes n q i') :
  j = k
  := by
  have ahead {j k : Nat} {p q : Recipe κ} {i i' : Ref}
      (made : (Machine.runFor (c.host b) j m).Materializes n p i)
      (again : (Machine.runFor (c.host b) k m).Materializes n q i') : ¬ j < k := by
    intro later
    obtain ⟨o', spent, h⟩ := h.spent hb made later
    obtain ⟨raw, rfl⟩ := h.of_materializes again
    cases spent
  exact Nat.le_antisymm (Nat.not_lt.mp (ahead again made)) (Nat.not_lt.mp (ahead made again))

/-- The interceptors make the early reference from the instance that was offered. -/
theorem Stands.source (hb : b.Confined D) {k : Nat} {p : Recipe κ} (h : m.Stands c b D n o)
    (ho : o.Of raw) (made : (Machine.runFor (c.host b) k m).Materializes n p i) :
  p = .earlyReference n raw ∧ ∃ u v,
    (c.intercept b .earlyReference n raw).run.Returns (c.host b) u (.ok i) v
  := by
  obtain ⟨o', ho, h⟩ := h.runFor_of hb (fun _ _ _ => Turns.of) ho k
  obtain ⟨raw', rfl⟩ := h.of_materializes made
  obtain rfl : raw' = raw := ho
  obtain ⟨o', turn, -⟩ := h.step hb
  cases turn with
  | stays _ _ none | returned _ none | lost _ none => exact absurd made (none p i)
  | struck _ struck => exact absurd struck (made.task _)
  | made _ j made' u v returns =>
    obtain ⟨rfl, rfl⟩ := made.unique made'
    exact ⟨rfl, u, v, returns⟩

/-- The registry holds the early reference that was made in a run, as long as the component has not
been destroyed after that. -/
theorem Stands.early_runFor (hb : b.Confined D) (h : m.Stands c b D n .awaited) (k : Nat) :
  (Machine.runFor (c.host b) k m).registry.early.get? n = some i ↔
    ∃ j < k, (∃ p, (Machine.runFor (c.host b) j m).Materializes n p i) ∧
      ∀ l, j < l → l < k → (Machine.runFor (c.host b) l m).task? ≠ some (.destroy n)
  := by
  induction k with
  | zero =>
    rw [Machine.runFor, h.2.2.2]
    simp
  | succ k ih =>
    obtain ⟨o, ho⟩ := h.runFor hb k
    rw [runFor_step, ho.early_step hb, ih]
    constructor
    · rintro (made | ⟨⟨j, before, made, spared⟩, still⟩)
      · exact ⟨k, Nat.lt_succ_self k, made, fun l after within => absurd after (by omega)⟩
      · refine ⟨j, Nat.lt_succ_of_lt before, made, fun l after within => ?_⟩
        obtain within | rfl := Nat.lt_succ_iff_lt_or_eq.mp within
        · exact spared l after within
        · exact still
    · rintro ⟨j, before, made, spared⟩
      obtain before | rfl := Nat.lt_succ_iff_lt_or_eq.mp before
      · refine .inr ⟨⟨j, before, made, fun l after within => ?_⟩, spared k before (Nat.lt_succ_self k)⟩
        exact spared l after (Nat.lt_succ_of_lt within)
      · exact .inl made

/-- What the registry holds at the end of a run is the early reference that the run exposes. -/
theorem Stands.exposes_iff (hb : b.Confined D) (h : m.Stands c b D n .awaited)
    {outcome : Except Panic α} (ends : Leads (c.host b) m (.halted outcome w)) :
  m.Exposes (c.host b) n i ↔ w.registry.early.get? n = some i
  := by
  obtain ⟨k, ends⟩ := ends
  have after {l : Nat} (hl : k ≤ l) : Machine.runFor (c.host b) l m = .halted outcome w := by
    obtain ⟨d, rfl⟩ := Nat.exists_eq_add_of_le hl
    rw [runFor_add, ends, runFor_halted]
  have early := h.early_runFor (i := i) hb k
  rw [ends] at early
  apply Iff.trans _ early.symm
  constructor
  · rintro ⟨j, ⟨p, made⟩, spared⟩
    refine ⟨j, ?_, ⟨p, made⟩, fun l hl _ => spared l hl⟩
    by_contra late
    rw [after (Nat.not_lt.mp late)] at made
    cases made
  · rintro ⟨j, -, made, spared⟩
    refine ⟨j, made, fun l hl => ?_⟩
    obtain before | late := Nat.lt_or_ge l k
    · exact spared l hl before
    · rw [after late]
      nofun

end Machine

end Componentry
