import Componentry.Proofs.Episode

/-!
# Reconciliation of early references

At the end of a construction the instance that others have got early is reconciled with the one that
the interceptors have made of the component.  The main result, `reconciliation_exact`, says what
comes of this in every creation, whatever goes on in nested creations: the early reference is what
others get to see from then on, unless it is neither the raw instance nor the early reference that
the interceptors have put in its place.

A destruction of the component within its own creation takes the early reference away that was made
before.  By `made_unreconciled` the creation may succeed then although another component is finished
that keeps the early reference, and this is not the instance that is installed.
-/

namespace Componentry

open Machine

variable {κ σ α β : Type} {D : Catalog (Definition κ)} {c : Container κ} {b : Behaviour κ σ}
  {n : Name} {own : Option Name}

/-! ### Attempts that return -/

section Attempts

variable {φ δ μ : Type} {host : Host φ δ μ} {w w' : World φ δ μ} {a : α}

/-- An attempt that is bound to succeed with one result returns it. -/
theorem Attempt.Meets.returns {x : Attempt φ δ μ α}
    (h : Meets host w x (fun i v => i = a ∧ v = w') fun _ _ => False) :
  Client.Returns host x.run w (.ok a) w'
  := by
  obtain ⟨_ | _, _, returns, outcome⟩ := h
  · cases outcome
  · obtain ⟨rfl, rfl⟩ := outcome
    exact returns

/-- An attempt that goes on after another one that succeeds returns what comes last. -/
theorem Client.Returns.bind {x : Attempt φ δ μ α} {k : α → Attempt φ δ μ β} {w'' : World φ δ μ}
    {outcome : Except Error β} (h : Client.Returns host x.run w (.ok a) w')
    (h' : Client.Returns host (k a).run w' outcome w'') :
  Client.Returns host (x >>= k).run w outcome w''
  := h.andThen h'

/-- An attempt whose first part fails fails with its error. -/
theorem Client.Returns.bind_error {x : Attempt φ δ μ α} {k : α → Attempt φ δ μ β} {e : Error}
    (h : Client.Returns host x.run w (.error e) w') :
  Client.Returns host (x >>= k).run w (.error e) w'
  := h.andThen (k := ExceptT.bindCont k) (Client.returns_done _ _)

/-- An attempt that succeeds does so if its errors are caught. -/
theorem Client.Returns.uncaught {x : Attempt φ δ μ α} (h : Client.Returns host x.run w (.ok a) w')
    (k : Error → Attempt φ δ μ α) :
  Client.Returns host (tryCatch x k : Attempt φ δ μ α).run w (.ok a) w'
  := by
  apply Client.Returns.andThen h
  apply Client.returns_done

/-- What is done about an error is done in place of the attempt. -/
theorem Client.Returns.leads_caught {x : Attempt φ δ μ Ref} {e : Error}
    (h : Client.Returns host x.run w (.error e) w') (k : Error → Attempt φ δ μ Ref)
    (stack : Stack φ δ μ α .maker) :
  Leads host (@running _ _ _ _ .maker (tryCatch x k : Attempt φ δ μ Ref).run stack w)
    (@running _ _ _ _ .maker (k e).run stack w')
  := h (ρ := .maker) _ stack

/-- The run of an attempt in two parts comes to the second one, if the first one succeeds. -/
theorem Client.Returns.leads_bind {x : Attempt φ δ μ α} {k : α → Attempt φ δ μ β}
    (h : Client.Returns host x.run w (.ok a) w') :
  Leads host (start (x >>= k).run w) (start (k a).run w')
  := h (ρ := .main) _ .base

/-- What happens some time after a later moment happens some time after this one. -/
theorem Machine.Leads.eventually {m m' : Machine φ δ μ α} {P : Machine φ δ μ α → Prop}
    (h : Leads host m m') (later : ∃ k, P (runFor host k m')) :
  ∃ k, P (runFor host k m)
  := by
  obtain ⟨j, rfl⟩ := h
  obtain ⟨k, later⟩ := later
  use j + k
  rw [runFor_add]
  exact later

end Attempts

/-! ### Worlds within a creation -/

/-- The world after the instance `raw` of a component was offered to others. -/
def World.withOffer (w : World (Recipe κ) (Teardown κ) (Site κ σ)) (n : Name) (raw : Ref) :
    World (Recipe κ) (Teardown κ) (Site κ σ) :=
  w.onRegistry fun r => (r.edit (.publish n (.earlyReference n raw))).1

/-- A world in which a component that is not exempt is in creation. -/
structure World.Within (D : Catalog (Definition κ)) (n : Name)
    (w : World (Recipe κ) (Teardown κ) (Site κ σ)) : Prop where
  confined : w.Confined D
  entered : n ∈ w.registry.guard.inCreation
  bound : n ∉ w.registry.guard.exempt
  unfinished : w.registry.finished.get? n = none

namespace World.Within

variable {w w' : World (Recipe κ) (Teardown κ) (Site κ σ)} {a : α}

/-- A confined program that begins within a creation runs within it. -/
theorem start {p : Job κ σ α} (h : w.Within D n)
    (hp : p.Confined D ((Stack.base : Stack _ _ _ α _).Offering D own)) :
  (Machine.start p w).Within D own n
  where
  confined := .running ⟨fun _ => hp, fun closed => absurd trivial closed⟩ trivial h.confined
  entered := h.entered
  bound := h.bound
  unfinished := h.unfinished
  outside := by rintro ⟨⟩

/-- Confined programs do not end the creation within which they run. -/
theorem returns (hb : b.Confined D) (h : w.Within D n) {p : Job κ σ α} (hp : p.Reserved D)
    (returns : p.Returns (c.host b) w a w') :
  w'.Within D n
  := by
  have within {k : Nat} : (runFor (c.host b) k (Machine.start p w)).Within D none n := by
    induction k with
    | zero => exact h.start hp.of_reserved
    | succ k ih =>
      rw [runFor_step]
      exact ih.step hb
  obtain ⟨k, ends⟩ := returns.leads_halted
  have h := ends ▸ within (k := k)
  exact ⟨h.confined.world, h.entered, h.bound, h.unfinished⟩

/-- A component is still in creation after it was offered. -/
theorem withOffer (h : w.Within D n) (raw : Ref) :
  (w.withOffer n raw).Within D n
  := by
  unfold World.withOffer World.onRegistry
  have still := w.registry.still_edit (.publish n (.earlyReference n raw)) nofun nofun
  refine ⟨h.confined.publish n raw, ?_, ?_, ?_⟩
  · exact still.guard ▸ h.entered
  · exact still.guard ▸ h.bound
  · simp only [Registry.edit, Registry.publish]
    split <;> exact h.unfinished

/-- A look at a component in creation finds its early reference, or nothing. -/
theorem sight (h : w.Within D n) :
  w.registry.sight n false = .settled (w.registry.early.get? n)
  := by
  have entered : w.registry.guard.isEntered n = true := Roster.contains_iff.mpr h.entered
  simp only [Registry.sight, h.unfinished, entered]
  cases w.registry.early.get? n <;> rfl

/-- The guard takes a component in creation for one, if it is not exempt. -/
theorem isCurrentlyInCreation (h : w.Within D n) :
  w.registry.guard.isCurrentlyInCreation n = true
  := by
  have entered : w.registry.guard.isEntered n = true := Roster.contains_iff.mpr h.entered
  have bound : w.registry.guard.exempt.contains n = false :=
    eq_false_of_ne_true fun exempt => h.bound (Roster.contains_iff.mp exempt)
  rw [Guard.isCurrentlyInCreation, entered, bound]
  rfl

end World.Within

/-! ### Constructions -/

/-- Which instance others get to see, if the instance `raw` of a component was made into `exposed`,
and others have got `early` before. -/
def reconcile (n : Name) (raw exposed : Ref) : Option Ref → Except Error Ref
  | none => .ok exposed
  | some early =>
    if exposed = raw ∨ exposed = early then .ok early else .error (.earlyReferenceMismatch n)

namespace Container

variable (c : Container κ) (b : Behaviour κ σ)

/-- Creates the dependencies of a component and makes its instance. -/
def instantiation (n : Name) (d : Definition κ) : Trial κ σ Ref := do
  c.createDependencies n d.dependsOn
  b.instantiate d.instantiate n

/-- Makes an instance ready, with what the interceptors make of it. -/
def preparation (n : Name) (d : Definition κ) (raw : Ref) : Trial κ σ Ref := do
  wireWith b d.populate n raw
  let exposed ← c.intercept b .beforeInit n raw
  wireWith b d.init n exposed
  c.intercept b .afterInit n exposed

/-- Settles which instance others get to see, and sets its disposal up. -/
def conclusion (n : Name) (d : Definition κ) (raw exposed : Ref) (offered : Bool) :
    Trial κ σ Ref := do
  let exposed ← if offered then settle n raw exposed else pure exposed
  if let some k := d.dispose then
    Attempt.edit (.onDestroy n (.hook n k exposed))
  return exposed

/-- A construction makes an instance, offers it to others, makes it ready and settles which one
others get to see. -/
theorem construct_parts (allowed : c.settings.allowCircularReferences = true) (n : Name)
    (d : Definition κ) :
  c.construct b n d = (do
    let raw ← c.instantiation b n d
    let offered ← Attempt.reads fun r => r.guard.isCurrentlyInCreation n
    if offered then
      discard (Attempt.edit (.publish n (.earlyReference n raw)))
    let exposed ← c.preparation b n d raw
    conclusion n d raw exposed offered)
  := by
  simp only [construct, allowed, instantiation, preparation, bind_assoc, if_true]
  rfl

end Container

namespace Behaviour.Confined

open Attempt

variable (hb : b.Confined D) (c : Container κ)

include hb

/-- To create the dependencies of a component and make its instance is reserved. -/
theorem instantiation (n : Name) (d : Definition κ) :
  Client.Reserved D (c.instantiation b n d).run
  := by
  apply confined_bind (c.reserved_createDependencies n d.dependsOn)
  intro _
  apply hb.instantiate

/-- To make an instance ready is reserved. -/
theorem preparation (n : Name) (d : Definition κ) (raw : Ref) :
  Client.Reserved D (c.preparation b n d raw).run
  := by
  apply confined_bind (hb.wireWith d.populate n raw)
  intro _
  apply confined_bind (hb.intercept c .beforeInit n raw).confined
  intro i
  apply confined_bind (hb.wireWith d.init n i)
  intro _
  exact (hb.intercept c .afterInit n i).confined

end Behaviour.Confined

section Episodes

open Attempt

variable {w u v : World (Recipe κ) (Teardown κ) (Site κ σ)} {d : Definition κ} {raw exposed : Ref}

/-- Within a creation the instance that others get to see is the one to which the early reference
that the registry has is reconciled. -/
theorem Container.returns_settle (host : Host (Recipe κ) (Teardown κ) (Site κ σ)) (h : w.Within D n)
    (raw exposed : Ref) :
  (Container.settle n raw exposed : Trial κ σ Ref).run.Returns host w
    (reconcile n raw exposed (w.registry.early.get? n)) w
  := by
  have looked : (Attempt.lookup n false : Trial κ σ _).run.Returns host w
      (.ok (w.registry.early.get? n)) w := (meets_lookup_settled h.sight ⟨rfl, rfl⟩).returns
  apply looked.bind
  cases w.registry.early.get? n with
  | none => exact Client.returns_done _ _
  | some early =>
    unfold reconcile
    dsimp only
    by_cases same : exposed = raw
    · rw [if_pos same, if_pos (.inl same)]
      exact Client.returns_done _ _
    · by_cases kept : exposed = early
      · rw [if_neg same, if_pos kept, if_pos (.inr kept), kept]
        exact Client.returns_done _ _
      · rw [if_neg same, if_neg kept, if_neg (not_or.mpr ⟨same, kept⟩)]
        exact Client.returns_done _ _

/-- At the end of a construction the instance is reconciled with what the registry holds. -/
theorem Container.returns_conclusion (host : Host (Recipe κ) (Teardown κ) (Site κ σ))
    (h : w.Within D n) (d : Definition κ) (raw exposed : Ref) :
  ∃ w', (Container.conclusion n d raw exposed true : Trial κ σ Ref).run.Returns host w
      (reconcile n raw exposed (w.registry.early.get? n)) w' ∧
    w'.registry.early = w.registry.early
  := by
  have settled := Container.returns_settle host h raw exposed
  generalize reconcile n raw exposed (w.registry.early.get? n) = outcome at settled ⊢
  cases outcome with
  | error e => exact ⟨w, settled.bind_error, rfl⟩
  | ok i =>
    cases disposal : d.dispose with
    | none =>
      refine ⟨w, settled.bind ?_, rfl⟩
      rw [disposal]
      exact Client.returns_done _ _
    | some k =>
      refine ⟨{ w with registry := (w.registry.edit (.onDestroy n (.hook n k i))).1 },
        settled.bind ?_, rfl⟩
      rw [disposal]
      apply Meets.returns
      apply meets_bind
      apply meets_edit
      exact meets_pure ⟨rfl, rfl⟩

variable {c : Container κ} {b : Behaviour κ σ}

/-- Nothing is offered when a construction begins. -/
theorem World.Within.awaits (hb : b.Confined D) (h : w.Within D n) (bare : w.registry.Bare n)
    (d : Definition κ) :
  (Machine.start (c.construct b n d).run w).Stands c b D n .awaited
  := by
  refine ⟨h.start ?_, nofun, bare⟩
  rw [← Client.andThen_done (c.construct b n d).run]
  apply (hb.construct c n d).andThen _ Client.Confined.done
  intro p hp
  exact .last ⟨n, rfl, hp.andThen Client.Confined.done⟩

/-- The component is still in creation when its instance was made. -/
theorem World.Within.instantiated (hb : b.Confined D) (h : w.Within D n)
    (made : (c.instantiation b n d).run.Returns (c.host b) w (.ok raw) u) :
  u.Within D n
  := h.returns hb (hb.instantiation c n d) made

/-- The early reference of a component is made from the instance that its construction has made. -/
theorem Container.early_source (hb : b.Confined D)
    (allowed : c.settings.allowCircularReferences = true) (h : w.Within D n)
    (bare : w.registry.Bare n)
    (made : (c.instantiation b n d).run.Returns (c.host b) w (.ok raw) u) {k : Nat}
    {p : Recipe κ} {i : Ref}
    (materializes : (runFor (c.host b) k (start (c.construct b n d).run w)).Materializes n p i) :
  p = .earlyReference n raw ∧ ∃ u v,
    (c.intercept b .earlyReference n raw).run.Returns (c.host b) u (.ok i) v
  := by
  have begins := h.awaits (c := c) hb bare d
  -- the construction comes to the moment at which it offers the instance
  have offers : ∃ j, (runFor (c.host b) j (start (c.construct b n d).run w)).Publishes n
      (.earlyReference n raw) := by
    have checked : (Attempt.reads fun r => r.guard.isCurrentlyInCreation n :
        Trial κ σ Bool).run.Returns (c.host b) u (.ok true) u :=
      (meets_reads ⟨(h.instantiated hb made).isCurrentlyInCreation, rfl⟩).returns
    rw [c.construct_parts b allowed]
    apply made.leads_bind.eventually
    apply checked.leads_bind.eventually
    exact ⟨0, rfl, rfl⟩
  obtain ⟨j, publishes⟩ := offers
  obtain ⟨o, stands⟩ := begins.runFor hb j
  obtain rfl : o = .awaited := by
    cases o with
    | awaited => rfl
    | offered | taken | made | gone => exact absurd publishes (stands.1.quiet _)
  obtain ⟨raw', same, offered⟩ := stands.published hb publishes
  cases same
  rw [← runFor_step] at offered
  -- until then no early reference was made
  have later : j < k := by
    obtain before | rfl | later := Nat.lt_trichotomy k j
    · obtain ⟨o, spent, stands⟩ := begins.spent hb materializes before
      cases o with
      | made | gone => exact absurd publishes (stands.1.quiet _)
      | awaited | offered | taken => cases spent
    · exact absurd materializes.producing stands.2.1
    · exact later
  obtain ⟨l, rfl⟩ := Nat.exists_eq_add_of_lt later
  rw [Nat.add_right_comm, runFor_add] at materializes
  exact offered.source hb rfl materializes

/-- If all the steps of a construction succeed, its outcome is that of the reconciliation with the
early reference that it exposes. -/
theorem Container.reconciles (hb : b.Confined D)
    (allowed : c.settings.allowCircularReferences = true) (h : w.Within D n)
    (bare : w.registry.Bare n)
    (made : (c.instantiation b n d).run.Returns (c.host b) w (.ok raw) u)
    (ready : (c.preparation b n d raw).run.Returns (c.host b) (u.withOffer n raw) (.ok exposed) v) :
  ∃ held w', (∀ i, held = some i ↔
      (start (c.construct b n d).run w).Exposes (c.host b) n i) ∧
    (c.construct b n d).run.Returns (c.host b) w (reconcile n raw exposed held) w' 
  := by
  have instantiated := h.instantiated hb made
  have prepared := (instantiated.withOffer raw).returns hb (hb.preparation c n d raw) ready
  obtain ⟨w', concluded, early⟩ := Container.returns_conclusion (c.host b) prepared d raw
    exposed
  have returns : (c.construct b n d).run.Returns (c.host b) w
      (reconcile n raw exposed (v.registry.early.get? n)) w' := by
    rw [c.construct_parts b allowed]
    apply made.bind
    have checked : (Attempt.reads fun r => r.guard.isCurrentlyInCreation n :
        Trial κ σ Bool).run.Returns (c.host b) u (.ok true) u :=
      (meets_reads ⟨instantiated.isCurrentlyInCreation, rfl⟩).returns
    apply checked.bind
    have offered : (discard (Attempt.edit (.publish n (.earlyReference n raw))) :
        Trial κ σ Unit).run.Returns (c.host b) u (.ok ()) (u.withOffer n raw) :=
      (meets_map (meets_edit ⟨rfl, rfl⟩)).returns
    apply offered.bind
    exact ready.bind concluded
  refine ⟨v.registry.early.get? n, w', ?_, returns⟩
  intro i
  rw [(h.awaits hb bare d).exposes_iff hb returns.leads_halted, early]

/-- What a construction does with early references to its component, when it is begun in the world
`w`. -/
structure Container.Reconciles (c : Container κ) (b : Behaviour κ σ) (n : Name) (d : Definition κ)
    (w : World (Recipe κ) (Teardown κ) (Site κ σ)) : Prop where
  /-- An early reference is made at most once, whoever asks for it. -/
  once : ∀ j k p q i i', (runFor (c.host b) j (start (c.construct b n d).run w)).Materializes n p i →
    (runFor (c.host b) k (start (c.construct b n d).run w)).Materializes n q i' → j = k
  /-- The interceptors make it from the raw instance. -/
  source : ∀ raw u, (c.instantiation b n d).run.Returns (c.host b) w (.ok raw) u → ∀ k p i,
    (runFor (c.host b) k (start (c.construct b n d).run w)).Materializes n p i →
    p = .earlyReference n raw ∧
      ∃ u v, (c.intercept b .earlyReference n raw).run.Returns (c.host b) u (.ok i) v
  /-- If the steps of the construction succeed, the instance that they have made is reconciled with
  the early reference that is exposed. -/
  outcome : ∀ raw u, (c.instantiation b n d).run.Returns (c.host b) w (.ok raw) u → ∀ exposed v,
    (c.preparation b n d raw).run.Returns (c.host b) (u.withOffer n raw) (.ok exposed) v →
    ∃ held w', (∀ i, held = some i ↔ (start (c.construct b n d).run w).Exposes (c.host b) n i) ∧
      (c.construct b n d).run.Returns (c.host b) w (reconcile n raw exposed held) w'

/-- A construction that begins within the creation of its component, with nothing of it in the early
tiers, reconciles. -/
theorem World.Within.reconciles (hb : b.Confined D)
    (allowed : c.settings.allowCircularReferences = true) (h : w.Within D n)
    (bare : w.registry.Bare n) (d : Definition κ) :
  c.Reconciles b n d w
  where
  once _ _ _ _ _ _ := (h.awaits hb bare d).once hb
  source _ _ made _ _ _ := Container.early_source hb allowed h bare made
  outcome _ _ made _ _ := Container.reconciles hb allowed h bare made

end Episodes

/-! ### The tiers throughout a run -/

namespace Machine

variable {m : Machine (Recipe κ) (Teardown κ) (Site κ σ) α} {ρ : Role}
  {stack : Stack (Recipe κ) (Teardown κ) (Site κ σ) α ρ}
  {w : World (Recipe κ) (Teardown κ) (Site κ σ)} {most : Nat} {exempt : Roster}

/-- A component that is created and not exempt is known to the guard. -/
theorem Tracked.entered (h : m.Tracked most) (hn : n ∈ m.creations)
    (bound : n ∉ m.registry.guard.exempt) :
  n ∈ m.registry.guard.inCreation
  := by
  rw [Roster.mem_iff, h.tracks.guard.inCreation]
  exact List.mem_filter.mpr ⟨hn, by simpa using bound⟩

/-- A producer of early references to a component that is not exempt is there only while the
component is in creation. -/
theorem offered_step (h : m.Confined D none) (tracked : m.Tracked most) (tiered : m.registry.Tiered)
    (sheltered : m.Sheltered) (bound : n ∉ m.registry.guard.exempt)
    (offered : m.registry.producers.get? n ≠ none → n ∈ m.registry.guard.inCreation)
    (still : (m.step (c.host b)).registry.producers.get? n ≠ none) :
  n ∈ (m.step (c.host b)).registry.guard.inCreation
  := by
  have ended := (tiered_step tiered tracked sheltered (c.host b)).2
  have alters := alters_step (c.host b) m
  revert still ended
  generalize (m.step (c.host b)).registry = r at alters ⊢
  intro still ended
  -- a creation that ends takes its producer with it, so that what is left belongs to another
  have left {x : Name} {collects : Bool} (ending : m.ending? = some (x, collects))
      (before : m.registry.producers.get? n ≠ none) :
      n ∈ (m.registry.guard.leave x).1.inCreation := by
    apply Guard.mem_leave_of_ne (offered before)
    rintro rfl
    exact still (ended n collects ending).1
  have erased {x : Name} {r : Registry (Recipe κ) (Teardown κ)}
      (h : (r.producers.erase x).get? n ≠ none) : r.producers.get? n ≠ none :=
    mt (Catalog.get?_erase_of_eq_none · x) h
  cases alters with
  | keeps | memoizes | marks | releases | forgets => exact offered still
  | clears => exact absurd rfl still
  | withdraws => exact offered (erased still)
  | edits e next stack w =>
    obtain he | ⟨x, raw, rfl, owner⟩ := h.of_edit
    · cases e with
      | bind | publish | remove | setExempt => cases he
      | suppress | depend | contain | onDestroy => exact offered still
    · rw [(w.registry.still_edit (.publish x (.earlyReference x raw)) nofun nofun).guard]
      by_cases same : n = x
      · apply tracked.entered _ bound
        subst same
        cases stack with
        | base | producing | disposing | protecting => cases owner
        | creating x collects resume below =>
          obtain rfl := Option.some.inj owner
          simp [Machine.creations, Stack.creations]
      · apply offered
        intro none
        exact still ((Registry.publish_of_ne same _).1.trans none)
  | takes next stack w pending =>
    obtain ⟨-, -, rfl⟩ := Registry.of_sight_pending pending
    exact offered (erased still)
  | restores x producer e resume below w =>
    rw [(w.registry.still_restore x producer).guard]
    by_cases same : n = x
    · rw [same]
      exact sheltered.2.entered
    · apply offered
      intro none
      exact still ((Registry.restore_of_ne same _).1.trans none)
  | admits factory next stack w admitted =>
    obtain ⟨-, -, guard, _, entered, -, -, rfl⟩ := Registry.of_admitted admitted
    exact Guard.mem_of_enter entered (offered still)
  | leaves x collects => exact left rfl still
  | installs | drops | abandons => exact left rfl (erased still)

/-- Creations are in order at every moment; and what is in the early tiers is of components in
creation, or a panic brings everything to an end. -/
structure Tidy (D : Catalog (Definition κ)) (most : Nat) (exempt : Roster)
    (m : Machine (Recipe κ) (Teardown κ) (Site κ σ) α) : Prop where
  ordered : m.Ordered D most exempt
  sheltered : m.Sheltered
  tiers : ¬ m.Doomed → m.registry.Tiered ∧
    ∀ n ∉ exempt, m.registry.producers.get? n ≠ none → n ∈ m.registry.guard.inCreation

/-- Every step leaves a machine tidy. -/
theorem Tidy.step (hb : b.Confined D) (h : m.Tidy D most exempt) :
  (m.step (c.host b)).Tidy D most exempt
  where
  ordered := h.ordered.step hb
  sheltered := h.sheltered.step _ h.ordered.confined.discreet
  tiers sound := by
    have before : ¬ m.Doomed := fun doomed => sound (doomed.step h.ordered.confined _).1
    have tracked := h.ordered.tracked.resolve_right before
    obtain ⟨tiered, offered⟩ := h.tiers before
    use (tiered_step tiered tracked h.sheltered _).1
    intro n bound
    rw [← h.ordered.exemptions] at bound
    apply offered_step h.ordered.confined tracked tiered h.sheltered bound
    apply offered n
    rw [← h.ordered.exemptions]
    exact bound

/-- A tidy machine is tidy at every moment of its run. -/
theorem Tidy.runFor (hb : b.Confined D) (h : m.Tidy D most exempt) (k : Nat) :
  (runFor (c.host b) k m).Tidy D most exempt
  := by
  induction k generalizing m with
  | zero => exact h
  | succ k ih =>
    rw [runFor_succ]
    exact ih (h.step hb)

end Machine

/-! ### Creations of a run -/

namespace Guard

variable {g g' : Guard}

/-- What is not exempt is entered by the creation that begins, and was not entered before. -/
theorem entered_of_enter (h : g.enter n = .ok g') (bound : n ∉ g.exempt) :
  n ∉ g.inCreation ∧ n ∈ g'.inCreation
  := by
  simp only [enter, if_neg bound] at h
  split at h
  · cases h
  · split at h
    · cases h
    · rename_i outside
      cases h
      exact ⟨outside, Roster.mem_insert.mpr (.inr rfl)⟩

/-- A creation that was entered, and whose name is not exempt, can be left. -/
theorem leave_of_entered (entered : n ∈ g.inCreation) (bound : n ∉ g.exempt) :
  (g.leave n).2 = none
  := by
  simp only [leave, if_neg bound, if_pos entered]

end Guard

/-- What a program returns is left on top of the stack. -/
theorem Client.Returns.onto {φ δ μ : Type} {host : Host φ δ μ} {ρ : Role}
    {p : Client φ δ μ (ρ.Result α)} {w w' : World φ δ μ} {a : ρ.Result α}
    (h : p.Returns host w a w') (stack : Stack φ δ μ α ρ) :
  Leads host (running p stack w) (running (.done a) stack w')
  := by
  have h := h .done stack
  rw [andThen_done] at h
  exact h

section Creations

variable {ρ : Role} {stack : Stack (Recipe κ) (Teardown κ) (Site κ σ) α ρ}
  {next : Except Error Materialized → Job κ σ (ρ.Result α)} {d : Definition κ} {collects : Bool}
  {w w' : World (Recipe κ) (Teardown κ) (Site κ σ)}

/-- A construction that succeeds hands its instance to the creation. -/
theorem Container.leads_of_construct {i : Ref}
    (returns : (c.construct b n d).run.Returns (c.host b) w (.ok i) w') :
  Leads (c.host b)
    (@running _ _ _ α .maker ((c.host b).make (.component n d)) (.creating n collects next stack) w)
    (@running _ _ _ α .maker (.done (.ok i)) (.creating n collects next stack) w')
  := (returns.uncaught _).onto (ρ := .maker) _

/-- A construction that fails destroys the component and fails the creation, unless someone panics
who hears of the destruction. -/
theorem Container.leads_of_construct_error (hb : b.Confined D) {e : Error}
    (returns : (c.construct b n d).run.Returns (c.host b) w (.error e) w') :
  ∃ w'', Leads (c.host b)
      (@running _ _ _ α .maker ((c.host b).make (.component n d)) (.creating n collects next stack) w)
      (@running _ _ _ α .maker (.done (.error e)) (.creating n collects next stack) w'') ∨
    ∃ q, Leads (c.host b)
      (@running _ _ _ α .maker ((c.host b).make (.component n d)) (.creating n collects next stack) w)
      (unwinding q (.creating n collects next stack) w'')
  := by
  have failed := returns.leads_caught (fun e => do
    Attempt.destroy n
    throw e) (.creating n collects next stack)
  have failed := failed.trans (Leads.step (Leads.refl _))
  obtain ⟨w'', a, -, leads⟩ | ⟨w'', q, leads⟩ := settles_tearing (r := w'.registry) hb [.destroy n]
    (ρ := .maker) (fun _ => .done (.error e)) (.creating n collects next stack) w' (.of_guard rfl)
  · exact ⟨w'', .inl (failed.trans leads)⟩
  · exact ⟨w'', .inr ⟨q, failed.trans leads⟩⟩

/-- The instance is installed when the creation ends. -/
theorem World.Within.installs (h : w.Within D n) (i : Ref)
    (host : Host (Recipe κ) (Teardown κ) (Site κ σ)) :
  (step host (@running _ _ _ α .maker (.done (.ok i))
    (.creating n collects next stack) w)).registry.finished.get? n = some i
  := by
  have entered : (w.registry.leave n collects).2 = none :=
    Guard.leave_of_entered h.entered h.bound
  have unfinished : (w.registry.leave n collects).1.finished.get? n = none := h.unfinished
  simp only [Machine.step, finish, finishCreation, entered, unfinished]
  apply announcing_of (P := fun m => m.registry.finished.get? n = some i)
  · intro _
    exact Catalog.get?_insert_self _ _ _
  · intro _ _
    exact Catalog.get?_insert_self _ _ _

/-- When the creation of a component begins that is not exempt, nothing of it is in the early
tiers. -/
theorem Machine.Tidy.begins {m : Machine (Recipe κ) (Teardown κ) (Site κ σ) α} {most : Nat}
    {exempt : Roster} (h : m.Tidy D most exempt) (bound : n ∉ exempt) {factory : Recipe κ}
    (asks : m = running (.create n factory next) stack w) {r : Registry (Recipe κ) (Teardown κ)}
    (admitted : w.registry.beginCreation n = .admitted collects r) {memory : Site κ σ}
    (heard : (c.host b).hear (.creating n) w.memory = (none, memory)) :
  World.Within D n ⟨r, memory⟩ ∧ r.Bare n
  := by
  subst asks
  obtain ⟨tiered, offered⟩ := h.tiers id
  obtain ⟨unfinished, -, guard, suppressed, he, -, -, rfl⟩ := Registry.of_admitted admitted
  have exemptions : w.registry.guard.exempt = exempt := h.ordered.exemptions
  obtain ⟨outside, entered⟩ := Guard.entered_of_enter he (exemptions ▸ bound)
  refine ⟨⟨?_, entered, ?_, unfinished⟩, ?_, ?_⟩
  · have same : memory.definitions = w.memory.definitions :=
      congrArg (fun heard => heard.2.definitions) heard.symm
    exact h.ordered.confined.world.of_subset same fun _ _ => id
  · change n ∉ guard.exempt
    rw [Guard.exempt_enter he, exemptions]
    exact bound
  · by_contra some
    exact outside (offered n bound some)
  · by_contra some
    exact outside (tiered.entered n some)

end Creations

/-- Creations in a container that allows circular references, of a component that is not exempt.  An
early reference to it is made at most once, by the interceptors from the raw instance.  If the
dependencies of the component are created, its instance is made and made ready, and all interceptors
succeed, the creation comes to what the reconciliation does with the early reference that was made,
if the component has not been destroyed after that: it fails with a mismatch, or the instance that
others get to see is installed. -/
theorem reconciliation_exact (hb : b.Confined D) (allowed : c.settings.allowCircularReferences = true)
    {p : Job κ σ α} (hp : p.Reserved D) {w : World (Recipe κ) (Teardown κ) (Site κ σ)}
    (rest : w.registry.AtRest) (hw : w.Confined D) (bare : ∀ m, w.registry.Bare m)
    (bound : n ∉ w.registry.guard.exempt) {k : Nat} {ρ : Role} {d : Definition κ}
    {next : Except Error Materialized → Job κ σ (ρ.Result α)}
    {stack : Stack (Recipe κ) (Teardown κ) (Site κ σ) α ρ}
    {v : World (Recipe κ) (Teardown κ) (Site κ σ)}
    (asks : runFor (c.host b) k (start p w) = running (.create n (.component n d) next) stack v)
    {collects : Bool} {r : Registry (Recipe κ) (Teardown κ)}
    (admitted : v.registry.beginCreation n = .admitted collects r) {s : Site κ σ}
    (heard : (c.host b).hear (.creating n) v.memory = (none, s)) :
  c.Reconciles b n d ⟨r, s⟩ ∧
  (∀ i w', (c.construct b n d).run.Returns (c.host b) ⟨r, s⟩ (.ok i) w' →
    ∃ l, runFor (c.host b) l (start p w)
        = @running _ _ _ _ .maker (.done (.ok i)) (.creating n collects next stack) w' ∧
      (runFor (c.host b) (l + 1) (start p w)).registry.finished.get? n = some i) ∧
  ∀ e w', (c.construct b n d).run.Returns (c.host b) ⟨r, s⟩ (.error e) w' →
    ∃ l w'', runFor (c.host b) l (start p w)
        = @running _ _ _ _ .maker (.done (.error e)) (.creating n collects next stack) w'' ∨
      ∃ q, runFor (c.host b) l (start p w) = unwinding q (.creating n collects next stack) w''
  := by
  have begins : (start p w).Tidy D w.registry.guard.limit w.registry.guard.exempt := by
    have tracked : (start p w).Tracked w.registry.guard.limit := ⟨rest.tracks, trivial⟩
    have confined : (start p w).Confined D none :=
      .running ⟨fun _ => hp.of_reserved, fun closed => absurd trivial closed⟩ trivial hw
    refine ⟨⟨confined, rfl, tracked.nested rfl nofun, .inl tracked⟩, trivial, fun _ => ⟨?_, ?_⟩⟩
    · exact ⟨fun m _ => bare m, fun m => .inl (bare m).1, fun m h => absurd (bare m).2 h⟩
    · exact fun m _ h => absurd (bare m).1 h
  obtain ⟨within, empty⟩ := (begins.runFor (c := c) hb k).begins bound asks admitted heard
  have enters : Leads (c.host b) (start p w)
      (@running _ _ _ _ .maker ((c.host b).make (.component n d)) (.creating n collects next stack)
        ⟨r, s⟩) := by
    use k + 1
    rw [runFor_step, asks]
    simp only [Machine.step, startCreation, admitted, announcing, World.announce, heard]
  refine ⟨within.reconciles hb allowed empty d, ?_, ?_⟩
  · intro i w' returns
    obtain ⟨l, ends⟩ := enters.trans (Container.leads_of_construct returns)
    refine ⟨l, ends, ?_⟩
    rw [runFor_step, ends]
    -- alone the construction comes to the same end, where the component is unfinished still
    obtain ⟨j, halts⟩ := returns.leads_halted
    obtain ⟨o, stands⟩ := (within.awaits hb empty d).runFor hb j
    obtain ⟨own, last⟩ := stands.within
    rw [halts] at last
    have last : w'.Within D n := ⟨last.confined.world, last.entered, last.bound, last.unfinished⟩
    exact last.installs i _
  · intro e w' returns
    obtain ⟨w'', leads | ⟨q, leads⟩⟩ := Container.leads_of_construct_error hb returns
    · obtain ⟨l, ends⟩ := enters.trans leads
      exact ⟨l, w'', .inl ends⟩
    · obtain ⟨l, ends⟩ := enters.trans leads
      exact ⟨l, w'', .inr ⟨q, ends⟩⟩

/-! ### A component and its guests -/

/-- What the callbacks of a small container do. -/
inductive Deed where
  /-- Makes an instance, and asks for nothing. -/
  | plain
  /-- Asks for `"b"`, and does without it if need be. -/
  | visit
  /-- Asks for `"a"`, and makes nothing of its own. -/
  | borrow
  /-- Asks for `"a"`, and then for `"c"`, and does without the latter if need be.  It makes an
  instance that tells which one of `"a"` it was given. -/
  | keep
  /-- Asks for `"a"`, takes it for its own part, and fails. -/
  | seize
  /-- Wraps an instance. -/
  | wrap

/-- The behaviour of these callbacks. -/
def Deed.behaviour (c : Container Deed) : Behaviour Deed Unit where
  instantiate
    | .borrow, n => c.request n "a"
    | .keep, n => do
      let i ← c.request n "a"
      discard (c.requestOptional n "c")
      return ⟨10 + i.index⟩
    | .seize, n => do
      discard (c.request n "a")
      Attempt.edit (.contain "a" n)
      throw (.notDefined "d")
    | _, _ => return ⟨0⟩
  wire
    | .visit, n, _ => discard (c.requestOptional n "b")
    | _, _, _ => return ()
  transform _ _ i := return ⟨i.index + 1⟩
  make _ n := throw (.notDefined n)
  dispose _ _ _ := .done (.ok ())
  hear _ s := (none, s)

/-- The callbacks of the small container are confined. -/
theorem Deed.confined_behaviour (c : Container Deed) (D : Catalog (Definition Deed)) :
  (Deed.behaviour c).Confined D
  where
  instantiate k n := by
    cases k with
    | plain | visit | wrap => apply Client.Confined.done
    | borrow => apply c.reserved_request
    | keep =>
      apply Attempt.confined_bind (c.reserved_request n "a")
      intro _
      apply Attempt.confined_bind (Attempt.reserved_map (c.reserved_resolveOptional "c" (some n)))
      intro _
      apply Client.Confined.done
    | seize =>
      apply Attempt.confined_bind (Attempt.reserved_map (c.reserved_request n "a"))
      intro _
      apply Attempt.confined_bind (Attempt.reserved_edit (.contain "a" n) trivial)
      intro _
      apply Client.Confined.done
  wire k n i := by
    cases k with
    | visit => exact Attempt.reserved_map (c.reserved_resolveOptional "b" (some n))
    | plain | borrow | keep | seize | wrap => apply Client.Confined.done
  transform _ _ _ := .done _
  dispose _ _ _ := .done _

/-- A container that wraps the instance of `"a"` after it was made ready, and also, if `early` says
so, when it is handed out early. -/
def Container.wrapping (early : Bool) : Container Deed where
  settings := ⟨true, 4, [], false⟩
  chain := ⟨[("wrapper", ⟨default, false, some ["a"], fun
    | .beforeInit => none
    | .afterInit => some .wrap
    | .earlyReference => if early then some .wrap else none⟩)]⟩

/-- The host of this container. -/
abbrev Container.wrapper (early : Bool) : Host (Recipe Deed) (Teardown Deed) (Site Deed Unit) :=
  (wrapping early).host (Deed.behaviour (wrapping early))

/-- A component that asks for its guest. -/
def Definition.visiting : Definition Deed := ⟨"a", .plain, some .visit, none, none, [], true⟩

/-- The component, its guest, and one that takes the component for its own part. -/
def Catalog.visiting (guest : Deed) : Catalog (Definition Deed) :=
  ofList [("a", .visiting), ("b", ⟨"b", guest, none, none, none, [], true⟩),
    ("c", ⟨"c", .seize, none, none, none, [], true⟩)]

/-- A moment of the run that asks for the component. -/
def Machine.visiting (early : Bool) (guest : Deed) (k : Nat) :
    Machine (Recipe Deed) (Teardown Deed) (Site Deed Unit) (Except Error Ref) :=
  runFor (Container.wrapper early) k (start ((Container.wrapping early).resolve "a" none).run
    ⟨.fresh (Container.wrapping early).settings, ⟨.visiting guest, ()⟩⟩)

/-- The construction of the component. -/
abbrev Container.visiting (early : Bool) : Trial Deed Unit Ref :=
  (wrapping early).construct (Deed.behaviour (wrapping early)) "a" .visiting

/-- An early reference is made from the first instance, and the interceptor wraps both alike: the
early reference is installed. -/
theorem reconciliation_exact_visiting :
  (Container.wrapping true).Reconciles (Deed.behaviour (.wrapping true)) "a" .visiting
      (visiting true .borrow 3).world ∧
    (visiting true .borrow 11).Materializes "a" (.earlyReference "a" ⟨0⟩) ⟨1⟩ ∧
    ∃ l, (visiting true .borrow l).registry.finished.get? "a" = some ⟨1⟩
  := by
  have returns : (Container.visiting true).run.Returns (Container.wrapper true)
      (visiting true .borrow 3).world (.ok ⟨1⟩) (visiting true .borrow 19).world :=
    fun _ _ _ _ => ⟨16, rfl⟩
  obtain ⟨reconciles, installs, -⟩ := reconciliation_exact (c := .wrapping true) (n := "a")
    (w := ⟨.fresh (Container.wrapping true).settings, ⟨.visiting .borrow, ()⟩⟩) (k := 2)
    (d := .visiting) (r := (visiting true .borrow 3).world.registry)
    (s := (visiting true .borrow 3).world.memory)
    (Deed.confined_behaviour (.wrapping true) (.visiting .borrow)) rfl
    ((Container.wrapping true).reserved_resolve "a" none) (Registry.atRest_fresh _)
    (World.confined_fresh _ ⟨.visiting .borrow, ()⟩) (fun _ => ⟨rfl, rfl⟩) (by decide) rfl rfl rfl
  obtain ⟨l, -, installed⟩ := installs ⟨1⟩ _ returns
  exact ⟨reconciles, ⟨rfl, rfl, rfl⟩, l + 1, installed⟩

/-- The guest is given the raw instance early and keeps it.  Another component takes `"a"` for its
own part and fails, which destroys `"a"` within its creation.  The instance that is installed is
neither the raw one nor the one that the guest keeps, and nothing fails. -/
theorem made_unreconciled :
  (Deed.behaviour (.wrapping false)).Confined (.visiting .keep) ∧
    (runFor (Container.wrapper false) 8 (start (Container.visiting false).run
      (visiting false .keep 3).world)).Materializes "a" (.earlyReference "a" ⟨0⟩) ⟨0⟩ ∧
    (∃ u v, ((Container.wrapping false).instantiation (Deed.behaviour (.wrapping false)) "a"
        .visiting).run.Returns (Container.wrapper false) (visiting false .keep 3).world (.ok ⟨0⟩) u ∧
      ((Container.wrapping false).preparation (Deed.behaviour (.wrapping false)) "a" .visiting
        ⟨0⟩).run.Returns (Container.wrapper false) (u.withOffer "a" ⟨0⟩) (.ok ⟨1⟩) v) ∧
    reconcile "a" ⟨0⟩ ⟨1⟩ (some ⟨0⟩) = .error (.earlyReferenceMismatch "a") ∧
    ∃ w', (Container.visiting false).run.Returns (Container.wrapper false)
        (visiting false .keep 3).world (.ok ⟨1⟩) w' ∧
      w'.registry.finished.get? "b" = some ⟨10⟩
  := by
  refine ⟨Deed.confined_behaviour _ _, ?_,
    ⟨_, (visiting false .keep 42).world, fun _ _ _ _ => ⟨0, rfl⟩, ?_⟩, rfl,
    (visiting false .keep 43).world, ?_, rfl⟩
  · exact ⟨rfl, rfl, rfl⟩
  · exact fun _ _ _ _ => ⟨37, rfl⟩
  · exact fun _ _ _ _ => ⟨40, rfl⟩

end Componentry
