import Componentry.Proofs.Alteration
import Componentry.Proofs.Threads
import Mathlib.Tactic.IntervalCases

/-!
# The three tiers

The registry keeps instances in three tiers, and many operations move entries from one to another:
creations that succeed, fail or are broken off, lookups that make an early reference, bindings,
removals and destructions.  The main result, `tiers_apart`, says that the tiers stay apart all the
time, and that a creation leaves nothing of its name in the early tiers, however it ends.

Between the moment at which a producer is taken out of the registry and the one at which its early
reference is kept, the registry relies on what it has seen at the beginning.  This is right as long
as the producer makes no requests itself.
-/

namespace Componentry

open Machine

variable {φ δ μ α : Type} {host : Host φ δ μ} {most : Nat} {n : Name}

/-! ### The guard -/

namespace Guard

variable {g g' : Guard} {m : Name}

theorem mem_of_enter (h : g.enter n = .ok g') (hm : m ∈ g.inCreation) :
  m ∈ g'.inCreation
  := by
  unfold enter at h
  split at h
  · cases h
  · split at h
    · cases h
      exact hm
    · split at h
      · cases h
      · cases h
        exact Roster.mem_insert.mpr (.inl hm)

/-- The end of a creation strikes no other name. -/
theorem mem_leave_of_ne (hm : m ∈ g.inCreation) (ne : m ≠ n) :
  m ∈ (g.leave n).1.inCreation
  := by
  unfold leave
  dsimp only
  split
  · exact hm
  · split
    · exact Roster.mem_erase.mpr ⟨ne, hm⟩
    · exact hm

end Guard

/-! ### The registry -/

namespace Registry

variable {r r' : Registry φ δ}

/-- Nothing of a name is in the early tiers. -/
def Bare (r : Registry φ δ) (n : Name) : Prop :=
  r.producers.get? n = none ∧ r.early.get? n = none

/-- The tiers are apart. -/
structure Tiered (r : Registry φ δ) : Prop where
  /-- Nothing of a finished component is in the early tiers. -/
  finished : ∀ n, r.finished.get? n ≠ none → r.Bare n
  /-- There is no producer of an early reference that has been made. -/
  apart : ∀ n, r.producers.get? n = none ∨ r.early.get? n = none
  /-- An early reference is to a component in creation. -/
  entered : ∀ n, r.early.get? n ≠ none → n ∈ r.guard.inCreation

theorem tiered_fresh (s : Settings) :
  (fresh s : Registry φ δ).Tiered
  := ⟨fun _ _ => ⟨rfl, rfl⟩, fun _ => .inl rfl, fun _ h => absurd rfl h⟩

/-- Tiers from which entries are struck stay apart. -/
theorem Tiered.strike (h : r.Tiered)
    (finished : ∀ n, r.finished.get? n = none → r'.finished.get? n = none)
    (producers : ∀ n, r.producers.get? n = none → r'.producers.get? n = none)
    (early : ∀ n, r.early.get? n = none → r'.early.get? n = none)
    (entered : ∀ n, r'.early.get? n ≠ none → n ∈ r'.guard.inCreation) :
  r'.Tiered
  where
  finished n hn :=
    (h.finished n (mt (finished n) hn)).imp (producers n) (early n)
  apart n := (h.apart n).imp (producers n) (early n)
  entered := entered

/-- What happens to the guard does not matter as long as the names stay that have an early
reference. -/
theorem Tiered.guard (h : r.Tiered) {g : Guard} {suppressed : Option (List Error)}
    (entered : ∀ n, r.early.get? n ≠ none → n ∈ r.guard.inCreation → n ∈ g.inCreation) :
  { r with guard := g, suppressed := suppressed : Registry φ δ }.Tiered
  where
  finished := h.finished
  apart := h.apart
  entered n hn := entered n hn (h.entered n hn)

theorem bare_dropEarly (r : Registry φ δ) (n : Name) :
  (r.dropEarly n).Bare n
  := by
  simp [Bare, dropEarly]

theorem Tiered.dropEarly (h : r.Tiered) (n : Name) :
  (r.dropEarly n).Tiered
  := by
  apply h.strike
  case finished => exact fun m hm => hm
  case producers => exact fun m hm => Catalog.get?_erase_of_eq_none hm n
  case early => exact fun m hm => Catalog.get?_erase_of_eq_none hm n
  case entered =>
    intro m hm
    apply h.entered m (mt (Catalog.get?_erase_of_eq_none · n) hm)

/-- The creation of a component ends, and with it what is in the early tiers. -/
theorem Tiered.drop (h : r.Tiered) (n : Name) (collects : Bool) :
  ((r.leave n collects).1.dropEarly n).Tiered
  := by
  apply (h.dropEarly n).guard
  intro m made hm
  apply Guard.mem_leave_of_ne hm
  rintro rfl
  apply made (r.bare_dropEarly m).2

/-- A component can be finished of which nothing is in the early tiers. -/
theorem Tiered.install (h : (r.dropEarly n).Tiered) (i : Ref) :
  (r.install n i).Tiered
  := by
  refine { h with finished := ?_ }
  intro m hm
  change ((r.finished.insert n i).get? m ≠ none) at hm
  by_cases hn : m = n
  · rw [hn]
    apply bare_dropEarly
  · rw [Catalog.get?_insert_of_ne hn] at hm
    apply h.finished m hm

theorem Tiered.purge (h : r.Tiered) (n : Name) :
  (r.purge n).Tiered
  := by
  have hd := h.dropEarly n
  refine { hd with finished := ?_ }
  intro m hm
  apply hd.finished m (mt (Catalog.get?_erase_of_eq_none · n) hm)

/-- A producer is offered for a component that is not finished, and takes the place of an early
reference. -/
theorem Tiered.publish (h : r.Tiered) (n : Name) (producer : φ) :
  (r.publish n producer).1.Tiered
  := by
  unfold Registry.publish
  split
  · exact h
  rename_i unfinished
  have unfinished : r.finished.get? n = none := by simpa [Catalog.contains] using unfinished
  constructor
  case finished =>
    intro m hm
    have ne : m ≠ n := by
      rintro rfl
      apply hm unfinished
    obtain ⟨hp, he⟩ := h.finished m hm
    use (Catalog.get?_insert_of_ne ne).trans hp
    apply (Catalog.get?_erase_of_ne ne).trans he
  case apart =>
    intro m
    by_cases hn : m = n
    · right
      simp [hn]
    · change (r.producers.insert n producer).get? m = none ∨ (r.early.erase n).get? m = none
      rw [Catalog.get?_insert_of_ne hn, Catalog.get?_erase_of_ne hn]
      apply h.apart
  case entered =>
    intro m hm
    apply h.entered m (mt (Catalog.get?_erase_of_eq_none · n) hm)

/-- Every edit keeps the tiers apart. -/
theorem Tiered.edit (h : r.Tiered) (e : Edit φ δ) :
  (r.edit e).1.Tiered
  := by
  cases e with
  | bind n i =>
    obtain ⟨-, hb⟩ | hb := r.edit_bind n i
    · rw [hb]
      apply (h.dropEarly n).install
    · rw [hb]
      exact h
  | publish n producer => apply h.publish
  | remove n => apply h.purge
  | suppress | setExempt | depend | contain | onDestroy =>
    exact ⟨h.finished, h.apart, h.entered⟩

/-! ### Producers that are lent -/

/-- The producer of a component in creation has been taken out of the registry. -/
structure Lends (r : Registry φ δ) (n : Name) : Prop where
  entered : n ∈ r.guard.inCreation
  unfinished : r.finished.get? n = none
  bare : r.Bare n

/-- A producer is only taken for a component in creation that has no early reference. -/
theorem lends_of_pending {early : Bool} {producer : φ}
    (h : r.sight n early = .pending producer r') :
  r'.Lends n
  := by
  obtain ⟨unfinished, -, rfl⟩ := of_sight_pending h
  simp only [sight, unfinished] at h
  split at h
  · cases h
  rename_i entered
  split at h
  · cases h
  rename_i unmade
  refine ⟨?_, unfinished, ?_, unmade⟩
  · apply Roster.contains_iff.mp
    simpa [Guard.isEntered] using entered
  · change (r.producers.erase n).get? n = none
    simp

/-- The early reference that was made takes the place of the producer. -/
theorem Tiered.memoize (h : r.Tiered) (lends : r.Lends n) (i : Ref) :
  (r.memoize n i).Tiered
  := by
  constructor
  case finished =>
    intro m hm
    have ne : m ≠ n := by
      rintro rfl
      apply hm lends.unfinished
    obtain ⟨hp, he⟩ := h.finished m hm
    use hp
    apply (Catalog.get?_insert_of_ne ne).trans he
  case apart =>
    intro m
    by_cases hn : m = n
    · rw [hn]
      exact .inl lends.bare.1
    · change r.producers.get? m = none ∨ (r.early.insert n i).get? m = none
      rw [Catalog.get?_insert_of_ne hn]
      apply h.apart
  case entered =>
    intro m hm
    by_cases hn : m = n
    · rw [hn]
      exact lends.entered
    · apply h.entered m
      rw [← Catalog.get?_insert_of_ne hn]
      exact hm

/-- A producer that failed can be put back, for there is no early reference in its place. -/
theorem Tiered.restore (h : r.Tiered) (lends : r.Lends n) (producer : φ) :
  (r.restore n producer).Tiered
  := by
  unfold Registry.restore
  split
  · constructor
    case finished =>
      intro m hm
      have ne : m ≠ n := by
        rintro rfl
        apply hm lends.unfinished
      obtain ⟨hp, he⟩ := h.finished m hm
      exact ⟨(Catalog.get?_insert_of_ne ne).trans hp, he⟩
    case apart =>
      intro m
      by_cases hn : m = n
      · rw [hn]
        exact .inr lends.bare.2
      · change (r.producers.insert n producer).get? m = none ∨ r.early.get? m = none
        rw [Catalog.get?_insert_of_ne hn]
        apply h.apart
    case entered => exact h.entered
  · exact h

end Registry

/-! ### Early references that are being made -/

namespace Stack

/-- An early reference is being made. -/
def Produces : {ρ : Role} → Stack φ δ μ α ρ → Prop
  | _, base => False
  | _, creating _ _ _ below => below.Produces
  | _, producing _ _ _ _ => True
  | _, disposing _ _ _ below => below.Produces
  | _, protecting _ below => below.Produces

/-- If an early reference is being made, its producer was taken out of the registry, and nothing
else goes on since then. -/
def Sheltered (r : Registry φ δ) : {ρ : Role} → Stack φ δ μ α ρ → Prop
  | _, base => True
  | _, creating _ _ _ below => ¬ below.Produces
  | _, producing n _ _ below => ¬ below.Produces ∧ r.Lends n
  | _, disposing _ _ _ below => ¬ below.Produces
  | _, protecting _ below => below.Sheltered r

theorem sheltered_of_not_produces {ρ : Role} {stack : Stack φ δ μ α ρ} (h : ¬ stack.Produces)
    (r : Registry φ δ) :
  stack.Sheltered r
  := by
  induction stack with
  | base => trivial
  | creating | disposing => exact h
  | producing => exact absurd trivial h
  | protecting _ _ ih => exact ih h

end Stack

namespace Machine

/-- The running program does not make a request of the registry with its next step on behalf of a
producer. -/
def Discreet : Machine φ δ μ α → Prop
  | running (.edit _ _) stack _ => ¬ stack.Produces
  | running (.lookup _ _ _) stack _ => ¬ stack.Produces
  | running (.create _ _ _) stack _ => ¬ stack.Produces
  | running (.destroy _ _) stack _ => ¬ stack.Produces
  | running (.destroyAll _) stack _ => ¬ stack.Produces
  | _ => True

/-- While an early reference is being made, nothing else goes on. -/
def Sheltered : Machine φ δ μ α → Prop
  | running _ stack w => stack.Sheltered w.registry
  | tearing _ _ stack _ => ¬ stack.Produces
  | unwinding _ stack w => stack.Sheltered w.registry
  | halted _ _ => True

variable {m : Machine φ δ μ α} {ρ : Role} {stack : Stack φ δ μ α ρ} {w : World φ δ μ}

theorem sheltered_announcing {notice : Notice} {next : World φ δ μ → Machine φ δ μ α}
    (h : ¬ stack.Produces) (goes : ∀ memory, (next { w with memory }).Sheltered) :
  (announcing host notice stack w next).Sheltered
  := by
  apply announcing_of (P := Sheltered)
  · intro _
    apply goes
  · intro _ _
    exact Stack.sheltered_of_not_produces h _

/-- When a program ends, early references stay sheltered. -/
theorem sheltered_finish (host : Host φ δ μ) {a : ρ.Result α} (h : stack.Sheltered w.registry) :
  (finish host a stack w).Sheltered
  := by
  cases stack with
  | base => trivial
  | creating n collects resume below =>
    obtain ⟨w', -, next | ⟨-, p, next⟩⟩ := finishCreation_cases host n collects a resume below w <;>
    · rw [finish, next]
      exact Stack.sheltered_of_not_produces h _
  | producing n producer resume below =>
    rcases a with e | i <;> exact Stack.sheltered_of_not_produces h.1 _
  | disposing n tasks resume below =>
    rcases a with text | u <;> exact sheltered_announcing h fun _ => h
  | protecting resume below => exact h

theorem sheltered_unwind (host : Host φ δ μ) (p : Panic) (h : stack.Sheltered w.registry) :
  (unwind host p stack w).Sheltered
  := by
  cases stack with
  | base => trivial
  | creating n collects resume below => exact Stack.sheltered_of_not_produces h _
  | producing n producer resume below => exact Stack.sheltered_of_not_produces h.1 _
  | disposing n tasks resume below => exact sheltered_announcing h fun _ => h
  | protecting resume below => exact h

/-- A step of factories that do not call the registry keeps early references sheltered. -/
theorem Sheltered.step (h : m.Sheltered) (host : Host φ δ μ) (discreet : m.Discreet) :
  (m.step host).Sheltered
  := by
  cases m with
  | halted outcome w => trivial
  | unwinding p stack w => apply sheltered_unwind host p h
  | tearing tasks resume stack w =>
    cases tasks with
    | nil => exact Stack.sheltered_of_not_produces h _
    | cons task tasks => cases task <;> exact h
  | @running ρ c stack w =>
    cases c with
    | done a => apply sheltered_finish host h
    | edit e next => exact Stack.sheltered_of_not_produces discreet _
    | lookup n early next =>
      simp only [Machine.step, startLookup]
      split
      · exact h
      · rename_i pending
        exact ⟨discreet, Registry.lends_of_pending pending⟩
    | create n factory next =>
      simp only [Machine.step, startCreation]
      split
      · exact h
      · exact h
      · exact sheltered_announcing discreet fun _ => discreet
    | destroy | destroyAll => exact discreet
    | panic | view | revise | protect => exact h

/-! ### Steps that touch the early tiers -/

/-- The next step may change what is in the early tiers of a name. -/
inductive Touches (n : Name) : Machine φ δ μ α → Prop
  /-- The name is to be bound. -/
  | binds {ρ : Role} (i : Ref) (next : Except Error Unit → Client φ δ μ (ρ.Result α))
      (stack : Stack φ δ μ α ρ) (w : World φ δ μ) :
    Touches n (running (.edit (.bind n i) next) stack w)
  /-- A producer is offered. -/
  | publishes {m : Machine φ δ μ α} (p : φ) (publishes : m.Publishes n p) : Touches n m
  /-- The name is removed. -/
  | removes {m : Machine φ δ μ α} (removes : m.Removes n) : Touches n m
  /-- A lookup takes the producer. -/
  | takes {m : Machine φ δ μ α} (p : φ) (sought : m.sought? = some (n, p)) : Touches n m
  /-- An early reference is kept. -/
  | keeps {m : Machine φ δ μ α} (p : φ) (i : Ref) (makes : m.Materializes n p i) : Touches n m
  /-- A producer has failed. -/
  | restores {m : Machine φ δ μ α} (p : φ) (fails : m.Fails n p) : Touches n m
  /-- A creation ends. -/
  | ends {m : Machine φ δ μ α} (collects : Bool) (ending : m.ending? = some (n, collects)) :
    Touches n m

/-- Other steps leave the early tiers of the name alone. -/
theorem tiers_of_not_touches (h : ¬ m.Touches n) (host : Host φ δ μ) :
  (m.step host).registry.producers.get? n = m.registry.producers.get? n ∧
    (m.step host).registry.early.get? n = m.registry.early.get? n
  := by
  have alters := alters_step host m
  generalize (m.step host).registry = r at alters ⊢
  cases alters with
  | keeps | leaves | marks | releases | forgets => exact ⟨rfl, rfl⟩
  | edits e next stack w =>
    obtain same | ⟨i, rfl⟩ | ⟨p, rfl⟩ | rfl := w.registry.edit_tiers n e
    · exact same
    · exact absurd (.binds i next stack w) h
    · exact absurd (.publishes p ⟨rfl, rfl⟩) h
    · exact absurd (.removes rfl) h
  | @takes ρ x early producer r next stack w pending =>
    have ne : n ≠ x := by
      rintro rfl
      exact h (.takes producer (sought_of_pending pending))
    obtain ⟨-, -, rfl⟩ := Registry.of_sight_pending pending
    exact ⟨Catalog.get?_erase_of_ne ne, rfl⟩
  | memoizes x producer i resume below w =>
    have ne : n ≠ x := fun same => h (.keeps producer i ⟨same.symm, rfl, rfl⟩)
    exact ⟨rfl, Catalog.get?_insert_of_ne ne⟩
  | restores x producer e resume below w =>
    have ne : n ≠ x := fun same => h (.restores producer ⟨same.symm, rfl, e, rfl⟩)
    exact w.registry.restore_of_ne ne producer
  | admits factory next stack w admitted =>
    obtain ⟨-, -, _, _, -, -, -, rfl⟩ := Registry.of_admitted admitted
    exact ⟨rfl, rfl⟩
  | installs x collects | drops x collects | abandons _ x collects =>
    have ne : n ≠ x := by
      rintro rfl
      exact h (.ends collects rfl)
    exact ⟨Catalog.get?_erase_of_ne ne, Catalog.get?_erase_of_ne ne⟩
  | withdraws x tasks resume stack w =>
    have ne : n ≠ x := by
      rintro rfl
      exact h (.removes rfl)
    exact ⟨Catalog.get?_erase_of_ne ne, Catalog.get?_erase_of_ne ne⟩
  | clears => exact absurd (.removes trivial) h

/-- A lookup takes a producer where there is no early reference. -/
theorem bare_of_sought {p : φ} (h : m.sought? = some (n, p)) (host : Host φ δ μ) :
  m.registry.producers.get? n = some p ∧ m.registry.early.get? n = none ∧
    (m.step host).registry.Bare n
  := by
  obtain ⟨ρ, early, r, next, stack, w, rfl, pending⟩ := of_sought h
  have bare := (Registry.lends_of_pending pending).bare
  simp only [step, startLookup, pending]
  obtain ⟨-, offered, rfl⟩ := Registry.of_sight_pending pending
  exact ⟨offered, bare.2, bare⟩

/-! ### The step and the run -/

/-- A step keeps the tiers apart, and if a creation ends with it, nothing of its name is left in the
early tiers. -/
theorem tiered_step (h : m.registry.Tiered) (tracked : m.Tracked most) (sheltered : m.Sheltered)
    (host : Host φ δ μ) :
  (m.step host).registry.Tiered ∧
    ∀ n collects, m.ending? = some (n, collects) → (m.step host).registry.Bare n
  := by
  have alters := alters_step host m
  generalize (m.step host).registry = r at alters ⊢
  cases alters with
  | keeps _ ending task =>
    use h
    intro n collects hn
    cases ending.symm.trans hn
  | edits e next stack w => exact ⟨h.edit e, nofun⟩
  | takes next stack w pending =>
    obtain ⟨-, -, rfl⟩ := Registry.of_sight_pending pending
    use h.strike (fun _ => id) (fun _ hm => Catalog.get?_erase_of_eq_none hm _) (fun _ => id)
      h.entered
    nofun
  | memoizes n producer i resume below w => exact ⟨h.memoize sheltered.2 i, nofun⟩
  | restores n producer e resume below w => exact ⟨h.restore sheltered.2 producer, nofun⟩
  | admits factory next stack w admitted =>
    obtain ⟨-, -, guard, suppressed, entered, -, -, rfl⟩ := Registry.of_admitted admitted
    use h.guard fun _ _ => Guard.mem_of_enter entered
    nofun
  | leaves n collects outcome resume below w why =>
    -- the creation had begun, so that the name is bound: nothing of it is in the early tiers
    have bare := h.finished n (why.resolve_left (absurd (Tracked.leave tracked rfl)))
    constructor
    · apply h.guard
      intro m made hm
      apply Guard.mem_leave_of_ne hm
      rintro rfl
      apply made bare.2
    · rintro _ _ ⟨⟩
      exact bare
  | installs n collects i resume below w =>
    use (h.drop n collects).install i
    rintro _ _ ⟨⟩
    apply Registry.bare_dropEarly
  | drops n collects e resume below w =>
    use h.drop n collects
    rintro _ _ ⟨⟩
    apply Registry.bare_dropEarly
  | abandons p n collects resume below w =>
    use h.drop n collects
    rintro _ _ ⟨⟩
    apply Registry.bare_dropEarly
  | withdraws n tasks resume stack w =>
    have hp := h.purge n
    exact ⟨⟨hp.finished, hp.apart, hp.entered⟩, nofun⟩
  | marks | releases | forgets => exact ⟨⟨h.finished, h.apart, h.entered⟩, nofun⟩
  | clears tasks resume stack w =>
    use h.strike (fun _ _ => rfl) (fun _ _ => rfl) (fun _ _ => rfl) fun _ => absurd rfl
    nofun

end Machine

/-- At every moment of a run that begins at rest the tiers are apart, and an early reference is to
a component whose creation is under way.  Once a creation has ended, by a value, by an error or by
a panic, nothing of its name is left in the early tiers.  No one who hears a notice panics, no
exemption changes while a component is created, and producers make no requests. -/
theorem tiers_apart (calm : host.Calm) (c : Client φ δ μ α) (w : World φ δ μ)
    (rest : w.registry.AtRest) (tiered : w.registry.Tiered) (k : Nat)
    (keeps : ∀ j < k, (runFor host j (start c w)).KeepsExemptions)
    (discreet : ∀ j < k, (runFor host j (start c w)).Discreet) :
  (runFor host k (start c w)).registry.Tiered ∧
    (∀ n, (runFor host k (start c w)).registry.early.get? n ≠ none →
      n ∈ (runFor host k (start c w)).creations) ∧
    ∀ n collects, (runFor host k (start c w)).ending? = some (n, collects) →
      (runFor host (k + 1) (start c w)).registry.Bare n
  := by
  have begins : (start c w).Tracked w.registry.guard.limit := ⟨rest.tracks, trivial⟩
  have tracked {j : Nat} (hj : j ≤ k) :
      (runFor host j (start c w)).Tracked w.registry.guard.limit :=
    begins.runFor calm fun i hi => keeps i (Nat.lt_of_lt_of_le hi hj)
  have apart : ∀ j ≤ k, (runFor host j (start c w)).registry.Tiered ∧
      (runFor host j (start c w)).Sheltered := by
    intro j
    induction j with
    | zero => exact fun _ => ⟨tiered, trivial⟩
    | succ j ih =>
      intro hj
      obtain ⟨h, sheltered⟩ := ih (Nat.le_of_succ_le hj)
      rw [runFor_step]
      use (tiered_step h (tracked (Nat.le_of_succ_le hj)) sheltered host).1
      apply sheltered.step host (discreet j hj)
  obtain ⟨h, sheltered⟩ := apart k (Nat.le_refl k)
  refine ⟨h, ?_, ?_⟩
  · intro n made
    have noted := h.entered n made
    rw [Roster.mem_iff, (tracked (Nat.le_refl k)).tracks.guard.inCreation] at noted
    apply (List.mem_filter.mp noted).1
  · rw [runFor_step]
    apply (tiered_step h (tracked (Nat.le_refl k)) sheltered host).2

/-- A host whose factories offer a producer, look their own name up, and panic. -/
def Host.impatient : Host (Option Name) Unit Unit where
  make
    | some n => .edit (.publish n none) fun _ => .lookup n true fun _ => .panic .other
    | none => .done (.ok ⟨0⟩)
  dispose _ := .done (.ok ())
  hear _ m := (none, m)

/-- A moment of the run that asks for a component. -/
def Machine.impatient (k : Nat) : Machine (Option Name) Unit Unit (Except Error Materialized) :=
  runFor .impatient k (start (.create "a" (some "a") .done) ⟨.fresh ⟨true, 1, [], false⟩, ()⟩)

/-- The early reference that was made has taken the place of its producer, and goes when the panic
breaks the creation off. -/
theorem tiers_apart_impatient :
  (Machine.impatient 5).registry.early.get? "a" = some ⟨0⟩ ∧
    (Machine.impatient 5).registry.producers.get? "a" = none ∧
    (Machine.impatient 5).registry.Tiered ∧ "a" ∈ (Machine.impatient 5).creations ∧
    (Machine.impatient 6).registry.Bare "a"
  := by
  have moments : ∀ j < 5, (Machine.impatient j).KeepsExemptions ∧ (Machine.impatient j).Discreet := by
    intro j hj
    interval_cases j <;> exact ⟨trivial, by first | trivial | exact id⟩
  have calm : Host.impatient.Calm := fun _ _ => rfl
  obtain ⟨h, made, ended⟩ := tiers_apart calm (.create "a" (some "a") .done)
    ⟨.fresh ⟨true, 1, [], false⟩, ()⟩ (Registry.atRest_fresh _) (Registry.tiered_fresh _) 5
    (fun j hj => (moments j hj).1) fun j hj => (moments j hj).2
  refine ⟨rfl, rfl, h, made "a" nofun, ended "a" true rfl⟩

end Componentry
