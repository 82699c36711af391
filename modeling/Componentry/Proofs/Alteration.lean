import Componentry.Proofs.Nesting

/-!
# What a step alters

A step changes the registry in few ways, and each of them can be told from the machine: from the
program that runs, the frame that is left, or the task that is worked off.  The relation `Alters`
lists them, and `alters_step` says that there are no others.  An invariant of the registry is
followed through a run by looking at each way once, with no regard to the steps that leave the
registry alone.
-/

namespace Componentry

open Machine

variable {φ δ μ α : Type}

namespace Machine

/-- The task that is worked off with the next step. -/
def task? : Machine φ δ μ α → Option (Task δ)
  | tearing (task :: _) _ _ _ => some task
  | _ => none

/-- With the next step a producer is offered for a component. -/
def Publishes (n : Name) (p : φ) : Machine φ δ μ α → Prop
  | running (.edit (.publish m q) _) _ _ => m = n ∧ q = p
  | _ => False

/-- With the next step the early reference to a component is kept that its producer has made. -/
def Materializes (n : Name) (p : φ) (i : Ref) : Machine φ δ μ α → Prop
  | @running _ _ _ _ _ (.done outcome) (.producing m q _ _) _ =>
    m = n ∧ q = p ∧ (outcome : Except Error Ref) = .ok i
  | _ => False

/-- The early reference that begins to be made with the next step, and its producer. -/
def sought? : Machine φ δ μ α → Option (Name × φ)
  | running (.lookup n early _) _ w =>
    match w.registry.sight n early with
    | .settled _ => none
    | .pending p _ => some (n, p)
  | _ => none

/-- With the next step a lookup ends whose producer has failed. -/
def Fails (n : Name) (p : φ) : Machine φ δ μ α → Prop
  | @running _ _ _ _ _ (.done outcome) (.producing m q _ _) _ =>
    m = n ∧ q = p ∧ ∃ e, (outcome : Except Error Ref) = .error e
  | _ => False

section Moments

variable {m : Machine φ δ μ α} {n : Name} {p : φ} {i : Ref}

/-- A task is worked off at a moment of a destruction. -/
theorem of_task {t : Task δ} (h : m.task? = some t) :
  ∃ (ρ : Role) (tasks : List (Task δ)) (resume : Unit → Client φ δ μ (ρ.Result α))
    (stack : Stack φ δ μ α ρ) (w : World φ δ μ), m = tearing (t :: tasks) resume stack w
  := by
  unfold task? at h
  split at h
  · cases h
    exact ⟨_, _, _, _, _, rfl⟩
  · cases h

/-- A producer is published at the request of a program. -/
theorem Publishes.eq (h : m.Publishes n p) :
  ∃ (ρ : Role) (next : Bool → Client φ δ μ (ρ.Result α)) (stack : Stack φ δ μ α ρ)
    (w : World φ δ μ), m = running (.edit (.publish n p) next) stack w
  := by
  unfold Publishes at h
  split at h
  · obtain ⟨rfl, rfl⟩ := h
    exact ⟨_, _, _, _, rfl⟩
  · cases h

/-- An early reference is materialized where its producer has returned an instance. -/
theorem Materializes.eq (h : m.Materializes n p i) :
  ∃ (ρ : Role) (resume : Except Error (Option Ref) → Client φ δ μ (ρ.Result α))
    (below : Stack φ δ μ α ρ) (w : World φ δ μ),
    m = @running φ δ μ α .maker (.done (.ok i)) (.producing n p resume below) w
  := by
  unfold Materializes at h
  split at h
  · obtain ⟨rfl, rfl, rfl⟩ := h
    exact ⟨_, _, _, _, rfl⟩
  · cases h

/-- An early reference fails where its producer has returned an error. -/
theorem Fails.eq (h : m.Fails n p) :
  ∃ (e : Error) (ρ : Role) (resume : Except Error (Option Ref) → Client φ δ μ (ρ.Result α))
    (below : Stack φ δ μ α ρ) (w : World φ δ μ),
    m = @running φ δ μ α .maker (.done (.error e)) (.producing n p resume below) w
  := by
  unfold Fails at h
  split at h
  · obtain ⟨rfl, rfl, e, rfl⟩ := h
    exact ⟨e, _, _, _, _, rfl⟩
  · cases h

/-- The creation that ends is under way. -/
theorem mem_creations_of_ending {collects : Bool} (h : m.ending? = some (n, collects)) :
  n ∈ m.creations
  := by
  unfold ending? at h
  split at h
  · cases h
    simp [creations, Stack.creations]
  · cases h
    simp [creations, Stack.creations]
  · cases h

theorem Materializes.task (h : m.Materializes n p i) (t : Task δ) :
  m.task? ≠ some t
  := by
  obtain ⟨ρ, resume, below, w, rfl⟩ := h.eq
  nofun

/-- At one moment one early reference of a name is materialized, by one producer. -/
theorem Materializes.unique {q : φ} {j : Ref} (h : m.Materializes n p i)
    (h' : m.Materializes n q j) :
  p = q ∧ i = j
  := by
  obtain ⟨ρ, resume, below, w, rfl⟩ := h.eq
  obtain ⟨-, rfl, same⟩ := h'
  exact ⟨rfl, Except.ok.inj same⟩

/-- A producer is called for at a lookup that finds it pending. -/
theorem of_sought (h : m.sought? = some (n, p)) :
  ∃ (ρ : Role) (early : Bool) (r : Registry φ δ)
    (next : Except Error (Option Ref) → Client φ δ μ (ρ.Result α)) (stack : Stack φ δ μ α ρ)
    (w : World φ δ μ),
    m = running (.lookup n early next) stack w ∧ w.registry.sight n early = .pending p r
  := by
  unfold sought? at h
  split at h
  · split at h
    · cases h
    · rename_i pending
      cases h
      exact ⟨_, _, _, _, _, _, rfl, pending⟩
  · cases h

/-- A lookup that finds a producer pending calls for it. -/
theorem sought_of_pending {ρ : Role} {early : Bool} {r : Registry φ δ}
    {next : Except Error (Option Ref) → Client φ δ μ (ρ.Result α)} {stack : Stack φ δ μ α ρ}
    {w : World φ δ μ} (pending : w.registry.sight n early = .pending p r) :
  (running (.lookup n early next) stack w).sought? = some (n, p)
  := by
  simp only [sought?, pending]

end Moments

/-- The next step of a machine makes its registry `r`. -/
inductive Alters : Machine φ δ μ α → Registry φ δ → Prop
  /-- The registry stays as it is: no creation ends, and of a destruction at most a disposal
  begins. -/
  | keeps (m : Machine φ δ μ α) (ending : m.ending? = none)
      (task : ∀ t, m.task? = some t → ∃ n disposal, t = .dispose n disposal) :
    Alters m m.registry
  /-- A request is answered at once. -/
  | edits {ρ : Role} (e : Edit φ δ) (next : e.Answer → Client φ δ μ (ρ.Result α))
      (stack : Stack φ δ μ α ρ) (w : World φ δ μ) :
    Alters (running (.edit e next) stack w) (w.registry.edit e).1
  /-- A producer is taken, which is to make an early reference. -/
  | takes {ρ : Role} {n : Name} {early : Bool} {producer : φ} {r : Registry φ δ}
      (next : Except Error (Option Ref) → Client φ δ μ (ρ.Result α)) (stack : Stack φ δ μ α ρ)
      (w : World φ δ μ) (pending : w.registry.sight n early = .pending producer r) :
    Alters (running (.lookup n early next) stack w) r
  /-- The producer has made the early reference. -/
  | memoizes {ρ : Role} (n : Name) (producer : φ) (i : Ref)
      (resume : Except Error (Option Ref) → Client φ δ μ (ρ.Result α)) (below : Stack φ δ μ α ρ)
      (w : World φ δ μ) :
    Alters (@running φ δ μ α .maker (.done (.ok i)) (.producing n producer resume below) w)
      (w.registry.memoize n i)
  /-- The producer has failed. -/
  | restores {ρ : Role} (n : Name) (producer : φ) (e : Error)
      (resume : Except Error (Option Ref) → Client φ δ μ (ρ.Result α)) (below : Stack φ δ μ α ρ)
      (w : World φ δ μ) :
    Alters (@running φ δ μ α .maker (.done (.error e)) (.producing n producer resume below) w)
      (w.registry.restore n producer)
  /-- A creation is admitted. -/
  | admits {ρ : Role} {n : Name} {collects : Bool} {r : Registry φ δ} (factory : φ)
      (next : Except Error Materialized → Client φ δ μ (ρ.Result α)) (stack : Stack φ δ μ α ρ)
      (w : World φ δ μ) (admitted : w.registry.beginCreation n = .admitted collects r) :
    Alters (running (.create n factory next) stack w) r
  /-- A creation ends that has not been entered, or whose name is bound already. -/
  | leaves {ρ : Role} (n : Name) (collects : Bool) (outcome : Except Error Ref)
      (resume : Except Error Materialized → Client φ δ μ (ρ.Result α)) (below : Stack φ δ μ α ρ)
      (w : World φ δ μ)
      (why : (w.registry.leave n collects).2 ≠ none ∨ w.registry.finished.get? n ≠ none) :
    Alters (@running φ δ μ α .maker (.done outcome) (.creating n collects resume below) w)
      (w.registry.leave n collects).1
  /-- A creation succeeds. -/
  | installs {ρ : Role} (n : Name) (collects : Bool) (i : Ref)
      (resume : Except Error Materialized → Client φ δ μ (ρ.Result α)) (below : Stack φ δ μ α ρ)
      (w : World φ δ μ) (entered : (w.registry.leave n collects).2 = none)
      (unbound : w.registry.finished.get? n = none) :
    Alters (@running φ δ μ α .maker (.done (.ok i)) (.creating n collects resume below) w)
      ((w.registry.leave n collects).1.install n i)
  /-- A creation fails. -/
  | drops {ρ : Role} (n : Name) (collects : Bool) (e : Error)
      (resume : Except Error Materialized → Client φ δ μ (ρ.Result α)) (below : Stack φ δ μ α ρ)
      (w : World φ δ μ) (entered : (w.registry.leave n collects).2 = none)
      (unbound : w.registry.finished.get? n = none) :
    Alters (@running φ δ μ α .maker (.done (.error e)) (.creating n collects resume below) w)
      ((w.registry.leave n collects).1.dropEarly n)
  /-- A creation is broken off by a panic. -/
  | abandons {ρ : Role} (p : Panic) (n : Name) (collects : Bool)
      (resume : Except Error Materialized → Client φ δ μ (ρ.Result α)) (below : Stack φ δ μ α ρ)
      (w : World φ δ μ) :
    Alters (unwinding p (.creating n collects resume below) w) (w.registry.abandon n collects)
  /-- A destruction of everything begins. -/
  | marks {ρ : Role} (next : Unit → Client φ δ μ (ρ.Result α)) (stack : Stack φ δ μ α ρ)
      (w : World φ δ μ) :
    Alters (running (.destroyAll next) stack w) w.registry.beginDestruction
  /-- The destruction of a component begins. -/
  | withdraws {ρ : Role} (n : Name) (tasks : List (Task δ))
      (resume : Unit → Client φ δ μ (ρ.Result α)) (stack : Stack φ δ μ α ρ) (w : World φ δ μ) :
    Alters (tearing (.destroy n :: tasks) resume stack w) (w.registry.withdraw n)
  /-- What a component contains is to be destroyed. -/
  | releases {ρ : Role} (n : Name) (tasks : List (Task δ))
      (resume : Unit → Client φ δ μ (ρ.Result α)) (stack : Stack φ δ μ α ρ) (w : World φ δ μ) :
    Alters (tearing (.contents n :: tasks) resume stack w) (w.registry.release n)
  /-- The destruction of a component ends. -/
  | forgets {ρ : Role} (n : Name) (tasks : List (Task δ))
      (resume : Unit → Client φ δ μ (ρ.Result α)) (stack : Stack φ δ μ α ρ) (w : World φ δ μ) :
    Alters (tearing (.forget n :: tasks) resume stack w) (w.registry.forget n)
  /-- A destruction of everything ends. -/
  | clears {ρ : Role} (tasks : List (Task δ)) (resume : Unit → Client φ δ μ (ρ.Result α))
      (stack : Stack φ δ μ α ρ) (w : World φ δ μ) :
    Alters (tearing (.clear :: tasks) resume stack w) w.registry.clear

variable {ρ : Role}

/-- A notice leaves the registry alone. -/
theorem alters_announcing {m : Machine φ δ μ α} {w : World φ δ μ} (h : m.Alters w.registry)
    (host : Host φ δ μ) (notice : Notice) (stack : Stack φ δ μ α ρ)
    {next : World φ δ μ → Machine φ δ μ α}
    (keeps : ∀ memory, (next { w with memory }).registry = w.registry) :
  m.Alters (announcing host notice stack w next).registry
  := by
  apply announcing_of (P := fun m' => m.Alters m'.registry)
  · intro _
    rw [keeps]
    exact h
  · intro _ _
    exact h

/-- To look a name up takes its producer out of the registry, or changes nothing. -/
theorem alters_startLookup (host : Host φ δ μ) (n : Name) (early : Bool)
    (next : Except Error (Option Ref) → Client φ δ μ (ρ.Result α)) (stack : Stack φ δ μ α ρ)
    (w : World φ δ μ) :
  (running (.lookup n early next) stack w).Alters
    (startLookup host n early next stack w).registry
  := by
  unfold startLookup
  split
  · exact .keeps _ rfl nofun
  · rename_i pending
    exact .takes next stack w pending

/-- To meet a request for a creation enters it in the registry, or changes nothing. -/
theorem alters_startCreation (host : Host φ δ μ) (n : Name) (factory : φ)
    (next : Except Error Materialized → Client φ δ μ (ρ.Result α)) (stack : Stack φ δ μ α ρ)
    (w : World φ δ μ) :
  (running (.create n factory next) stack w).Alters
    (startCreation host n factory next stack w).registry
  := by
  unfold startCreation
  split
  · exact .keeps _ rfl nofun
  · exact .keeps _ rfl nofun
  · rename_i collects r admitted
    apply alters_announcing (w := { w with registry := r })
    · exact .admits factory next stack w admitted
    · intro memory
      rfl

/-- The end of a creation leaves it, and binds its instance or drops what there was early. -/
theorem alters_finishCreation (host : Host φ δ μ) (n : Name) (collects : Bool)
    (outcome : Except Error Ref)
    (resume : Except Error Materialized → Client φ δ μ (ρ.Result α)) (below : Stack φ δ μ α ρ)
    (w : World φ δ μ) :
  (@running φ δ μ α .maker (.done outcome) (.creating n collects resume below) w).Alters
    (finishCreation host n collects outcome resume below w).registry
  := by
  have left : (w.registry.leave n collects).1.finished = w.registry.finished := rfl
  simp only [finishCreation, left]
  split
  · rename_i violation
    apply Alters.leaves n collects outcome resume below w
    left
    rw [violation]
    apply Option.some_ne_none
  · rename_i entered
    split
    · rename_i bound
      apply Alters.leaves n collects _ resume below w
      right
      rw [bound]
      apply Option.some_ne_none
    · rename_i unbound
      apply alters_announcing (.installs n collects _ resume below w entered unbound)
      intro memory
      rfl
    · rename_i unbound
      apply alters_announcing (.drops n collects _ resume below w entered unbound)
      intro memory
      rfl

/-- A program that returns alters the registry in one of the ways listed. -/
theorem alters_finish (host : Host φ δ μ) (a : ρ.Result α) (stack : Stack φ δ μ α ρ)
    (w : World φ δ μ) :
  (running (.done a) stack w).Alters (finish host a stack w).registry
  := by
  cases stack with
  | base | protecting => exact .keeps _ rfl nofun
  | creating n collects resume below => apply alters_finishCreation
  | producing n producer resume below =>
    rcases a with e | i
    · exact .restores n producer e resume below w
    · exact .memoizes n producer i resume below w
  | disposing n tasks resume below =>
    rcases a with text | u <;>
    · apply alters_announcing
      · exact .keeps _ rfl nofun
      · intro memory
        rfl

/-- A panic that unwinds a frame alters the registry in one of the ways listed. -/
theorem alters_unwind (host : Host φ δ μ) (p : Panic) (stack : Stack φ δ μ α ρ)
    (w : World φ δ μ) :
  (unwinding p stack w).Alters (unwind host p stack w).registry
  := by
  cases stack with
  | base | producing | protecting => exact .keeps _ rfl nofun
  | creating n collects resume below => exact .abandons p n collects resume below w
  | disposing n tasks resume below =>
    apply alters_announcing
    · exact .keeps _ rfl nofun
    · intro memory
      rfl

/-- The registry after a step is the one before it, or it is altered in one of the ways that
`Alters` lists. -/
theorem alters_step (host : Host φ δ μ) (m : Machine φ δ μ α) :
  m.Alters (m.step host).registry
  := by
  cases m with
  | halted outcome w => exact .keeps _ rfl nofun
  | unwinding p stack w => apply alters_unwind
  | tearing tasks resume stack w =>
    cases tasks with
    | nil => exact .keeps _ rfl nofun
    | cons task tasks =>
      cases task with
      | destroy n => exact .withdraws n tasks resume stack w
      | dispose n disposal =>
        apply Alters.keeps _ rfl
        rintro t ⟨⟩
        exact ⟨n, disposal, rfl⟩
      | contents n => exact .releases n tasks resume stack w
      | forget n => exact .forgets n tasks resume stack w
      | clear => exact .clears tasks resume stack w
  | @running ρ c stack w =>
    cases c with
    | done a => apply alters_finish
    | edit e next => exact .edits e next stack w
    | lookup n early next => apply alters_startLookup
    | create n factory next => apply alters_startCreation
    | destroyAll next => exact .marks next stack w
    | panic | view | revise | destroy | protect => exact .keeps _ rfl nofun

end Machine

end Componentry
