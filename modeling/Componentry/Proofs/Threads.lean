import Componentry.Proofs.Moves
import Componentry.Proofs.Nesting
import Mathlib.Logic.Function.Basic

/-!
# Bindings that threads share

Several threads may work on one registry and one memory, each with a machine of its own that makes
its steps in turn with the others.  Whatever they do and in whichever order their steps come, a name
that is bound to an instance stays bound to it until it is removed, a request for a creation is
answered with the instance that is bound at that moment, and between two creations of one name that
both succeed the name is removed.
-/

namespace Componentry

open Machine

variable {φ δ μ α ι : Type} {host : Host φ δ μ} {n : Name} {i : Ref}

namespace Machine

variable {m : Machine φ δ μ α} {ρ : Role} {stack : Stack φ δ μ α ρ} {w : World φ δ μ}

/-! ### Steps that change no binding -/

/-- A notice leaves the bindings alone, if what goes on after it does. -/
theorem finished_announcing {notice : Notice} {next : World φ δ μ → Machine φ δ μ α}
    (goes : ∀ m, (next { w with memory := m }).registry.finished = w.registry.finished) :
  (announcing host notice stack w next).registry.finished = w.registry.finished
  := by
  apply announcing_of (P := fun m => m.registry.finished = w.registry.finished)
  · intro _
    apply goes
  · intro _ _
    rfl

/-- To meet a request for a creation binds nothing. -/
theorem finished_startCreation (host : Host φ δ μ) (n : Name) (factory : φ)
    (resume : Except Error Materialized → Client φ δ μ (ρ.Result α)) (stack : Stack φ δ μ α ρ)
    (w : World φ δ μ) :
  (startCreation host n factory resume stack w).registry.finished = w.registry.finished
  := by
  unfold startCreation
  split
  · rfl
  · rfl
  · rename_i ha
    obtain ⟨-, -, guard, suppressed, -, -, -, rfl⟩ := Registry.of_admitted ha
    apply finished_announcing
    intro _
    rfl

/-- To look a name up binds nothing. -/
theorem finished_startLookup (host : Host φ δ μ) (n : Name) (early : Bool)
    (resume : Except Error (Option Ref) → Client φ δ μ (ρ.Result α)) (stack : Stack φ δ μ α ρ)
    (w : World φ δ μ) :
  (startLookup host n early resume stack w).registry.finished = w.registry.finished
  := by
  unfold startLookup
  split
  · rfl
  · rename_i hs
    obtain ⟨-, -, rfl⟩ := Registry.of_sight_pending hs
    rfl

theorem finished_finishLookup (n : Name) (producer : φ) (outcome : Except Error Ref)
    (resume : Except Error (Option Ref) → Client φ δ μ (ρ.Result α)) (stack : Stack φ δ μ α ρ)
    (w : World φ δ μ) :
  (finishLookup n producer outcome resume stack w).registry.finished = w.registry.finished
  := by
  cases outcome with
  | ok i => rfl
  | error e =>
    obtain ⟨producers, hr⟩ := w.registry.restore_eq n producer
    simp only [finishLookup, World.onRegistry, hr]
    rfl

/-- The end of a disposal leaves the bindings alone. -/
theorem finished_finishDisposal (host : Host φ δ μ) (notice : Notice) (tasks : List (Task δ))
    (resume : Unit → Client φ δ μ (ρ.Result α)) (stack : Stack φ δ μ α ρ) (w : World φ δ μ) :
  (finishDisposal host notice tasks resume stack w).registry.finished = w.registry.finished
  := by
  apply finished_announcing
  intro _
  rfl

theorem finished_unwind (host : Host φ δ μ) (p : Panic) (stack : Stack φ δ μ α ρ)
    (w : World φ δ μ) :
  (unwind host p stack w).registry.finished = w.registry.finished
  := by
  cases stack with
  | base | creating | producing | protecting => rfl
  | disposing n tasks resume below => apply finished_finishDisposal

/-! ### Steps that bind -/

end Machine

/-- What a creation comes to whose factory has returned. -/
def Registry.verdict (r : Registry φ δ) (n : Name) (collects : Bool) (outcome : Except Error Ref) :
    Except Error Materialized :=
  match (r.leave n collects).2, r.finished.get? n, outcome with
  | some e, _, _ => .error e
  | none, some i, _ => .ok (.alreadyPresent i)
  | none, none, .ok i => .ok (.created i)
  | none, none, .error e => .error (e.withRelated n (r.collected collects))

namespace Registry

variable {r : Registry φ δ} {collects : Bool} {outcome : Except Error Ref}

/-- A creation only succeeds with an instance of its own if the name is still unbound. -/
theorem of_verdict_created (h : r.verdict n collects outcome = .ok (.created i)) :
  r.finished.get? n = none
  := by
  unfold verdict at h
  split at h
  · cases h
  · cases h
  · assumption
  · cases h

/-- A creation that finds an instance present finds it bound to its name. -/
theorem of_verdict_alreadyPresent (h : r.verdict n collects outcome = .ok (.alreadyPresent i)) :
  r.finished.get? n = some i
  := by
  unfold verdict at h
  split at h
  · cases h
  · cases h
    assumption
  · cases h
  · cases h

/-- What a creation leaves that has come to a verdict: it is no longer under way, and the name is
bound if the verdict is that the component was created. -/
structure Concluded (r : Registry φ δ) (n : Name) (collects : Bool)
    (verdict : Except Error Materialized) (r' : Registry φ δ) : Prop where
  steady : (r.leave n collects).1.Steady r'
  mark : r'.inDestruction = r.inDestruction
  finished : r'.finished
    = match verdict with
      | .ok (.created i) => r.finished.insert n i
      | _ => r.finished

end Registry

namespace Machine

variable {m : Machine φ δ μ α} {ρ : Role} {stack : Stack φ δ μ α ρ} {w : World φ δ μ}

/-- After a notice the run goes on, or a panic comes back, which happens only if the host is not
calm. -/
theorem exists_announcing (host : Host φ δ μ) (notice : Notice) (stack : Stack φ δ μ α ρ)
    (w : World φ δ μ) (c : Client φ δ μ (ρ.Result α)) :
  ∃ m, announcing host notice stack w (running c stack) = running c stack { w with memory := m } ∨
    ¬ host.Calm ∧ ∃ p, announcing host notice stack w (running c stack)
      = unwinding p stack { w with memory := m }
  := by
  apply announcing_of (P := fun a => ∃ m, a = running c stack { w with memory := m } ∨
    ¬ host.Calm ∧ ∃ p, a = unwinding p stack { w with memory := m })
  · intro _
    exact ⟨_, .inl rfl⟩
  · intro p loud
    refine ⟨_, .inr ⟨?_, p, rfl⟩⟩
    intro calm
    cases (calm notice w.memory).symm.trans loud

/-- The end of a creation hands the verdict on, unless the one who hears of it panics. -/
theorem finishCreation_cases (host : Host φ δ μ) (n : Name) (collects : Bool)
    (outcome : Except Error Ref)
    (resume : Except Error Materialized → Client φ δ μ (ρ.Result α)) (stack : Stack φ δ μ α ρ)
    (w : World φ δ μ) :
  ∃ w', w.registry.Concluded n collects (w.registry.verdict n collects outcome) w'.registry ∧
    (finishCreation host n collects outcome resume stack w
        = running (resume (w.registry.verdict n collects outcome)) stack w' ∨
      ¬ host.Calm ∧ ∃ p, finishCreation host n collects outcome resume stack w
        = unwinding p stack w')
  := by
  have left : (w.registry.leave n collects).1.finished = w.registry.finished := rfl
  let released := (w.registry.leave n collects).1
  simp only [finishCreation, Registry.verdict, left]
  cases (w.registry.leave n collects).2 with
  | some e =>
    use ⟨released, w.memory⟩, ⟨.of_eq rfl rfl, rfl, rfl⟩
    exact .inl rfl
  | none =>
    cases w.registry.finished.get? n with
    | some i =>
      use ⟨released, w.memory⟩, ⟨.of_eq rfl rfl, rfl, rfl⟩
      exact .inl rfl
    | none =>
      cases outcome with
      | ok i =>
        obtain ⟨m, h⟩ := exists_announcing host (.created n) stack
          ⟨released.install n i, w.memory⟩ (resume (.ok (.created i)))
        use ⟨released.install n i, m⟩, ⟨.of_eq rfl rfl, rfl, rfl⟩, h
      | error e =>
        let e := e.withRelated n (w.registry.collected collects)
        obtain ⟨m, h⟩ := exists_announcing host (.creationFailed n e) stack
          ⟨released.dropEarly n, w.memory⟩ (resume (.error e))
        use ⟨released.dropEarly n, m⟩, ⟨.of_eq rfl rfl, rfl, rfl⟩, h

/-- The end of a creation binds the name exactly if its verdict is that the component was created.
-/
theorem finished_finishCreation (host : Host φ δ μ) (n : Name) (collects : Bool)
    (outcome : Except Error Ref)
    (resume : Except Error Materialized → Client φ δ μ (ρ.Result α)) (stack : Stack φ δ μ α ρ)
    (w : World φ δ μ) :
  (finishCreation host n collects outcome resume stack w).registry.finished
    = match w.registry.verdict n collects outcome with
      | .ok (.created i) => w.registry.finished.insert n i
      | _ => w.registry.finished
  := by
  obtain ⟨w', concluded, h | ⟨-, p, h⟩⟩ :=
    finishCreation_cases host n collects outcome resume stack w
  · rw [h]
    apply concluded.finished
  · rw [h]
    apply concluded.finished

/-- The next step strikes the instance that is bound to a name: on direct request, or in a
destruction. -/
def Removes (n : Name) : Machine φ δ μ α → Prop
  | running (.edit (.remove m) _) _ _ => m = n
  | tearing (.destroy m :: _) _ _ _ => m = n
  | tearing (.clear :: _) _ _ _ => True
  | _ => False

/-- The name is bound to the instance. -/
def Binds (n : Name) (i : Ref) (m : Machine φ δ μ α) : Prop :=
  m.registry.finished.get? n = some i

/-- A binding is there still if the bindings are the same. -/
theorem Binds.of_finished {m' : Machine φ δ μ α} (h : m.Binds n i)
    (same : m'.registry.finished = m.registry.finished) :
  m'.Binds n i
  := by
  rw [Binds, same]
  apply h

/-- The end of a creation keeps every binding: it binds its own name only where this was unbound. -/
theorem binds_finishCreation {m : Name} {collects : Bool} {outcome : Except Error Ref}
    {resume : Except Error Materialized → Client φ δ μ (ρ.Result α)}
    (h : w.registry.finished.get? n = some i) :
  (finishCreation host m collects outcome resume stack w).Binds n i
  := by
  rw [Binds, finished_finishCreation]
  split
  · rename_i j hv
    have hne : n ≠ m := by
      rintro rfl
      rw [Registry.of_verdict_created hv] at h
      cases h
    apply (Catalog.get?_insert_of_ne hne).trans h
  · apply h

/-- A program that returns keeps every binding. -/
theorem Binds.finish {a : ρ.Result α} (h : (running (.done a) stack w).Binds n i) :
  (finish host a stack w).Binds n i
  := by
  cases stack with
  | base => exact h
  | creating m collects resume below => apply binds_finishCreation h
  | producing m producer resume below => apply h.of_finished (finished_finishLookup ..)
  | disposing m tasks resume below =>
    rcases a with text | u
    · apply h.of_finished (finished_finishDisposal ..)
    · apply h.of_finished (finished_finishDisposal ..)
  | protecting resume below => exact h

/-- A request that is answered at once keeps a binding, unless it removes the instance. -/
theorem Binds.edit {e : Edit φ δ} {next : e.Answer → Client φ δ μ (ρ.Result α)}
    (h : (running (.edit e next) stack w).Binds n i)
    (kept : ¬ (running (.edit e next) stack w).Removes n) :
  (step host (running (.edit e next) stack w)).Binds n i
  := by
  change w.registry.finished.get? n = some i at h
  change (w.registry.edit e).1.finished.get? n = some i
  cases e with
  | bind m j =>
    obtain ⟨hm, hb⟩ | hb := w.registry.edit_bind m j
    · have hne : n ≠ m := by
        rintro rfl
        rw [h] at hm
        cases hm
      rw [hb]
      apply (Catalog.get?_insert_of_ne hne).trans h
    · rw [hb]
      apply h
  | publish m producer =>
    simp only [Registry.edit, Registry.publish]
    split
    · apply h
    · apply h
  | remove m =>
    have hne : n ≠ m := fun hm => kept hm.symm
    apply (Catalog.get?_erase_of_ne hne).trans h
  | suppress | setExempt | depend | contain | onDestroy => apply h

/-- A task keeps a binding, unless it removes the instance. -/
theorem Binds.tear {task : Task δ} {tasks : List (Task δ)}
    {resume : Unit → Client φ δ μ (ρ.Result α)}
    (h : (tearing (task :: tasks) resume stack w).Binds n i)
    (kept : ¬ (tearing (task :: tasks) resume stack w).Removes n) :
  (tear host task tasks resume stack w).Binds n i
  := by
  cases task with
  | destroy m =>
    have hne : n ≠ m := fun hm => kept hm.symm
    apply (Catalog.get?_erase_of_ne hne).trans h
  | clear => apply absurd trivial kept
  | dispose | contents | forget => exact h

/-- A step keeps a binding unless it removes it. -/
theorem Binds.step (h : m.Binds n i) (kept : ¬ m.Removes n) :
  (m.step host).Binds n i
  := by
  cases m with
  | halted outcome w => exact h
  | unwinding p stack w => apply h.of_finished (finished_unwind ..)
  | tearing tasks resume stack w =>
    cases tasks with
    | nil => exact h
    | cons task tasks => apply h.tear kept
  | @running ρ c stack w =>
    cases c with
    | done a => apply h.finish
    | edit e next => apply h.edit kept
    | lookup m early next => apply h.of_finished (finished_startLookup ..)
    | create m factory next => apply h.of_finished (finished_startCreation ..)
    | panic | view | revise | destroy | destroyAll | protect => exact h

/-! ### Answers -/

/-- The name for whose creation was asked and the answer, if such a request is answered with the
next step. -/
def answer? : Machine φ δ μ α → Option (Name × Except Error Materialized)
  | running (.create n _ _) _ w =>
    match w.registry.beginCreation n with
    | .present i => some (n, .ok (.alreadyPresent i))
    | .refused e => some (n, .error e)
    | .admitted _ _ => none
  | @running _ _ _ _ _ (.done outcome) (.creating n collects _ _) w =>
    some (n, w.registry.verdict n collects outcome)
  | _ => none

/-- The program that waits for the creation of a component gets an answer with the next step, unless
the one who hears of the creation panics. -/
inductive Gets (host : Host φ δ μ) (n : Name) (a : Except Error Materialized) :
    Machine φ δ μ α → Prop
  | atOnce {ρ : Role} {factory : φ} {resume : Except Error Materialized → Client φ δ μ (ρ.Result α)}
      {stack : Stack φ δ μ α ρ} {w : World φ δ μ}
      (h : step host (running (.create n factory resume) stack w) = running (resume a) stack w) :
      Gets host n a (running (.create n factory resume) stack w)
  | after {ρ : Role} {outcome : Except Error Ref} {collects : Bool}
      {resume : Except Error Materialized → Client φ δ μ (ρ.Result α)} {below : Stack φ δ μ α ρ}
      {w w' : World φ δ μ}
      (h : finishCreation host n collects outcome resume below w = running (resume a) below w' ∨
        ∃ p, finishCreation host n collects outcome resume below w = unwinding p below w') :
      Gets host n a (@running _ _ _ _ .maker (.done outcome) (.creating n collects resume below) w)

/-- Answers are handed to those who wait for them. -/
theorem gets_of_answer {a : Except Error Materialized} (h : m.answer? = some (n, a)) :
  m.Gets host n a
  := by
  cases m with
  | tearing | unwinding | halted => cases h
  | @running ρ c stack w =>
    cases c with
    | create m factory resume =>
      simp only [answer?] at h
      cases hb : w.registry.beginCreation m with
      | present i =>
        rw [hb] at h
        cases h
        apply Gets.atOnce
        simp only [step, startCreation, hb]
      | refused e =>
        rw [hb] at h
        cases h
        apply Gets.atOnce
        simp only [step, startCreation, hb]
      | admitted collects r =>
        rw [hb] at h
        cases h
    | done outcome =>
      cases stack with
      | creating m collects resume below =>
        cases h
        obtain ⟨w', -, h⟩ := finishCreation_cases host n collects outcome resume below w
        apply Gets.after (h.imp_right And.right)
      | base | producing | disposing | protecting => cases h
    | panic | view | revise | edit | lookup | destroy | destroyAll | protect => cases h

/-- Two ways lead to an answer: the request is met at once, or the factory has returned. -/
theorem answer_cases (host : Host φ δ μ) {a : Except Error Materialized}
    (h : m.answer? = some (n, a)) :
  ((m.step host).registry.finished = m.registry.finished ∧
    ((∃ i, a = .ok (.alreadyPresent i) ∧ m.registry.finished.get? n = some i) ∨
      ∃ e, a = .error e)) ∨
  ∃ i, a = .ok (.created i) ∧ m.registry.finished.get? n = none ∧
    (m.step host).registry.finished = m.registry.finished.insert n i
  := by
  cases m with
  | tearing | unwinding | halted => cases h
  | @running ρ c stack w =>
    cases c with
    | create m factory resume =>
      left
      use finished_startCreation host m factory resume stack w
      simp only [answer?] at h
      cases hb : w.registry.beginCreation m with
      | present i =>
        rw [hb] at h
        cases h
        left
        use i, rfl
        apply Registry.of_present hb
      | refused e =>
        rw [hb] at h
        cases h
        right
        use e
      | admitted collects r =>
        rw [hb] at h
        cases h
    | done outcome =>
      cases stack with
      | creating m collects resume below =>
        cases h
        -- the verdict looks the name up again, after the factory has returned
        have after := finished_finishCreation host n collects outcome resume below w
        cases hv : w.registry.verdict n collects outcome with
        | error e =>
          rw [hv] at after
          left
          use after
          right
          use e
        | ok a =>
          rw [hv] at after
          cases a with
          | alreadyPresent i =>
            left
            use after
            left
            use i, rfl
            apply Registry.of_verdict_alreadyPresent hv
          | created i =>
            right
            use i, rfl
            use Registry.of_verdict_created hv
            exact after
      | base | producing | disposing | protecting => cases h
    | panic | view | revise | edit | lookup | destroy | destroyAll | protect => cases h

/-- An answer that is a success is the instance to which the name is bound then. -/
theorem binds_of_answer {a : Materialized} (h : m.answer? = some (n, .ok a)) :
  (m.step host).Binds n a.ref
  := by
  obtain ⟨same, ⟨i, ha, hi⟩ | ⟨e, ⟨⟩⟩⟩ | ⟨i, ha, -, after⟩ := answer_cases host h
  · cases ha
    rw [Binds, same]
    apply hi
  · cases ha
    rw [Binds, after]
    apply Catalog.get?_insert_self

/-- The name is unbound right before an instance is created for it. -/
theorem unbound_of_created (host : Host φ δ μ) (h : m.answer? = some (n, .ok (.created i))) :
  m.registry.finished.get? n = none
  := by
  obtain ⟨-, ⟨j, ⟨⟩, -⟩ | ⟨e, ⟨⟩⟩⟩ | ⟨j, -, unbound, -⟩ := answer_cases host h
  apply unbound

/-! ### Moments of several machines -/

/-- The registry and the memory at a moment of a run. -/
def world : Machine φ δ μ α → World φ δ μ
  | running _ _ w => w
  | tearing _ _ _ w => w
  | unwinding _ _ w => w
  | halted _ w => w

/-- The moment with another registry and another memory. -/
def within (w : World φ δ μ) : Machine φ δ μ α → Machine φ δ μ α
  | running c stack _ => running c stack w
  | tearing tasks resume stack _ => tearing tasks resume stack w
  | unwinding p stack _ => unwinding p stack w
  | halted outcome _ => halted outcome w

theorem registry_world (m : Machine φ δ μ α) :
  m.world.registry = m.registry
  := by
  cases m <;> rfl

theorem registry_within (m : Machine φ δ μ α) (w : World φ δ μ) :
  (m.within w).registry = w.registry
  := by
  cases m <;> rfl

end Machine

/-- Threads that share a registry and a memory. -/
structure Threads (ι φ δ μ α : Type) where
  /-- The registry and the memory. -/
  world : World φ δ μ
  /-- What each thread is about. -/
  machine : ι → Machine φ δ μ α

namespace Threads

variable [DecidableEq ι] {s : Threads ι φ δ μ α} {t u : ι} {ts : List ι}

/-- The moment of a thread. -/
def moment (s : Threads ι φ δ μ α) (t : ι) : Machine φ δ μ α := (s.machine t).within s.world

/-- A thread makes a step. -/
def step (host : Host φ δ μ) (s : Threads ι φ δ μ α) (t : ι) : Threads ι φ δ μ α :=
  let m := (s.moment t).step host
  ⟨m.world, Function.update s.machine t m⟩

/-- Threads make their steps in turn. -/
def run (host : Host φ δ μ) : Threads ι φ δ μ α → List ι → Threads ι φ δ μ α
  | s, [] => s
  | s, t :: ts => (s.step host t).run host ts

/-- The thread removes the instance of a name with its next step. -/
def Removes (s : Threads ι φ δ μ α) (n : Name) (t : ι) : Prop := (s.moment t).Removes n

/-- The instance of a name is removed on the way. -/
def Removed (host : Host φ δ μ) (n : Name) : Threads ι φ δ μ α → List ι → Prop
  | _, [] => False
  | s, t :: ts => s.Removes n t ∨ Removed host n (s.step host t) ts

/-- The name is bound to the instance. -/
def Binds (s : Threads ι φ δ μ α) (n : Name) (i : Ref) : Prop :=
  s.world.registry.finished.get? n = some i

/-- A thread gets an answer to its request for the creation of a component with its next step. -/
def Answers (s : Threads ι φ δ μ α) (n : Name) (t : ι) (a : Except Error Materialized) : Prop :=
  (s.moment t).answer? = some (n, a)

omit [DecidableEq ι] in
/-- What a thread finds bound is what is bound in the registry that all of them share. -/
theorem binds_moment :
  (s.moment t).Binds n i ↔ s.Binds n i
  := by
  rw [Machine.Binds, moment, registry_within]
  rfl

/-- What is bound after the step of a thread is what this thread has left. -/
theorem binds_step :
  (s.step host t).Binds n i ↔ ((s.moment t).step host).Binds n i
  := by
  rw [Machine.Binds, ← registry_world]
  rfl

/-- A binding stays until it is removed. -/
theorem Binds.run (h : s.Binds n i) (kept : ¬ Removed host n s ts) :
  (s.run host ts).Binds n i
  := by
  induction ts generalizing s with
  | nil => apply h
  | cons t ts ih =>
    obtain ⟨kept, rest⟩ := not_or.mp kept
    apply ih _ rest
    apply binds_step.mpr
    apply Machine.Binds.step (binds_moment.mpr h) kept

/-- After a request for a creation was answered with an instance, the name is bound to it. -/
theorem Answers.binds {a : Materialized} (h : s.Answers n t (.ok a)) :
  (s.step host t).Binds n a.ref
  := binds_step.mpr (binds_of_answer h)

/-- Of a name that is bound no instance is created until it is removed. -/
theorem Binds.removed {j : Ref} (h : s.Binds n i)
    (h' : (s.run host ts).Answers n u (.ok (.created j))) :
  Removed host n s ts
  := by
  by_contra kept
  have bound : ((s.run host ts).moment u).Binds n i := binds_moment.mpr (h.run kept)
  rw [Machine.Binds, unbound_of_created host h'] at bound
  cases bound

end Threads

end Componentry
