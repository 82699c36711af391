import Componentry.Proofs.Footprint
import Componentry.Proofs.Threads

/-!
# One winner

Threads that all ask for the creation of one component are let in one at a time.  As long as no one
has succeeded, the one that is let in runs its factory.  The first one whose factory returns an
instance has created the component, and every later one is given that instance.

The main result, `single_winner`, says this for threads whose notices are heard without a panic.  By
`not_single_winner` it fails otherwise: the creation whose beginning is heard with a panic is never
left, and stands in the way of all others.
-/

namespace Componentry

open Machine

variable {φ δ μ α ι : Type} {host : Host φ δ μ} {n : Name} {i : Ref} {most : Nat} {f : φ}

/-! ### The lock -/

/-- A creation is under way, or an early reference is made.  The lock of the registry is held until
the frame is gone. -/
def Stack.Locks : {ρ : Role} → Stack φ δ μ α ρ → Prop
  | _, base => False
  | _, creating _ _ _ _ => True
  | _, producing _ _ _ _ => True
  | _, disposing _ _ _ below => below.Locks
  | _, protecting _ below => below.Locks

/-- The thread holds the lock of the registry. -/
def Machine.Locks : Machine φ δ μ α → Prop
  | running _ stack _ => stack.Locks
  | tearing _ _ stack _ => stack.Locks
  | unwinding _ stack _ => stack.Locks
  | halted _ _ => False

/-- The thread asks for the lock of the registry. -/
def Machine.Acquires : Machine φ δ μ α → Prop
  | running (.create _ _ _) _ _ => True
  | running (.lookup _ _ _) _ _ => True
  | _ => False

/-! ### What a creation comes to -/

namespace Registry

variable {r : Registry φ δ} {collects : Bool} {outcome : Except Error Ref}

/-- An instance that was made is the one that was created, if the creation can be left and the name
is still unbound. -/
theorem verdict_ok (left : (r.leave n collects).2 = none) (unbound : r.finished.get? n = none) :
  r.verdict n collects (.ok i) = .ok (.created i)
  := by
  simp only [verdict, left, unbound]

/-- A creation that succeeds although its name was unbound has created the instance. -/
theorem of_verdict_ok {a : Materialized} (unbound : r.finished.get? n = none)
    (h : r.verdict n collects outcome = .ok a) :
  ∃ i, a = .created i ∧ outcome = .ok i
  := by
  unfold verdict at h
  rw [unbound] at h
  split at h
  · cases h
  · contradiction
  · cases h
    exact ⟨_, rfl, rfl⟩
  · cases h

/-- The only creation under way ends. -/
theorem Tracks.leave_only (h : r.Tracks most [n]) :
  (r.leave n true).2 = none ∧ (r.leave n true).1.Tracks most []
  := by
  have h : r.Tracks most ([] ++ [n]) := h
  apply h.leave
  apply iff_of_true rfl rfl

end Registry

namespace Machine

variable {m : Machine φ δ μ α} {ρ : Role} {stack : Stack φ δ μ α ρ} {w : World φ δ μ}

/-! ### Calls that have come to an end -/

/-- What the program that was asked for comes to, once nothing but its end is left. -/
def outcome? : Machine φ δ μ α → Option (Except Panic α)
  | @running _ _ _ _ _ (.done a) .base _ => some (.ok a)
  | @unwinding _ _ _ _ p _ .base _ => some (.error p)
  | halted outcome _ => some outcome
  | _ => none

theorem within_world (m : Machine φ δ μ α) :
  m.within m.world = m
  := by
  cases m <;> rfl

theorem outcome?_within (m : Machine φ δ μ α) (w : World φ δ μ) :
  (m.within w).outcome? = m.outcome?
  := by
  cases m with
  | halted | tearing => rfl
  | unwinding p stack _ => cases stack <;> rfl
  | running c stack _ => cases c <;> cases stack <;> rfl

/-- Nothing happens any more after the end. -/
theorem step_of_outcome (host : Host φ δ μ) {o : Except Panic α} (h : m.outcome? = some o) :
  (m.step host).outcome? = some o ∧ (m.step host).registry = m.registry
  := by
  unfold outcome? at h
  split at h
  · cases h
    exact ⟨rfl, rfl⟩
  · cases h
    exact ⟨rfl, rfl⟩
  · cases h
    exact ⟨rfl, rfl⟩
  · cases h

end Machine

/-! ### Calls under way -/

/-- On this stack a component is created for the program that was asked for, and whatever is
protected meanwhile goes on in a way that keeps aloof from the registry. -/
inductive Stack.Shelters (host : Host φ δ μ) (n : Name) :
    {ρ : Role} → Stack φ δ μ (Except Error Materialized) ρ → Prop
  | creating : Shelters host n (.creating n true .done .base)
  | protecting {ρ : Role}
      {resume : Except Panic (Except String Unit) →
        Client φ δ μ (ρ.Result (Except Error Materialized))}
      {below : Stack φ δ μ (Except Error Materialized) ρ} (hr : ∀ a, (resume a).Aloof host)
      (hb : Shelters host n below) : Shelters host n (.protecting resume below)

namespace Machine

variable {m : Machine φ δ μ (Except Error Materialized)} {w : World φ δ μ}

/-- The call has not been met yet. -/
inductive Waits (n : Name) (f : φ) : Machine φ δ μ (Except Error Materialized) → Prop
  | ask (w : World φ δ μ) : Waits n f (start (.create n f .done) w)

/-- The factory of the call is running. -/
inductive Works (host : Host φ δ μ) (n : Name) : Machine φ δ μ (Except Error Materialized) → Prop
  | running {ρ : Role} {c : Client φ δ μ (ρ.Result (Except Error Materialized))}
      {stack : Stack φ δ μ (Except Error Materialized) ρ} {w : World φ δ μ} (hc : c.Aloof host)
      (hs : stack.Shelters host n) : Works host n (.running c stack w)
  | unwinding {ρ : Role} {p : Panic} {stack : Stack φ δ μ (Except Error Materialized) ρ}
      {w : World φ δ μ} (hs : stack.Shelters host n) : Works host n (.unwinding p stack w)

/-- The factory of the call has made an instance. -/
inductive Makes (n : Name) (i : Ref) : Machine φ δ μ (Except Error Materialized) → Prop
  | done (w : World φ δ μ) :
      Makes n i (@running _ _ _ _ .maker (.done (.ok i)) (.creating n true .done .base) w)

/-- The call has not been met yet, or has come to its end. -/
def Rests (n : Name) (f : φ) (m : Machine φ δ μ (Except Error Materialized)) : Prop :=
  m.Waits n f ∨ ∃ o, m.outcome? = some o

theorem Waits.outcome?_eq (h : m.Waits n f) :
  m.outcome? = none
  := by
  cases h
  rfl

theorem Waits.acquires (h : m.Waits n f) :
  m.Acquires
  := by
  cases h
  trivial

theorem Waits.within (h : m.Waits n f) (w : World φ δ μ) :
  (m.within w).Waits n f
  := by
  cases h
  apply Waits.ask

theorem Works.outcome?_eq (h : m.Works host n) :
  m.outcome? = none
  := by
  cases h with
  | running hc hs => cases hc <;> cases hs <;> rfl
  | unwinding hs => cases hs <;> rfl

theorem Works.not_rests (h : m.Works host n) :
  ¬ m.Rests n f
  := by
  rintro (hw | ⟨o, ho⟩)
  · cases hw
    cases h with
    | running hc _ => cases hc
  · rw [h.outcome?_eq] at ho
    cases ho

theorem Works.locks (h : m.Works host n) :
  m.Locks
  := by
  have locks : ∀ {ρ : Role} {stack : Stack φ δ μ (Except Error Materialized) ρ},
      stack.Shelters host n → stack.Locks := by
    intro _ _ hs
    induction hs with
    | creating => trivial
    | protecting _ _ ih => apply ih
  cases h with
  | running _ hs => apply locks hs
  | unwinding hs => apply locks hs

theorem Works.within (h : m.Works host n) (w : World φ δ μ) :
  (m.within w).Works host n
  := by
  cases h with
  | running hc hs => apply Works.running hc hs
  | unwinding hs => apply Works.unwinding hs

/-- A call has come to its end, no creation is under way any more, and the name is bound if the call
has succeeded, and then to the instance that it was given. -/
structure Concludes (most : Nat) (n : Name) (m : Machine φ δ μ (Except Error Materialized))
    (o : Except Panic (Except Error Materialized)) : Prop where
  outcome : m.outcome? = some o
  tracks : m.registry.Tracks most []
  peace : m.registry.inDestruction = false
  binds : ∀ i, m.Binds n i ↔ ∃ a, o = .ok (.ok a) ∧ a.ref = i

/-- The end of a creation leaves the registry at rest and gives back what it comes to. -/
theorem concludes_finishCreation (calm : host.Calm) (tracks : w.registry.Tracks most [n])
    (peace : w.registry.inDestruction = false) (unbound : w.registry.finished.get? n = none)
    (outcome : Except Error Ref) :
  (finishCreation host n true outcome .done (.base (α := Except Error Materialized)) w).Concludes
    most n (.ok (w.registry.verdict n true outcome))
  := by
  obtain ⟨w', concluded, after | ⟨loud, -⟩⟩ := finishCreation_cases host n true outcome .done
    (.base (α := Except Error Materialized)) w
  case inr => apply absurd calm loud
  rw [after]
  use rfl, tracks.leave_only.2.steady concluded.steady, concluded.mark.trans peace
  intro i
  change w'.registry.finished.get? n = some i ↔ _
  rw [concluded.finished]
  cases hv : w.registry.verdict n true outcome with
  | error e =>
    apply iff_of_false
    · rw [unbound]
      rintro ⟨⟩
    · rintro ⟨a, ⟨⟩, -⟩
  | ok a =>
    obtain ⟨j, rfl, -⟩ := Registry.of_verdict_ok unbound hv
    simp only [Catalog.get?_insert_self]
    constructor
    · rintro ⟨⟩
      exact ⟨_, rfl, rfl⟩
    · rintro ⟨a, ⟨⟩, rfl⟩
      rfl

theorem Makes.works (host : Host φ δ μ) (h : m.Makes n i) :
  m.Works host n
  := by
  cases h
  apply Works.running (.done _) .creating

theorem makes_within (w : World φ δ μ) :
  (m.within w).Makes n i ↔ m.Makes n i
  := by
  constructor
  · intro h
    cases m with
    | running c stack w' =>
      cases h
      apply Makes.done
    | tearing | unwinding | halted => cases h
  · rintro ⟨w'⟩
    apply Makes.done

/-- A factory that has made an instance while the name was unbound has created the component. -/
theorem Makes.concludes (calm : host.Calm) (h : m.Makes n i) (tracks : m.registry.Tracks most [n])
    (peace : m.registry.inDestruction = false) (unbound : m.registry.finished.get? n = none) :
  (m.step host).Concludes most n (.ok (.ok (.created i)))
  := by
  obtain ⟨w⟩ := h
  have made : w.registry.verdict n true (.ok i) = .ok (.created i) :=
    Registry.verdict_ok tracks.leave_only.1 unbound
  rw [← made]
  exact concludes_finishCreation calm tracks peace unbound (.ok i)

/-- A creation under way goes on and leaves the registry alone, until it comes to its end. -/
theorem Works.step (calm : host.Calm) (h : m.Works host n) (tracks : m.registry.Tracks most [n])
    (peace : m.registry.inDestruction = false) (unbound : m.registry.finished.get? n = none) :
  ((m.step host).Works host n ∧ (m.step host).registry = m.registry) ∨
    ∃ o, (m.step host).Concludes most n o ∧ ∀ a, o = .ok (.ok a) → ∃ i, a = .created i ∧ m.Makes n i
  := by
  cases h with
  | @unwinding ρ p stack w hs =>
    cases hs with
    -- the panic breaks the creation off, and nothing is bound
    | creating =>
      right
      use .error p
      constructor
      · have after : (w.registry.abandon n true).Tracks most [] :=
          tracks.leave_only.2.steady (.of_eq rfl rfl)
        use rfl, after, peace
        intro i
        apply iff_of_false
        · intro bound
          cases unbound.symm.trans bound
        · rintro ⟨a, ⟨⟩, -⟩
      · rintro a ⟨⟩
    | protecting hr hb =>
      left
      use .running (hr _) hb
      rfl
  | @running ρ c stack w hc hs =>
    cases hc with
    | done outcome =>
      cases hs with
      | creating =>
        right
        use .ok (w.registry.verdict n true outcome)
        use concludes_finishCreation calm tracks peace unbound outcome
        intro a ha
        obtain ⟨i, rfl, rfl⟩ := Registry.of_verdict_ok unbound (Except.ok.inj ha)
        use i, rfl, w
      | protecting hr hb =>
        left
        use .running (hr _) hb
        rfl
    | panic p =>
      left
      use .unwinding hs
      rfl
    | view h =>
      left
      use .running (h _ _) hs
      rfl
    | revise h =>
      left
      use .running h hs
      rfl
    | protect hb h =>
      left
      use .running hb (.protecting h hs)
      rfl

/-- A factory that keeps aloof from the registry comes to its end, and so does the call. -/
theorem exists_outcome {c : Client φ δ μ (Except Error Ref)} (h : c.Aloof host) (w : World φ δ μ) :
  ∃ k o, (runFor host k (@running _ _ _ (Except Error Materialized) .maker c
    (.creating n true .done .base) w)).outcome? = some o
  := by
  obtain ⟨outcome, m, settles⟩ := h.settles w
  obtain ⟨k, hk⟩ := (settles.toFrame (ρ := .maker) (.creating n true .done
    (.base (α := Except Error Materialized)))).leads
  use k + 1
  rw [runFor_add, hk]
  cases outcome with
  | error p => exact ⟨.error p, rfl⟩
  | ok b =>
    obtain ⟨w', -, after | ⟨-, p, after⟩⟩ := finishCreation_cases host n true b .done
      (.base (α := Except Error Materialized)) ⟨w.registry, m⟩
    · use .ok (w.registry.verdict n true b)
      exact congrArg _ after
    · use .error p
      exact congrArg _ after

/-- A call that finds the name bound is given the instance. -/
theorem Waits.step_bound (host : Host φ δ μ) (h : m.Waits n f) (bound : m.Binds n i) :
  (m.step host).outcome? = some (.ok (.ok (.alreadyPresent i))) ∧
    (m.step host).registry = m.registry
  := by
  obtain ⟨w⟩ := h
  have present : w.registry.beginCreation n = .present i := by
    have bound : w.registry.finished.get? n = some i := bound
    rw [Registry.beginCreation, bound]
  have after : (start (.create n f .done) w).step host
      = @running _ _ _ _ .main (.done (.ok (.alreadyPresent i))) .base w := by
    simp only [start, Machine.step, startCreation, present]
    rfl
  rw [after]
  exact ⟨rfl, rfl⟩

/-- A call that finds the name unbound, and no creation under way, runs its factory. -/
theorem Waits.step_unbound (calm : host.Calm) (h : m.Waits n f)
    (tracks : m.registry.Tracks most []) (room : most ≠ 0)
    (peace : m.registry.inDestruction = false) (unbound : m.registry.finished.get? n = none) :
  ∃ w, m.step host = @running _ _ _ _ .maker (host.make f) (.creating n true .done .base) w ∧
    w.registry.Tracks most [n] ∧ w.registry.inDestruction = false ∧
    w.registry.finished = m.registry.finished
  := by
  obtain ⟨w⟩ := h
  obtain ⟨r, admitted, h⟩ := Registry.Tracks.begins tracks room peace unbound
  have admitted : w.registry.beginCreation n = .admitted true r := admitted
  use ⟨r, (host.hear (.creating n) w.memory).2⟩
  refine ⟨?_, h⟩
  simp only [start, Machine.step, startCreation, admitted, announcing_calm calm]

end Machine

/-! ### Threads that ask for one component -/

namespace Threads

/-- No other thread holds the lock of the registry. -/
def Free (s : Threads ι φ δ μ α) (t : ι) : Prop := ∀ u, u ≠ t → ¬ (s.machine u).Locks

theorem registry_moment (s : Threads ι φ δ μ α) (t : ι) :
  (s.moment t).registry = s.world.registry
  := by
  apply registry_within

variable {factory : ι → φ} {s : Threads ι φ δ μ (Except Error Materialized)} {t u : ι}

/-- All threads ask for the creation of one component, each with a factory of its own. -/
def calling (n : Name) (factory : ι → φ) (w : World φ δ μ) :
    Threads ι φ δ μ (Except Error Materialized) :=
  ⟨w, fun t => start (.create n (factory t) .done) w⟩

/-- The call of a thread has succeeded. -/
def Succeeds (s : Threads ι φ δ μ (Except Error Materialized)) (t : ι) (a : Materialized) : Prop :=
  (s.machine t).outcome? = some (.ok (.ok a))

/-- One thread has its factory running. -/
structure Engaged (host : Host φ δ μ) (n : Name) (factory : ι → φ) (most : Nat)
    (s : Threads ι φ δ μ (Except Error Materialized)) (t : ι) : Prop where
  works : (s.machine t).Works host n
  others : ∀ u, u ≠ t → (s.machine u).Rests n (factory u)
  tracks : s.world.registry.Tracks most [n]
  unbound : s.world.registry.finished.get? n = none

/-- No thread has its factory running. -/
structure Vacant (n : Name) (factory : ι → φ) (most : Nat)
    (s : Threads ι φ δ μ (Except Error Materialized)) : Prop where
  rests : ∀ u, (s.machine u).Rests n (factory u)
  tracks : s.world.registry.Tracks most []

/-- At most one thread has its factory running, and the name is bound to the instance that the calls
which have succeeded were given. -/
structure Contested (host : Host φ δ μ) (n : Name) (factory : ι → φ) (most : Nat)
    (s : Threads ι φ δ μ (Except Error Materialized)) : Prop where
  phase : s.Vacant n factory most ∨ ∃ t, s.Engaged host n factory most t
  peace : s.world.registry.inDestruction = false
  binds : ∀ i, s.Binds n i ↔ ∃ u a, s.Succeeds u a ∧ a.ref = i

/-- Threads that are about to call contest an unbound name in a registry at rest. -/
theorem contested_calling {w : World φ δ μ} (rest : w.registry.AtRest)
    (peace : w.registry.inDestruction = false) (unbound : w.registry.finished.get? n = none) :
  (calling n factory w).Contested host n factory w.registry.guard.limit
  := by
  constructor
  case phase =>
    left
    constructor
    · intro u
      left
      apply Waits.ask
    · apply rest.tracks
  case peace => apply peace
  case binds =>
    intro i
    apply iff_of_false
    · intro bound
      cases unbound.symm.trans bound
    · rintro ⟨u, a, ⟨⟩, -⟩

namespace Contested

/-- No call has succeeded as long as the name is unbound. -/
theorem not_succeeds (h : s.Contested host n factory most)
    (unbound : s.world.registry.finished.get? n = none) (u : ι) (a : Materialized) :
  ¬ s.Succeeds u a
  := by
  intro ha
  cases unbound.symm.trans ((h.binds _).mpr ⟨u, a, ha, rfl⟩)

/-- The name is unbound as long as no call has succeeded. -/
theorem unbound (h : s.Contested host n factory most) (nobody : ∀ u a, ¬ s.Succeeds u a) :
  s.world.registry.finished.get? n = none
  := by
  cases hb : s.world.registry.finished.get? n with
  | none => rfl
  | some i =>
    obtain ⟨u, a, ha, -⟩ := (h.binds i).mp hb
    apply absurd ha (nobody u a)

/-- A thread whose factory is not running is met only while no factory is. -/
theorem vacant (h : s.Contested host n factory most) (free : s.Free t)
    (rests : (s.machine t).Rests n (factory t)) :
  s.Vacant n factory most
  := by
  obtain vacant | ⟨u, engaged⟩ := h.phase
  · apply vacant
  · have hu : u ≠ t := by
      rintro rfl
      apply engaged.works.not_rests rests
    apply absurd engaged.works.locks (free u hu)

/-- A thread runs its factory, or it has still to be met or has ended. -/
theorem rests_or_engaged (h : s.Contested host n factory most) (t : ι) :
  (s.machine t).Rests n (factory t) ∨ s.Engaged host n factory most t
  := by
  obtain vacant | ⟨u, engaged⟩ := h.phase
  · left
    apply vacant.rests
  · by_cases hu : t = u
    · subst hu
      right
      apply engaged
    · left
      apply engaged.others t hu

/-- A call that is met while the name is unbound runs its factory. -/
theorem begins (calm : host.Calm) (room : most ≠ 0) (h : s.Contested host n factory most)
    (vacant : s.Vacant n factory most) (waits : (s.machine t).Waits n (factory t))
    (unbound : s.world.registry.finished.get? n = none) :
  ∃ w, (s.moment t).step host
      = @running _ _ _ _ .maker (host.make (factory t)) (.creating n true .done .base) w ∧
    w.registry.Tracks most [n] ∧ w.registry.inDestruction = false ∧
    w.registry.finished = s.world.registry.finished
  := by
  have tracks := vacant.tracks
  have peace := h.peace
  rw [← registry_moment s t] at tracks peace unbound ⊢
  have waits : (s.moment t).Waits n (factory t) := waits.within s.world
  apply waits.step_unbound calm tracks room peace unbound

/-- The thread whose factory is running goes on, or comes to its end. -/
theorem proceeds (calm : host.Calm) (h : s.Contested host n factory most)
    (engaged : s.Engaged host n factory most t) :
  (((s.moment t).step host).Works host n ∧
    ((s.moment t).step host).registry = s.world.registry) ∨
  ∃ o, ((s.moment t).step host).Concludes most n o ∧
    ∀ a, o = .ok (.ok a) → ∃ i, a = .created i ∧ (s.machine t).Makes n i
  := by
  obtain ⟨works, -, tracks, unbound⟩ := engaged
  have peace := h.peace
  rw [← registry_moment s t] at tracks peace unbound ⊢
  have works : (s.moment t).Works host n := works.within s.world
  simp only [← makes_within s.world (m := s.machine t)]
  apply works.step calm tracks peace unbound

end Contested

/-! ### Steps of threads -/

variable [DecidableEq ι]

/-- A thread that asks for the lock makes its step only when no other one holds it. -/
def Excludes (host : Host φ δ μ) : Threads ι φ δ μ α → List ι → Prop
  | _, [] => True
  | s, t :: ts => ((s.machine t).Acquires → s.Free t) ∧ Excludes host (s.step host t) ts

theorem machine_step (s : Threads ι φ δ μ α) (t : ι) :
  (s.step host t).machine t = (s.moment t).step host
  := by
  apply Function.update_self

theorem machine_step_of_ne {s : Threads ι φ δ μ α} (h : u ≠ t) :
  (s.step host t).machine u = s.machine u
  := by
  apply Function.update_of_ne h

/-- A thread that makes none of the steps stays where it is. -/
theorem machine_run_of_notMem {s : Threads ι φ δ μ α} {ts : List ι} (h : u ∉ ts) :
  (s.run host ts).machine u = s.machine u
  := by
  induction ts generalizing s with
  | nil => rfl
  | cons t ts ih =>
    rw [List.mem_cons, not_or] at h
    obtain ⟨hu, later⟩ := h
    apply (ih later).trans
    apply machine_step_of_ne hu

theorem registry_step (s : Threads ι φ δ μ α) (t : ι) :
  (s.step host t).world.registry = ((s.moment t).step host).registry
  := by
  apply registry_world

theorem moment_step (s : Threads ι φ δ μ α) (t : ι) :
  (s.step host t).moment t = (s.moment t).step host
  := by
  rw [moment, machine_step]
  apply within_world

/-- A thread that makes all the steps runs as if it were alone. -/
theorem moment_run_replicate (s : Threads ι φ δ μ α) (t : ι) (k : Nat) :
  (s.run host (List.replicate k t)).moment t = runFor host k (s.moment t)
  := by
  induction k generalizing s with
  | zero => rfl
  | succ k ih => rw [List.replicate_succ, runFor_succ, run, ih, moment_step]

/-- After a step the other threads rest as before, and this one does if it has come to rest. -/
theorem rests_step (other : u ≠ t → (s.machine u).Rests n (factory u))
    (self : ((s.moment t).step host).Rests n (factory t)) :
  ((s.step host t).machine u).Rests n (factory u)
  := by
  by_cases hu : u = t
  · subst hu
    rw [machine_step]
    apply self
  · rw [machine_step_of_ne hu]
    apply other hu

/-- A call of which no step was made has not succeeded. -/
theorem not_succeeds_calling {w : World φ δ μ} {ts : List ι} (h : u ∉ ts) (a : Materialized) :
  ¬ ((calling n factory w).run host ts).Succeeds u a
  := by
  rw [Succeeds, machine_run_of_notMem h]
  nofun

/-- A success is for good. -/
theorem Succeeds.step {a : Materialized} (h : s.Succeeds u a) :
  (s.step host t).Succeeds u a
  := by
  by_cases hu : u = t
  · subst hu
    rw [Succeeds, machine_step]
    apply (step_of_outcome host ((outcome?_within _ _).trans h)).1
  · rw [Succeeds, machine_step_of_ne hu]
    apply h

/-- If a step binds the name only for a call that succeeds with it, then the name is still bound to
the instance that the successful calls were given. -/
theorem binds_step_iff (binds : ∀ i, s.Binds n i ↔ ∃ u a, s.Succeeds u a ∧ a.ref = i)
    (h : ∀ i, ((s.moment t).step host).Binds n i ↔
      s.Binds n i ∨ ∃ a, ((s.moment t).step host).outcome? = some (.ok (.ok a)) ∧ a.ref = i)
    (i : Ref) :
  (s.step host t).Binds n i ↔ ∃ u a, (s.step host t).Succeeds u a ∧ a.ref = i
  := by
  rw [binds_step, h, binds]
  constructor
  · rintro (⟨u, a, ha, hi⟩ | ⟨a, ha, hi⟩)
    · exact ⟨u, a, ha.step, hi⟩
    · refine ⟨t, a, ?_, hi⟩
      rw [Succeeds, machine_step]
      apply ha
  · rintro ⟨u, a, ha, hi⟩
    by_cases hu : u = t
    · subst hu
      rw [Succeeds, machine_step] at ha
      right
      exact ⟨a, ha, hi⟩
    · rw [Succeeds, machine_step_of_ne hu] at ha
      left
      exact ⟨u, a, ha, hi⟩

/-- A step that leaves the registry alone, after which the thread has succeeded only with the
instance that is bound, leaves the bindings as they should be. -/
theorem binds_step_same (binds : ∀ i, s.Binds n i ↔ ∃ u a, s.Succeeds u a ∧ a.ref = i)
    (same : ((s.moment t).step host).registry.finished = s.world.registry.finished)
    (bound : ∀ a, ((s.moment t).step host).outcome? = some (.ok (.ok a)) → s.Binds n a.ref)
    (i : Ref) :
  (s.step host t).Binds n i ↔ ∃ u a, (s.step host t).Succeeds u a ∧ a.ref = i
  := by
  apply binds_step_iff binds
  intro i
  have same : ((s.moment t).step host).Binds n i ↔ s.Binds n i := by
    rw [Machine.Binds, same]
    rfl
  rw [same]
  constructor
  · apply Or.inl
  · rintro (h | ⟨a, ha, rfl⟩)
    · apply h
    · apply bound a ha

namespace Contested

/-- A step that leaves the registry alone and ends a call which does not run its factory. -/
theorem step_idle (h : s.Contested host n factory most) (rests : (s.machine t).Rests n (factory t))
    {o : Except Panic (Except Error Materialized)}
    (ho : ((s.moment t).step host).outcome? = some o)
    (same : ((s.moment t).step host).registry = s.world.registry)
    (bound : ∀ a, o = .ok (.ok a) → s.Binds n a.ref) :
  (s.step host t).Contested host n factory most
  := by
  rw [← registry_step] at same
  constructor
  case phase =>
    obtain ⟨all, tracks⟩ | ⟨u, works, others, tracks, unbound⟩ := h.phase
    · left
      use fun u => rests_step (fun _ => all u) (.inr ⟨o, ho⟩)
      rw [same]
      apply tracks
    · have hu : u ≠ t := by
        rintro rfl
        apply works.not_rests rests
      right
      use u
      rw [← machine_step_of_ne hu] at works
      use works
      · intro v hv
        apply rests_step (fun _ => others v hv) (.inr ⟨o, ho⟩)
      · rw [same]
        apply tracks
      · rw [same]
        apply unbound
  case peace =>
    rw [same]
    apply h.peace
  case binds =>
    apply binds_step_same h.binds
    · rw [← registry_step, same]
    · intro a ha
      apply bound
      apply Option.some.inj (ho.symm.trans ha)

/-- After a step that leaves the bindings alone the thread has its factory running. -/
theorem step_working (h : s.Contested host n factory most)
    (others : ∀ u, u ≠ t → (s.machine u).Rests n (factory u))
    (unbound : s.world.registry.finished.get? n = none)
    (works : ((s.moment t).step host).Works host n)
    (tracks : ((s.moment t).step host).registry.Tracks most [n])
    (peace : ((s.moment t).step host).registry.inDestruction = false)
    (same : ((s.moment t).step host).registry.finished = s.world.registry.finished) :
  (s.step host t).Contested host n factory most
  := by
  constructor
  case phase =>
    right
    use t
    constructor
    case works =>
      rw [machine_step]
      apply works
    case others =>
      intro u hu
      rw [machine_step_of_ne hu]
      apply others u hu
    case tracks =>
      rw [registry_step]
      apply tracks
    case unbound =>
      rw [registry_step, same]
      apply unbound
  case peace =>
    rw [registry_step]
    apply peace
  case binds =>
    apply binds_step_same h.binds same
    intro a ha
    rw [works.outcome?_eq] at ha
    cases ha

/-- The step ends the call whose factory was running. -/
theorem step_concluded (h : s.Contested host n factory most)
    (others : ∀ u, u ≠ t → (s.machine u).Rests n (factory u))
    (unbound : s.world.registry.finished.get? n = none)
    {o : Except Panic (Except Error Materialized)}
    (after : ((s.moment t).step host).Concludes most n o) :
  (s.step host t).Contested host n factory most
  := by
  constructor
  case phase =>
    left
    constructor
    case rests =>
      intro u
      apply rests_step (others u) (.inr ⟨o, after.outcome⟩)
    case tracks =>
      rw [registry_step]
      apply after.tracks
  case peace =>
    rw [registry_step]
    apply after.peace
  case binds =>
    apply binds_step_iff h.binds
    intro i
    constructor
    · intro bound
      obtain ⟨a, rfl, hi⟩ := (after.binds i).mp bound
      right
      exact ⟨a, after.outcome, hi⟩
    · rintro (bound | ⟨a, ha, hi⟩)
      · cases unbound.symm.trans bound
      · apply (after.binds i).mpr
        refine ⟨a, ?_, hi⟩
        apply Option.some.inj (after.outcome.symm.trans ha)

/-- The thread has its call met. -/
theorem step_met (calm : host.Calm) (aloof : (host.make (factory t)).Aloof host)
    (room : most ≠ 0) (h : s.Contested host n factory most) (vacant : s.Vacant n factory most)
    (waits : (s.machine t).Waits n (factory t)) :
  (s.step host t).Contested host n factory most
  := by
  cases hb : s.world.registry.finished.get? n with
  | some i =>
    have moment : (s.moment t).Waits n (factory t) := waits.within s.world
    obtain ⟨after, same⟩ := moment.step_bound host (binds_moment.mpr hb)
    apply h.step_idle (.inl waits) after (same.trans (registry_moment s t))
    rintro a ⟨⟩
    apply hb
  | none =>
    obtain ⟨w, after, tracks, peace, same⟩ := h.begins calm room vacant waits hb
    apply h.step_working (fun u _ => vacant.rests u) hb
    all_goals rw [after]
    case works => apply Works.running aloof .creating
    case tracks => apply tracks
    case peace => apply peace
    case same => apply same

/-- Every step of a thread that is let in keeps the contest going. -/
theorem step (calm : host.Calm) (aloof : ∀ t, (host.make (factory t)).Aloof host)
    (room : most ≠ 0) (h : s.Contested host n factory most)
    (free : (s.machine t).Acquires → s.Free t) :
  (s.step host t).Contested host n factory most
  := by
  obtain (waits | ⟨o, ho⟩) | engaged := h.rests_or_engaged t
  case inl.inl =>
    have vacant := h.vacant (free waits.acquires) (.inl waits)
    apply h.step_met calm (aloof t) room vacant waits
  case inl.inr =>
    obtain ⟨after, same⟩ := step_of_outcome host (m := s.moment t) ((outcome?_within _ _).trans ho)
    apply h.step_idle (.inr ⟨o, ho⟩) after (same.trans (registry_moment s t))
    rintro a rfl
    apply (h.binds _).mpr ⟨t, a, ho, rfl⟩
  case inr =>
    obtain ⟨works, same⟩ | ⟨o, after, -⟩ := h.proceeds calm engaged
    · apply h.step_working engaged.others engaged.unbound works
      all_goals rw [same]
      · apply engaged.tracks
      · apply h.peace
    · apply h.step_concluded engaged.others engaged.unbound after

theorem run (calm : host.Calm) (aloof : ∀ t, (host.make (factory t)).Aloof host)
    (room : most ≠ 0) (h : s.Contested host n factory most) {ts : List ι}
    (excludes : Excludes host s ts) :
  (s.run host ts).Contested host n factory most
  := by
  induction ts generalizing s with
  | nil => apply h
  | cons t ts ih => apply ih (h.step calm aloof room excludes.1) excludes.2

end Contested

/-- What a thread that asks for the component may rely on. -/
structure Serves (host : Host φ δ μ) (n : Name) (factory : ι → φ)
    (s : Threads ι φ δ μ (Except Error Materialized)) (t : ι) : Prop where
  /-- As long as no call has succeeded, a call that is let in runs its factory. -/
  runs : (s.machine t).Waits n (factory t) → s.Free t → (∀ u a, ¬ s.Succeeds u a) →
    ∃ w, (s.step host t).machine t
      = @running _ _ _ _ .maker (host.make (factory t)) (.creating n true .done .base) w
  /-- When a factory has made an instance no call has succeeded yet, and this one has created the
  component. -/
  creates : ∀ i, (s.machine t).Makes n i →
    (∀ u a, ¬ s.Succeeds u a) ∧ (s.step host t).Succeeds t (.created i)
  /-- The first call that succeeds does so with the instance that its factory has made. -/
  first : ((s.machine t).Acquires → s.Free t) → (∀ u a, ¬ s.Succeeds u a) →
    ∀ a, (s.step host t).Succeeds t a → ∃ i, a = .created i ∧ (s.machine t).Makes n i
  /-- Once a call has succeeded, this one has ended as well, or it has still to be met and is then
  given the same instance, without its factory being run. -/
  later : ∀ u a, s.Succeeds u a → (∃ o, (s.machine t).outcome? = some o) ∨
    (s.machine t).Waits n (factory t) ∧ (s.step host t).Succeeds t (.alreadyPresent a.ref)
  /-- A call that is let in comes to its end. -/
  ends : (s.machine t).Waits n (factory t) → s.Free t →
    ∃ k o, ((s.run host (List.replicate k t)).machine t).outcome? = some o

namespace Contested

/-- As long as nobody has succeeded, a call that is let in runs its factory. -/
theorem serves_runs (calm : host.Calm) (room : most ≠ 0) (h : s.Contested host n factory most)
    (waits : (s.machine t).Waits n (factory t)) (free : s.Free t)
    (nobody : ∀ u a, ¬ s.Succeeds u a) :
  ∃ w, (s.step host t).machine t
    = @running _ _ _ _ .maker (host.make (factory t)) (.creating n true .done .base) w
  := by
  obtain ⟨w, after, -⟩ :=
    h.begins calm room (h.vacant free (.inl waits)) waits (h.unbound nobody)
  use w
  rw [machine_step]
  apply after

/-- A factory that returns an instance while nobody has succeeded is the first to do so. -/
theorem serves_creates (calm : host.Calm) (h : s.Contested host n factory most)
    (makes : (s.machine t).Makes n i) :
  (∀ u a, ¬ s.Succeeds u a) ∧ (s.step host t).Succeeds t (.created i)
  := by
  obtain rests | ⟨-, -, tracks, unbound⟩ := h.rests_or_engaged t
  · apply absurd rests (makes.works host).not_rests
  · use h.not_succeeds unbound
    have peace := h.peace
    rw [← registry_moment s t] at tracks peace unbound
    have makes : (s.moment t).Makes n i := (makes_within s.world).mpr makes
    rw [Succeeds, machine_step]
    apply (makes.concludes calm tracks peace unbound).outcome

/-- The first one that succeeds has created the instance. -/
theorem serves_first (calm : host.Calm) (aloof : (host.make (factory t)).Aloof host)
    (room : most ≠ 0) (h : s.Contested host n factory most)
    (free : (s.machine t).Acquires → s.Free t) (nobody : ∀ u a, ¬ s.Succeeds u a)
    {a : Materialized} (after : (s.step host t).Succeeds t a) :
  ∃ i, a = .created i ∧ (s.machine t).Makes n i
  := by
  obtain (waits | ⟨o, ho⟩) | engaged := h.rests_or_engaged t
  · obtain ⟨w, begun⟩ := h.serves_runs calm room waits (free waits.acquires) nobody
    have works : ((s.step host t).machine t).Works host n := by
      rw [begun]
      apply Works.running aloof .creating
    rw [Succeeds, works.outcome?_eq] at after
    cases after
  · have kept := (step_of_outcome host (m := s.moment t) ((outcome?_within _ _).trans ho)).1
    rw [Succeeds, machine_step, kept] at after
    apply absurd (ho.trans after) (nobody t a)
  · rw [Succeeds, machine_step] at after
    obtain ⟨works, -⟩ | ⟨o, ended, made⟩ := h.proceeds calm engaged
    · rw [works.outcome?_eq] at after
      cases after
    · apply made
      apply Option.some.inj (ended.outcome.symm.trans after)

/-- After one has succeeded, a call that is let in gets the instance of that one. -/
theorem serves_later (h : s.Contested host n factory most) {a : Materialized}
    (ha : s.Succeeds u a) :
  (∃ o, (s.machine t).outcome? = some o) ∨
    (s.machine t).Waits n (factory t) ∧ (s.step host t).Succeeds t (.alreadyPresent a.ref)
  := by
  have bound : s.Binds n a.ref := (h.binds _).mpr ⟨u, a, ha, rfl⟩
  obtain (waits | ended) | engaged := h.rests_or_engaged t
  · right
    use waits
    have moment : (s.moment t).Waits n (factory t) := waits.within s.world
    rw [Succeeds, machine_step]
    apply (moment.step_bound host (binds_moment.mpr bound)).1
  · left
    apply ended
  · apply absurd ha (h.not_succeeds engaged.unbound u a)

/-- A call that is let in comes to its end if the others do nothing meanwhile. -/
theorem serves_ends (calm : host.Calm) (aloof : (host.make (factory t)).Aloof host)
    (room : most ≠ 0) (h : s.Contested host n factory most)
    (waits : (s.machine t).Waits n (factory t)) (free : s.Free t) :
  ∃ k o, ((s.run host (List.replicate k t)).machine t).outcome? = some o
  := by
  have alone : ∀ k, ((s.run host (List.replicate k t)).machine t).outcome?
      = (runFor host k (s.moment t)).outcome? := by
    intro k
    rw [← moment_run_replicate, moment, outcome?_within]
  simp only [alone]
  cases hb : s.world.registry.finished.get? n with
  | some i =>
    have moment : (s.moment t).Waits n (factory t) := waits.within s.world
    use 1
    rw [runFor_succ]
    exact ⟨_, (moment.step_bound host (binds_moment.mpr hb)).1⟩
  | none =>
    obtain ⟨w, after, -⟩ := h.begins calm room (h.vacant free (.inl waits)) waits hb
    obtain ⟨k, ended⟩ := exists_outcome (n := n) aloof w
    use k + 1
    rw [runFor_succ, after]
    apply ended

theorem serves (calm : host.Calm) (aloof : ∀ t, (host.make (factory t)).Aloof host)
    (room : most ≠ 0) (h : s.Contested host n factory most) (t : ι) :
  s.Serves host n factory t
  := by
  constructor
  case runs => apply h.serves_runs calm room
  case creates =>
    intro i
    apply h.serves_creates calm
  case first =>
    intro free nobody a
    apply h.serves_first calm (aloof t) room free nobody
  case later =>
    intro u a
    apply h.serves_later
  case ends => apply h.serves_ends calm (aloof t) room

end Contested

/-- Whatever threads do that share a registry, and in whichever order they make their steps, a name
that is bound stays bound to its instance until it is removed; a request for a creation is answered
with the instance to which the name is bound then, if it is answered with an instance; and between
two creations of a component the name is removed.  If the threads all ask for one component, which
is not there yet, each with a factory that keeps aloof from the registry, no one who hears a notice
panics, and the lock of the registry lets them in one at a time, then every call that is let in
while no other has succeeded runs its factory, the first one that succeeds has created the
component, and the later ones are given its instance. -/
theorem single_winner (host : Host φ δ μ) :
  (∀ (s : Threads ι φ δ μ α) n i ts, s.Binds n i → ¬ Removed host n s ts →
    (s.run host ts).Binds n i) ∧
  (∀ (s : Threads ι φ δ μ α) n t a, s.Answers n t a → (s.moment t).Gets host n a ∧
    ∀ m, a = .ok m → (s.step host t).Binds n m.ref) ∧
  (∀ (s : Threads ι φ δ μ α) n t i ts u j, s.Answers n t (.ok (.created i)) →
    ((s.step host t).run host ts).Answers n u (.ok (.created j)) →
    Removed host n (s.step host t) ts) ∧
  (host.Calm → ∀ n (factory : ι → φ) (w : World φ δ μ), (∀ t, (host.make (factory t)).Aloof host) →
    w.registry.AtRest → w.registry.guard.limit ≠ 0 → w.registry.inDestruction = false →
    w.registry.finished.get? n = none → ∀ ts, Excludes host (calling n factory w) ts →
    ∀ t, ((calling n factory w).run host ts).Serves host n factory t)
  := by
  refine ⟨?_, ?_, ?_, ?_⟩
  · intro s n i ts bound kept
    apply bound.run kept
  · intro s n t a answers
    use gets_of_answer answers
    rintro m rfl
    apply answers.binds
  · intro s n t i ts u j first second
    apply first.binds.removed second
  · intro calm n factory w aloof rest room peace unbound ts excludes t
    have begins : (calling n factory w).Contested host n factory _ :=
      contested_calling rest peace unbound
    apply (begins.run calm aloof room excludes).serves calm aloof room

end Threads

/-- A host of factories of which the first one fails. -/
def Host.contest : Host Nat Unit Unit where
  make
    | 0 => .done (.error (.factory "a" "not yet"))
    | k + 1 => .done (.ok ⟨k + 1⟩)
  dispose _ := .done (.ok ())
  hear _ m := (none, m)

theorem Host.aloof_contest (k : Nat) :
  (contest.make k).Aloof contest
  := by
  cases k with
  | zero => apply Client.Aloof.done
  | succ k => apply Client.Aloof.done

namespace Threads

/-- All threads ask for one component. -/
def contest : Threads Nat Nat Unit Unit (Except Error Materialized) :=
  calling "a" id ⟨.fresh ⟨true, 1, [], false⟩, ()⟩

theorem excludes_contest :
  Excludes .contest contest [0, 0, 1, 1]
  := by
  refine ⟨?_, ?_, ?_, ?_, trivial⟩
  · intro _ u _
    exact id
  · exact False.elim
  · intro _ u _
    by_cases h0 : u = 0
    · subst h0
      exact id
    · rw [machine_step_of_ne h0, machine_step_of_ne h0]
      exact id
  · exact False.elim

/-- A component is created, removed, and created again. -/
def renewal : Threads Unit Nat Unit Unit (Except Error Materialized) :=
  let w := ⟨.fresh ⟨true, 1, [], false⟩, ()⟩
  ⟨w, fun _ => start (.create "a" 1 fun _ => .edit (.remove "a") fun _ => .create "a" 2 .done) w⟩

/-- The factory of the first thread fails, the second thread wins, and the third one is given its
instance.  Elsewhere a component is created twice, and is removed in between. -/
theorem single_winner_contest :
  (∃ w, ((contest.run .contest [0, 0]).step .contest 1).machine 1
    = @running _ _ _ _ .maker (Host.contest.make 1) (.creating "a" true .done .base) w) ∧
  (contest.run .contest [0, 0, 1, 1]).Succeeds 1 (.created ⟨1⟩) ∧
  (contest.run .contest [0, 0, 1, 1, 2]).Succeeds 2 (.alreadyPresent ⟨1⟩) ∧
  (contest.run .contest [0, 0, 1, 1, 2]).Binds "a" ⟨1⟩ ∧
  Removed .contest "a" (renewal.run .contest [(), ()]) [(), ()]
  := by
  obtain ⟨stays, answers, -, serves⟩ := single_winner (ι := Nat) (α := Except Error Materialized)
    Host.contest
  obtain ⟨-, -, removed, -⟩ := single_winner (ι := Unit) (α := Except Error Materialized)
    Host.contest
  have serves := serves (fun _ _ => rfl) "a" id ⟨.fresh ⟨true, 1, [], false⟩, ()⟩
    Host.aloof_contest (Registry.atRest_fresh _) Nat.one_ne_zero rfl rfl
  obtain ⟨h₁, h₂, h₃, h₄, -⟩ := excludes_contest
  have bound : (contest.run .contest [0, 0, 1, 1]).Binds "a" ⟨1⟩ :=
    (answers (contest.run .contest [0, 0, 1]) "a" 1 (.ok (.created ⟨1⟩)) rfl).2 _ rfl
  refine ⟨?_, ?_, ?_, ?_, ?_⟩
  · have nobody : ∀ u a, ¬ (contest.run .contest [0, 0]).Succeeds u a := by
      intro u a
      by_cases h0 : u = 0
      · subst h0
        nofun
      · exact not_succeeds_calling (by simpa using h0) a
    apply (serves [0, 0] ⟨h₁, h₂, trivial⟩ 1).runs (.ask _) (h₃ trivial) nobody
  · apply ((serves [0, 0, 1] ⟨h₁, h₂, h₃, trivial⟩ 1).creates ⟨1⟩ (.done _)).2
  · obtain ⟨o, ⟨⟩⟩ | ⟨-, later⟩ :=
      (serves [0, 0, 1, 1] ⟨h₁, h₂, h₃, h₄, trivial⟩ 2).later 1 (.created ⟨1⟩) rfl
    apply later
  · apply stays _ _ _ [2] bound
    rintro (⟨⟨⟩⟩ | ⟨⟨⟩⟩)
  · exact removed (renewal.run .contest [()]) "a" () ⟨1⟩ [(), ()] () ⟨2⟩ rfl rfl

end Threads

/-- A host that panics when it hears of a creation for the first time. -/
def Host.alarming : Host Unit Unit Bool where
  make _ := .done (.ok ⟨0⟩)
  dispose _ := .done (.ok ())
  hear
    | .creating _, false => (some .other, true)
    | _, alarmed => (none, alarmed)

namespace Threads

/-- All threads ask for one component. -/
def alarmed : Threads Nat Unit Unit Bool (Except Error Materialized) :=
  calling "a" (fun _ => ()) ⟨.fresh ⟨true, 1, [], false⟩, false⟩

/-- The call of the first thread panics, since the one who hears of the creation does, and its
creation is never left.  The call of the second thread is therefore refused as nested too deeply,
and its factory is not run, although no creation is under way and no call has succeeded; and so is a
call for another component later. -/
theorem not_single_winner :
  (∀ k, (Host.alarming.make k).Aloof .alarming) ∧ alarmed.world.registry.AtRest ∧
    Excludes .alarming alarmed [0, 0] ∧
    ((alarmed.run .alarming [0, 0]).machine 0).outcome? = some (.error .other) ∧
    ¬ (alarmed.run .alarming [0, 0]).Serves .alarming "a" (fun _ => ()) 1 ∧
    ((alarmed.run .alarming [0, 0, 1]).machine 1).outcome?
      = some (.ok (.error (.depthExceeded 1))) ∧
    (((calling "b" (fun _ => ()) (alarmed.run .alarming [0, 0]).world).step .alarming 1).machine
      1).outcome? = some (.ok (.error (.depthExceeded 1)))
  := by
  have free : (alarmed.run .alarming [0, 0]).Free 1 := by
    intro u _
    by_cases h0 : u = 0
    · subst h0
      exact id
    · rw [machine_run_of_notMem (by simpa using h0)]
      exact id
  have nobody : ∀ u a, ¬ (alarmed.run .alarming [0, 0]).Succeeds u a := by
    intro u a
    by_cases h0 : u = 0
    · subst h0
      nofun
    · exact not_succeeds_calling (by simpa using h0) a
  refine ⟨fun _ => .done _, Registry.atRest_fresh _, ⟨fun _ u _ => id, False.elim, trivial⟩, rfl,
    ?_, rfl, rfl⟩
  intro serves
  obtain ⟨w, runs⟩ := serves.runs (.ask _) free nobody
  cases runs

end Threads

end Componentry
