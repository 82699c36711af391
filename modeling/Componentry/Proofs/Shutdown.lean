import Componentry.Proofs.Footprint
import Componentry.Proofs.Moves
import Componentry.Proofs.Nesting
import Mathlib.Tactic.IntervalCases

/-!
# The mark of a shutdown

While everything is being destroyed the registry carries a mark, and refuses creations on its
account.  Which shutdowns are running can be told from the machine: those whose last task is still
to be worked off.  The mark and the machine part in two ways only.  A shutdown that was asked for
during another one lowers the mark when it ends, and the notice of a disposal may come back with a
panic that breaks a shutdown off, whose mark stays.  As long as neither happens, the mark is exact.
-/

namespace Componentry

open Machine

variable {φ δ μ α : Type} {host : Host φ δ μ}

/-! ### Shutdowns that are running -/

/-- A shutdown waits for one of the programs on the stack. -/
def Stack.ShutsDown : {ρ : Role} → Stack φ δ μ α ρ → Prop
  | _, base => False
  | _, creating _ _ _ below => below.ShutsDown
  | _, producing _ _ _ below => below.ShutsDown
  | _, disposing _ tasks _ below => .clear ∈ tasks ∨ below.ShutsDown
  | _, protecting _ below => below.ShutsDown

namespace Machine

/-- A shutdown is running: it has begun, and the registry is still to be cleared at its end. -/
def ShutsDown : Machine φ δ μ α → Prop
  | running _ stack _ => stack.ShutsDown
  | tearing tasks _ stack _ => .clear ∈ tasks ∨ stack.ShutsDown
  | unwinding _ stack _ => stack.ShutsDown
  | halted _ _ => False

/-- With the next step a shutdown ends while another one is running. -/
def Overlaps : Machine φ δ μ α → Prop
  | tearing (.clear :: tasks) _ stack _ => .clear ∈ tasks ∨ stack.ShutsDown
  | _ => False

/-- With the next step a panic breaks off the only shutdown that is running: it comes from the one
who hears of a disposal. -/
def BreaksOff (host : Host φ δ μ) : Machine φ δ μ α → Prop
  | @running _ _ _ _ _ (.done outcome) (.disposing n tasks _ below) w =>
    .clear ∈ tasks ∧ ¬ below.ShutsDown ∧ (host.hear (noticeOf n (.ok outcome)) w.memory).1 ≠ none
  | unwinding p (.disposing n tasks _ below) w =>
    .clear ∈ tasks ∧ ¬ below.ShutsDown ∧ (host.hear (noticeOf n (.error p)) w.memory).1 ≠ none
  | _ => False

/-- With the next step the mark gets lost or is left behind. -/
def Slips (host : Host φ δ μ) (m : Machine φ δ μ α) : Prop := m.Overlaps ∨ m.BreaksOff host

/-- The registry carries the mark exactly if a shutdown is running. -/
def Exact (m : Machine φ δ μ α) : Prop := m.registry.inDestruction = true ↔ m.ShutsDown

end Machine

/-! ### Steps that do not concern the mark -/

/-- No edit sets the mark or takes it away. -/
theorem Registry.inDestruction_edit (r : Registry φ δ) (e : Edit φ δ) :
  (r.edit e).1.inDestruction = r.inDestruction
  := by
  cases e with
  | bind n i =>
    obtain ⟨-, hb⟩ | hb := r.edit_bind n i
    · rw [hb]
      rfl
    · rw [hb]
  | publish n producer =>
    simp only [edit, publish]
    split <;> rfl
  | suppress | remove | setExempt | depend | contain | onDestroy => rfl

namespace Machine

/-- The registry carries the mark as `mark` says, and a shutdown is running if `shuts` holds. -/
def Marked (m : Machine φ δ μ α) (mark : Bool) (shuts : Prop) : Prop :=
  m.registry.inDestruction = mark ∧ (m.ShutsDown ↔ shuts)

variable {m m' : Machine φ δ μ α} {ρ : Role} {stack : Stack φ δ μ α ρ} {w : World φ δ μ}
  {n : Name}

/-- The mark stays exact if neither the mark nor what is running changes. -/
theorem Exact.marked (h : m.Exact) (h' : m'.Marked m.registry.inDestruction m.ShutsDown) :
  m'.Exact
  := by
  rw [Exact, h'.1, h'.2]
  apply h

/-- It does not matter for the mark whether a panic comes back. -/
theorem marked_announcing {mark : Bool} {notice : Notice} {next : World φ δ μ → Machine φ δ μ α}
    (hw : w.registry.inDestruction = mark)
    (goes : ∀ m, (next { w with memory := m }).Marked mark stack.ShutsDown) :
  (announcing host notice stack w next).Marked mark stack.ShutsDown
  := by
  apply announcing_of (P := fun m => m.Marked mark stack.ShutsDown)
  · intro _
    apply goes
  · intro p _
    exact ⟨hw, Iff.rfl⟩

/-- A request to create a component does not concern the mark, however it is answered. -/
theorem marked_startCreation (host : Host φ δ μ) (n : Name) (factory : φ)
    (resume : Except Error Materialized → Client φ δ μ (ρ.Result α)) (stack : Stack φ δ μ α ρ)
    (w : World φ δ μ) :
  (startCreation host n factory resume stack w).Marked w.registry.inDestruction stack.ShutsDown
  := by
  unfold startCreation
  split
  · exact ⟨rfl, Iff.rfl⟩
  · exact ⟨rfl, Iff.rfl⟩
  · rename_i ha
    obtain ⟨-, -, guard, suppressed, -, -, -, rfl⟩ := Registry.of_admitted ha
    apply marked_announcing rfl
    intro m
    exact ⟨rfl, Iff.rfl⟩

/-- The end of a creation does not concern the mark. -/
theorem marked_finishCreation (host : Host φ δ μ) (n : Name) (collects : Bool)
    (outcome : Except Error Ref)
    (resume : Except Error Materialized → Client φ δ μ (ρ.Result α)) (stack : Stack φ δ μ α ρ)
    (w : World φ δ μ) :
  (finishCreation host n collects outcome resume stack w).Marked w.registry.inDestruction
    stack.ShutsDown
  := by
  simp only [finishCreation]
  split
  · exact ⟨rfl, Iff.rfl⟩
  · split
    · exact ⟨rfl, Iff.rfl⟩
    · apply marked_announcing rfl
      intro m
      exact ⟨rfl, Iff.rfl⟩
    · apply marked_announcing rfl
      intro m
      exact ⟨rfl, Iff.rfl⟩

theorem marked_startLookup (host : Host φ δ μ) (n : Name) (early : Bool)
    (resume : Except Error (Option Ref) → Client φ δ μ (ρ.Result α)) (stack : Stack φ δ μ α ρ)
    (w : World φ δ μ) :
  (startLookup host n early resume stack w).Marked w.registry.inDestruction stack.ShutsDown
  := by
  unfold startLookup
  split
  · exact ⟨rfl, Iff.rfl⟩
  · rename_i hs
    obtain ⟨-, -, rfl⟩ := Registry.of_sight_pending hs
    exact ⟨rfl, Iff.rfl⟩

/-- The end of a lookup does not concern the mark, also where the producer is put back. -/
theorem marked_finishLookup (n : Name) (producer : φ) (outcome : Except Error Ref)
    (resume : Except Error (Option Ref) → Client φ δ μ (ρ.Result α)) (stack : Stack φ δ μ α ρ)
    (w : World φ δ μ) :
  (finishLookup n producer outcome resume stack w).Marked w.registry.inDestruction
    stack.ShutsDown
  := by
  cases outcome with
  | ok i => exact ⟨rfl, Iff.rfl⟩
  | error e =>
    obtain ⟨producers, hr⟩ := w.registry.restore_eq n producer
    simp only [finishLookup, World.onRegistry, hr]
    exact ⟨rfl, Iff.rfl⟩

/-! ### The step and the run -/

/-- After a disposal the destruction goes on, or it is broken off. -/
theorem exact_finishDisposal (host : Host φ δ μ) (notice : Notice) (tasks : List (Task δ))
    (resume : Unit → Client φ δ μ (ρ.Result α)) (stack : Stack φ δ μ α ρ) (w : World φ δ μ)
    (h : w.registry.inDestruction = true ↔ .clear ∈ tasks ∨ stack.ShutsDown) :
  (finishDisposal host notice tasks resume stack w).Exact ↔
    ¬ (.clear ∈ tasks ∧ ¬ stack.ShutsDown ∧ (host.hear notice w.memory).1 ≠ none)
  := by
  apply announcing_of (P := fun m => m.Exact ↔
    ¬ (.clear ∈ tasks ∧ ¬ stack.ShutsDown ∧ (host.hear notice w.memory).1 ≠ none))
  · intro calm
    apply iff_of_true h
    rintro ⟨-, -, panics⟩
    apply panics calm
  · intro p panics
    rw [panics]
    change (w.registry.inDestruction = true ↔ stack.ShutsDown) ↔ _
    rw [h]
    tauto

/-- A moment of which the next step is no slip. -/
theorem iff_of_stays {P : Prop} (h : P) :
  P ↔ ¬ (False ∨ False)
  := iff_of_true h (or_self False).mp

/-- When a program comes to its end, the mark stays exact unless the one who hears of a disposal
breaks a shutdown off. -/
theorem Exact.finish_iff {a : ρ.Result α} (h : (running (.done a) stack w).Exact) :
  (finish host a stack w).Exact ↔ ¬ (running (.done a) stack w).Slips host
  := by
  cases stack with
  | base => exact iff_of_stays h
  | creating n collects resume below =>
    exact iff_of_stays (h.marked (marked_finishCreation host n collects a resume below w))
  | producing n producer resume below =>
    exact iff_of_stays (h.marked (marked_finishLookup n producer a resume below w))
  | disposing n tasks resume below =>
    rcases a with text | u
    · exact (exact_finishDisposal host (.disposalFailed n (.failed text)) tasks resume below w
        h).trans (not_congr (or_iff_right id).symm)
    · exact (exact_finishDisposal host (.destroyed n) tasks resume below w h).trans
        (not_congr (or_iff_right id).symm)
  | protecting resume below => exact iff_of_stays h

/-- The same for a panic that passes through one of the programs on the stack. -/
theorem Exact.unwind_iff {p : Panic} (h : (unwinding p stack w).Exact) :
  (unwind host p stack w).Exact ↔ ¬ (unwinding p stack w).Slips host
  := by
  cases stack with
  | base => exact iff_of_stays h
  | creating n collects resume below => exact iff_of_stays (h.marked ⟨rfl, Iff.rfl⟩)
  | producing n producer resume below => exact iff_of_stays h
  | disposing n tasks resume below =>
    exact (exact_finishDisposal host (.disposalFailed n (.panicked p.reason)) tasks resume below w
      h).trans (not_congr (or_iff_right id).symm)
  | protecting resume below => exact iff_of_stays h

theorem clear_mem_destroys {names : List Name} {tasks : List (Task δ)} :
  .clear ∈ names.map .destroy ++ tasks ↔ .clear ∈ tasks
  := by
  simp

/-- The destruction of one component does not shut the registry down. -/
theorem clear_mem_destructionTasks {dependents : List Name} {disposal? : Option δ}
    {tasks : List (Task δ)} :
  .clear ∈ destructionTasks n dependents disposal? ++ tasks ↔ .clear ∈ tasks
  := by
  simp [destructionTasks]

/-- A task of a destruction keeps the mark exact unless it ends a shutdown within another one. -/
theorem Exact.tear_iff {task : Task δ} {tasks : List (Task δ)}
    {resume : Unit → Client φ δ μ (ρ.Result α)}
    (h : (tearing (task :: tasks) resume stack w).Exact) :
  (tear host task tasks resume stack w).Exact
    ↔ ¬ (tearing (task :: tasks) resume stack w).Slips host
  := by
  have other : task ≠ .clear →
      (w.registry.inDestruction = true ↔ .clear ∈ tasks ∨ stack.ShutsDown) := by
    intro hne
    apply h.trans
    apply or_congr_left
    apply List.mem_cons.trans (or_iff_right hne.symm)
  cases task with
  | destroy n =>
    apply iff_of_stays
    apply (other (by rintro ⟨⟩)).trans
    apply or_congr_left clear_mem_destructionTasks.symm
  | dispose n disposal => exact iff_of_stays (other (by rintro ⟨⟩))
  | contents n =>
    apply iff_of_stays
    apply (other (by rintro ⟨⟩)).trans
    apply or_congr_left clear_mem_destroys.symm
  | forget n => exact iff_of_stays (other (by rintro ⟨⟩))
  | clear =>
    change (false = true ↔ .clear ∈ tasks ∨ stack.ShutsDown) ↔
      ¬ ((.clear ∈ tasks ∨ stack.ShutsDown) ∨ False)
    simp

/-- A step keeps the mark exact unless it slips. -/
theorem Exact.step_iff (h : m.Exact) :
  (m.step host).Exact ↔ ¬ m.Slips host
  := by
  cases m with
  | halted outcome w => exact iff_of_stays h
  | unwinding p stack w => apply h.unwind_iff
  | tearing tasks resume stack w =>
    cases tasks with
    | nil =>
      apply iff_of_stays
      apply h.trans
      apply or_iff_right
      apply List.not_mem_nil
    | cons task tasks => apply h.tear_iff
  | @running ρ c stack w =>
    cases c with
    | done a => apply h.finish_iff
    | panic p => exact iff_of_stays h
    | view next => exact iff_of_stays h
    | revise f next => exact iff_of_stays h
    | edit e next =>
      exact iff_of_stays (h.marked ⟨w.registry.inDestruction_edit e, Iff.rfl⟩)
    | lookup n early next =>
      exact iff_of_stays (h.marked (marked_startLookup host n early next stack w))
    | create n factory next =>
      exact iff_of_stays (h.marked (marked_startCreation host n factory next stack w))
    | destroy n next =>
      apply iff_of_stays
      apply h.trans
      apply (or_iff_right _).symm
      simp
    | destroyAll next =>
      apply iff_of_stays
      apply iff_of_true rfl
      left
      apply List.mem_append_right
      apply List.mem_singleton_self
    | protect body next => exact iff_of_stays h

/-- The mark is exact throughout a part of a run if nothing slips in it. -/
theorem Exact.runFor_iff (h : m.Exact) (k : Nat) :
  (∀ j ≤ k, (runFor host j m).Exact) ↔ ∀ j < k, ¬ (runFor host j m).Slips host
  := by
  have next : ∀ j, runFor host (j + 1) m = (runFor host j m).step host := by
    intro j
    rw [runFor_add, runFor_succ]
    rfl
  constructor
  · intro exact' j hj
    apply (exact' j (Nat.le_of_lt hj)).step_iff.mp
    rw [← next]
    apply exact' (j + 1) hj
  · intro sure j hj
    induction j with
    | zero => apply h
    | succ j ih =>
      rw [next]
      apply (ih (Nat.le_of_succ_le hj)).step_iff.mpr
      apply sure j hj

/-! ### Creations during a shutdown -/

/-- Shutdowns are told from the mark, and keep creations out: as long as one is running, a request
to create a component that is not finished is turned down at once, and when none is running, no
request is turned down for that reason. -/
structure Guarded (host : Host φ δ μ) (m : Machine φ δ μ α) : Prop where
  /-- The registry carries the mark exactly if a shutdown is running. -/
  mark : m.Exact
  /-- During a shutdown no factory is run. -/
  refuses : ∀ ⦃ρ : Role⦄ n factory (next : Except Error Materialized → Client φ δ μ (ρ.Result α))
    stack w, m = running (.create n factory next) stack w → w.registry.finished.get? n = none →
    m.ShutsDown → m.step host = running (next (.error (.creationNotAllowed n))) stack w
  /-- Without a shutdown creations are allowed. -/
  allows : ¬ m.ShutsDown → ∀ n n', m.registry.beginCreation n ≠ .refused (.creationNotAllowed n')

/-- Where the mark is exact, it keeps creations out as long as it should. -/
theorem Exact.guarded (h : m.Exact) :
  m.Guarded host
  where
  mark := h
  refuses := by
    rintro ρ n factory next stack w rfl hn hs
    have hd : w.registry.inDestruction = true := h.mpr hs
    simp only [step, startCreation, Registry.beginCreation, hn, hd, if_true]
  allows := by
    intro hs n n' hb
    have hd : ¬ m.registry.inDestruction = true := fun hd => hs (h.mp hd)
    simp only [Registry.beginCreation, Registry.of_refused hb, if_neg hd] at hb
    split at hb
    · rename_i e he
      cases hb
      -- the guard has reasons of its own
      unfold Guard.enter at he
      repeat' split at he
      all_goals cases he
    · split at hb <;> cases hb

end Machine

/-- Shutdowns are told from the mark throughout a run exactly as long as nothing slips: no shutdown
ends while another one is running, and no panic of one who hears of a disposal breaks off the only
one that is running. -/
theorem shutdown_guarded_iff (host : Host φ δ μ) (c : Client φ δ μ α) (w : World φ δ μ)
    (unmarked : w.registry.inDestruction = false) (k : Nat) :
  (∀ j ≤ k, (runFor host j (start c w)).Guarded host) ↔
    ∀ j < k, ¬ (runFor host j (start c w)).Slips host
  := by
  have begins : (start c w).Exact := by
    apply iff_of_false _ id
    change ¬ w.registry.inDestruction = true
    rw [unmarked]
    apply Bool.false_ne_true
  rw [← begins.runFor_iff]
  constructor
  · intro h j hj
    apply (h j hj).mark
  · intro h j hj
    apply (h j hj).guarded

/-- A host whose disposals ask for a late component, some of them after a shutdown of their own.
The one who hears notices panics when a frail component was disposed of. -/
def Host.meddling : Host Unit Bool Unit where
  make _ := .done (.ok default)
  dispose
    | true => .destroyAll fun _ => .create "late" () fun _ => .done (.ok ())
    | false => .create "late" () fun _ => .done (.ok ())
  hear t m := (if t.event = "destroyed" ∧ t.name = "frail" then some .other else none, m)

/-- A moment of the shutdown of a registry with one disposal. -/
def Machine.meddling (n : Name) (d : Bool) (k : Nat) : Machine Unit Bool Unit Unit :=
  runFor .meddling k (start (.destroyAll .done)
    ⟨{ (Registry.fresh ⟨true, 4, [], false⟩ : Registry Unit Bool) with
      disposals := .ofList [(n, d)] }, ()⟩)

/-- The disposal of a component asks for another one, and is turned down. -/
theorem shutdown_guarded_iff_sturdy :
  (∀ j ≤ 10, (Machine.meddling "sturdy" false j).Guarded .meddling) ∧
    (Machine.meddling "sturdy" false 3).ShutsDown ∧
    (Machine.meddling "sturdy" false 4).creations = [] ∧
    ¬ (Machine.meddling "sturdy" false 10).ShutsDown
  := by
  have sure : ∀ j < 10, ¬ (Machine.meddling "sturdy" false j).Slips .meddling := by
    intro j hj h
    interval_cases j
    case «4» => rcases h with h | ⟨-, -, panics⟩ <;> trivial
    case «7» => rcases h with (⟨⟨⟩⟩ | h) | h <;> trivial
    all_goals rcases h with h | h <;> trivial
  have guarded := (shutdown_guarded_iff .meddling _ _ rfl 10).mpr sure
  have shuts : (Machine.meddling "sturdy" false 3).ShutsDown := .inl (by simp)
  use guarded, shuts
  constructor
  · have refused := (guarded 3 (by decide)).refuses "late" () _ _ _ rfl rfl shuts
    change ((Machine.meddling "sturdy" false 3).step .meddling).creations = []
    exact (congrArg creations refused).trans rfl
  · exact id

/-- The mark gets lost when a disposal asks for a shutdown of its own: a late component is created
although the first shutdown is still running.  It is left behind when the notice of a disposal comes
back with a panic: creations are refused although no shutdown is running. -/
theorem not_shutdown_guarded :
  ((Machine.meddling "hasty" true 6).ShutsDown ∧
    (Machine.meddling "hasty" true 6).registry.inDestruction = false ∧
    (Machine.meddling "hasty" true 7).creations = ["late"]) ∧
  ¬ (Machine.meddling "frail" false 6).ShutsDown ∧
    (Machine.meddling "frail" false 6).registry.beginCreation "late"
      = .refused (.creationNotAllowed "late")
  := by
  have waits : (Machine.meddling "hasty" true 6).ShutsDown := .inl (by simp)
  have ended : ¬ (Machine.meddling "frail" false 6).ShutsDown := id
  exact ⟨⟨waits, rfl, rfl⟩, ended, rfl⟩

end Componentry
