import Componentry.Proofs.Alteration
import Componentry.Proofs.Steps
import Componentry.Proofs.Threads

/-!
# The tasks of a run

Destructions that are running have tasks left: those of the innermost one are worked off, and those
of the others wait on the stack, in the frames of disposals.  Taken together they are a stack of
their own.  A step works off the task on top, if it works off any, and puts in its place the tasks
that it issues; `tasks_step` says so.  Whatever disposals do, a task is therefore worked off before
anything below it is (`Stacked.exists_taken`), and a destruction has returned when only what was due
under it is left (`Returned`).
-/

namespace Componentry

open Machine

variable {φ δ μ α : Type} {host : Host φ δ μ}

/-! ### Stacks -/

section Stacks

variable {β : Type} {l : Nat → List β} {top : Nat → Option β}

/-- A list is used as a stack: what is taken from it is taken from the top, one at a time, and what
is put there is put on top. -/
def Stacked (l : Nat → List β) (top : Nat → Option β) : Prop :=
  ∀ k, ∃ pushed waiting, l k = (top k).toList ++ waiting ∧ l (k + 1) = pushed ++ waiting

variable {x : β} {rest : List β}

/-- What is on a stack stays there until it is on top and taken. -/
theorem Stacked.suffix_step (h : Stacked l top) {k : Nat} (on : x :: rest <:+ l k) :
  x :: rest <:+ l (k + 1) ∨ top k = some x ∧ l k = x :: rest
  := by
  obtain ⟨pushed, waiting, before, after⟩ := h k
  rw [after]
  cases taken : top k with
  | none =>
    left
    rw [before, taken] at on
    apply on.trans (List.suffix_append pushed waiting)
  | some y =>
    rw [before, taken] at on ⊢
    obtain same | under := List.suffix_cons_iff.mp on
    · obtain ⟨rfl, rfl⟩ := List.cons.inj same
      exact .inr ⟨rfl, rfl⟩
    · left
      apply under.trans (List.suffix_append pushed waiting)

/-- When a stack is no higher than it was under one of its entries, then this one was taken, and
what lay under it was the same. -/
theorem Stacked.exists_taken (h : Stacked l top) {i j : Nat} (on : x :: rest <:+ l i)
    (later : i ≤ j) (low : (l j).length ≤ rest.length) :
  ∃ k, i ≤ k ∧ k < j ∧ top k = some x ∧ l k = x :: rest
  := by
  have either : x :: rest <:+ l j ∨ ∃ k, i ≤ k ∧ k < j ∧ top k = some x ∧ l k = x :: rest := by
    clear low
    induction later with
    | refl => exact .inl on
    | @step j later ih =>
      obtain stays | ⟨k, hk, before, taken⟩ := ih
      · obtain stays | taken := h.suffix_step stays
        · exact .inl stays
        · exact .inr ⟨j, later, Nat.lt_succ_self j, taken⟩
      · exact .inr ⟨k, hk, Nat.lt_succ_of_lt before, taken⟩
  apply either.resolve_left
  intro stays
  apply Nat.not_succ_le_self rest.length (Nat.le_trans stays.length_le low)

end Stacks

/-! ### Tasks -/

/-- The tasks that wait for the disposals on a stack, those of the innermost destruction in
front. -/
def Stack.tasks : {ρ : Role} → Stack φ δ μ α ρ → List (Task δ)
  | _, base => []
  | _, creating _ _ _ below => below.tasks
  | _, producing _ _ _ below => below.tasks
  | _, disposing _ tasks _ below => tasks ++ below.tasks
  | _, protecting _ below => below.tasks

namespace Machine

/-- The tasks that are still to be worked off, those of the innermost destruction in front. -/
def tasks : Machine φ δ μ α → List (Task δ)
  | running _ stack _ => stack.tasks
  | tearing tasks _ stack _ => tasks ++ stack.tasks
  | unwinding _ stack _ => stack.tasks
  | halted _ _ => []

/-- The tasks that the next step issues. -/
def issued : Machine φ δ μ α → List (Task δ)
  | running (.destroy n _) _ _ => [.destroy n]
  | running (.destroyAll _) _ w => w.registry.disposals.names.reverse.map .destroy ++ [.clear]
  | tearing (.destroy n :: _) _ _ w =>
    destructionTasks n (w.registry.graph.dependentsOf n) (w.registry.disposals.get? n)
  | tearing (.contents n :: _) _ _ w => (w.registry.graph.containedOf n).map .destroy
  | _ => []

variable {m : Machine φ δ μ α} {ρ : Role} {stack : Stack φ δ μ α ρ} {w : World φ δ μ}

/-- To meet a request for a creation leaves the tasks alone. -/
theorem tasks_startCreation (calm : host.Calm) (n : Name) (factory : φ)
    (next : Except Error Materialized → Client φ δ μ (ρ.Result α)) :
  (startCreation host n factory next stack w).tasks = stack.tasks
  := by
  unfold startCreation
  split
  · rfl
  · rfl
  · rw [announcing_calm calm]
    rfl

/-- The end of a creation leaves the tasks alone. -/
theorem tasks_finishCreation (calm : host.Calm) (n : Name) (collects : Bool)
    (outcome : Except Error Ref)
    (resume : Except Error Materialized → Client φ δ μ (ρ.Result α)) :
  (finishCreation host n collects outcome resume stack w).tasks = stack.tasks
  := by
  obtain ⟨w', -, h | ⟨loud, -⟩⟩ := finishCreation_cases host n collects outcome resume stack w
  · rw [h]
    rfl
  · exact absurd calm loud

/-- A program that returns leaves the tasks alone that wait below it. -/
theorem tasks_finish (calm : host.Calm) (a : ρ.Result α) (stack : Stack φ δ μ α ρ)
    (w : World φ δ μ) :
  (finish host a stack w).tasks = stack.tasks
  := by
  cases stack with
  | base | protecting => rfl
  | creating n collects resume below => apply tasks_finishCreation calm
  | producing n producer resume below => rcases a with e | i <;> rfl
  | disposing n tasks resume below =>
    rcases a with text | u <;>
    · rw [finish, finishDisposal, announcing_calm calm]
      rfl

/-- A panic that unwinds a frame leaves the tasks alone that wait below it. -/
theorem tasks_unwind (calm : host.Calm) (p : Panic) (stack : Stack φ δ μ α ρ)
    (w : World φ δ μ) :
  (unwind host p stack w).tasks = stack.tasks
  := by
  cases stack with
  | base | creating | producing | protecting => rfl
  | disposing n tasks resume below =>
    rw [unwind, finishDisposal, announcing_calm calm]
    rfl

/-- A step takes the task that it works off from the top, and puts those there that it issues: a
panic of a disposal goes no further than the destruction for which the disposal runs. -/
theorem tasks_step (calm : host.Calm) (m : Machine φ δ μ α) :
  ∃ waiting, m.tasks = m.task?.toList ++ waiting ∧ (m.step host).tasks = m.issued ++ waiting
  := by
  cases m with
  | halted outcome w => exact ⟨[], rfl, rfl⟩
  | unwinding p stack w => exact ⟨stack.tasks, rfl, tasks_unwind calm p stack w⟩
  | tearing tasks resume stack w =>
    cases tasks with
    | nil => exact ⟨stack.tasks, rfl, rfl⟩
    | cons task tasks =>
      use tasks ++ stack.tasks, rfl
      cases task with
      | destroy | contents => apply List.append_assoc
      | dispose | forget | clear => rfl
  | @running ρ c stack w =>
    use stack.tasks, rfl
    cases c with
    | done a => apply tasks_finish calm
    | lookup n early next =>
      simp only [step, startLookup]
      split <;> rfl
    | create n factory next => apply tasks_startCreation calm
    | destroy | destroyAll | panic | view | revise | edit | protect => rfl

/-- A task stays due until it is worked off. -/
theorem mem_tasks_step (calm : host.Calm) {t : Task δ} (h : t ∈ m.tasks) :
  t ∈ (m.step host).tasks ∨ m.task? = some t
  := by
  obtain ⟨waiting, before, after⟩ := tasks_step calm m
  rw [before, List.mem_append, Option.mem_toList] at h
  obtain now | later := h
  · exact .inr now
  · left
    rw [after]
    apply List.mem_append_right _ later

/-- The tasks that are due are a stack. -/
theorem stacked_tasks (calm : host.Calm) (m : Machine φ δ μ α) :
  Stacked (fun k => (runFor host k m).tasks) (fun k => (runFor host k m).task?)
  := by
  intro k
  obtain ⟨waiting, before, after⟩ := tasks_step calm (runFor host k m)
  rw [← runFor_step] at after
  exact ⟨_, waiting, before, after⟩

/-! ### Destructions that have returned -/

/-- The destruction of `n` that begins with step `i` has returned by the moment `j`: what was due
under it is due again, and nothing else. -/
structure Returned (host : Host φ δ μ) (m : Machine φ δ μ α) (n : Name) (i j : Nat) : Prop where
  began : (runFor host i m).task? = some (.destroy n)
  later : i < j
  under : (runFor host i m).tasks = .destroy n :: (runFor host j m).tasks

/-- The destruction returns at the moment `j`: as long as it was running, more was due. -/
structure Destroyed (host : Host φ δ μ) (m : Machine φ δ μ α) (n : Name) (i j : Nat) : Prop
    extends Returned host m n i j where
  running : ∀ v < j, i < v → (runFor host j m).tasks.length < (runFor host v m).tasks.length

end Machine

end Componentry
