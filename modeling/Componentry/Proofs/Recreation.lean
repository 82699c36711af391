import Componentry.Proofs.Agenda
import Mathlib.Tactic.IntervalCases

/-!
# Components created again while they are destroyed

The disposal of a component may have it created again, while its destruction is still running.  The
links that are recorded on this occasion are treated like all others, and the destruction strikes
every link with an end at its component when it ends.  The main result, `links_outlast_iff`, says
which links are left when it returns: none of the component itself, though it may be finished by
then, and of the others those with no end at which another destruction ended.
-/

namespace Componentry

open Machine

variable {φ δ μ α : Type} {host : Host φ δ μ} {m : Machine φ δ μ α} {n : Name} {i j u v : Nat}

/-- A link of the graph. -/
inductive Link where
  /-- A dependency. -/
  | dependency (dependee dependent : Name)
  /-- A containment. -/
  | containment (inner outer : Name)

/-- A component is an end of a link. -/
def Link.Touches : Link → Name → Prop
  | dependency dependee dependent, n => dependee = n ∨ dependent = n
  | containment inner outer, n => inner = n ∨ outer = n

/-- A link is in the graph, where destructions look for it. -/
def Graph.Holds (g : Graph) : Link → Prop
  | .dependency dependee dependent => g.dependents.has dependee dependent = true
  | .containment inner outer => g.contained.has outer inner = true

variable {g : Graph} {l : Link}

/-! ### Changes of the graph -/

namespace Graph

/-- To record a dependency strikes no link. -/
theorem Holds.depend (h : g.Holds l) (d n : Name) :
  (g.depend d n).Holds l
  := by
  cases l with
  | dependency a b => exact has_dependents_depend.mpr (.inl h)
  | containment a b =>
    rw [Holds, contained_depend]
    exact h

/-- To record a containment strikes no link. -/
theorem Holds.contain (h : g.Holds l) (inner outer : Name) :
  (g.contain inner outer).Holds l
  := by
  rw [Graph.contain]
  split
  · exact h
  · apply depend
    cases l with
    | dependency => exact h
    | containment => exact (Links.has_add _ _ _ _ _).mpr (.inl h)

/-- When a component was forgotten, those links are left that do not touch it. -/
theorem holds_forget (g : Graph) (l : Link) (n : Name) :
  (g.forget n).Holds l ↔ ¬ l.Touches n ∧ g.Holds l
  := by
  cases l with
  | dependency a b =>
    rw [Holds, forget, Links.has_forget, Link.Touches, not_or, and_assoc]
    rfl
  | containment a b =>
    rw [Holds, forget, Links.has_forget, Link.Touches, not_or, and_assoc, and_left_comm]
    rfl

end Graph

/-- A request that is answered at once strikes no link. -/
theorem Registry.holds_edit {r : Registry φ δ} (h : r.graph.Holds l) (e : Edit φ δ) :
  (r.edit e).1.graph.Holds l
  := by
  cases e with
  | bind n i =>
    obtain ⟨-, hb⟩ | hb := r.edit_bind n i
    · rw [hb]
      exact h
    · rw [hb]
      exact h
  | publish n producer =>
    simp only [edit, publish]
    split <;> exact h
  | depend dependee dependent => apply h.depend
  | contain inner outer => apply h.contain
  | suppress | remove | setExempt | onDestroy => exact h

/-! ### What a step strikes -/

/-- The destruction of an end of a link ends with a task, or the destruction of everything does. -/
def Task.Ends : Task δ → Link → Prop
  | forget n, l => l.Touches n
  | clear, _ => True
  | _, _ => False

/-- A task strikes a link, so that it can be followed, or because a destruction ends. -/
def Task.Strikes : Task δ → Link → Prop
  | destroy n, .dependency dependee _ => dependee = n
  | contents n, .containment _ outer => outer = n
  | t, l => t.Ends l

/-- A destruction that ends strikes the links of its component. -/
theorem Task.Ends.strikes {t : Task δ} (h : t.Ends l) :
  t.Strikes l
  := by
  cases t with
  | forget | clear => cases l <;> exact h
  | destroy | dispose | contents => exact h.elim

namespace Machine

/-- The destruction of an end of a link ends with the next step, or the destruction of everything
does. -/
def Forgets (m : Machine φ δ μ α) (l : Link) : Prop := ∃ t, m.task? = some t ∧ t.Ends l

/-- The next step strikes a link. -/
def Strikes (m : Machine φ δ μ α) (l : Link) : Prop := ∃ t, m.task? = some t ∧ t.Strikes l

/-- Where no task is worked off, no link is struck. -/
theorem not_strikes (h : m.task? = none) (l : Link) :
  ¬ m.Strikes l
  := by
  rintro ⟨t, due, -⟩
  cases h.symm.trans due

/-- A step strikes the links that its task strikes. -/
theorem strikes_tearing {t : Task δ} {tasks : List (Task δ)} {ρ : Role}
    {resume : Unit → Client φ δ μ (ρ.Result α)} {stack : Stack φ δ μ α ρ} {w : World φ δ μ} :
  Strikes (tearing (t :: tasks) resume stack w) l ↔ t.Strikes l
  := by
  simp [Strikes, task?]

/-- A link that is in the graph stays there, unless the step strikes it. -/
theorem holds_step_iff (host : Host φ δ μ) (h : m.registry.graph.Holds l) :
  (m.step host).registry.graph.Holds l ↔ ¬ m.Strikes l
  := by
  have alters := alters_step host m
  generalize (m.step host).registry = r at alters ⊢
  cases alters with
  | keeps _ ending task =>
    apply iff_of_true h
    rintro ⟨t, due, strikes⟩
    obtain ⟨n, d, rfl⟩ := task t due
    exact strikes
  | edits e next stack w => exact iff_of_true (Registry.holds_edit h e) (not_strikes rfl l)
  | takes next stack w pending =>
    obtain ⟨-, -, rfl⟩ := Registry.of_sight_pending pending
    exact iff_of_true h (not_strikes rfl l)
  | restores n producer e resume below w =>
    obtain ⟨producers, same⟩ := w.registry.restore_eq n producer
    rw [same]
    exact iff_of_true h (not_strikes rfl l)
  | admits factory next stack w admitted =>
    obtain ⟨-, -, guard, suppressed, -, -, -, rfl⟩ := Registry.of_admitted admitted
    exact iff_of_true h (not_strikes rfl l)
  | memoizes | leaves | installs | drops | abandons | marks =>
    exact iff_of_true h (not_strikes rfl l)
  | withdraws n tasks resume stack w =>
    rw [strikes_tearing]
    cases l with
    | dependency a b => exact (Links.has_detach _ _ _ _).trans (and_iff_left h)
    | containment a b => exact iff_of_true h id
  | releases n tasks resume stack w =>
    rw [strikes_tearing]
    cases l with
    | dependency a b => exact iff_of_true h id
    | containment a b => exact (Links.has_detach _ _ _ _).trans (and_iff_left h)
  | forgets n tasks resume stack w =>
    rw [strikes_tearing]
    apply ((Graph.holds_forget _ l n).trans (and_iff_left h)).trans
    cases l <;> rfl
  | clears tasks resume stack w =>
    rw [strikes_tearing]
    apply iff_of_false
    · cases l <;> nofun
    · cases l <;> exact not_not_intro trivial

/-! ### Destructions that are worked off -/

/-- Where the destruction of what a component contains is due, the end of its own destruction is due
next. -/
def Paired : List (Task δ) → Prop
  | [] => True
  | .contents n :: tasks => tasks.head? = some (.forget n) ∧ Paired tasks
  | _ :: tasks => Paired tasks

theorem Paired.tail {t : Task δ} {tasks : List (Task δ)} (h : Paired (t :: tasks)) :
  Paired tasks
  := by
  cases t with
  | contents n => exact h.2
  | destroy | dispose | forget | clear => exact h

/-- Tasks in which everything is paired may come before others. -/
theorem Paired.append {tasks rest : List (Task δ)} (h : Paired tasks) (h' : Paired rest) :
  Paired (tasks ++ rest)
  := by
  induction tasks with
  | nil => exact h'
  | cons t tasks ih =>
    cases t with
    | contents n =>
      obtain ⟨next, paired⟩ := h
      obtain ⟨later, rfl⟩ := List.head?_eq_some_iff.mp next
      exact ⟨rfl, ih paired⟩
    | destroy | dispose | forget | clear => exact ih h

theorem paired_destroys (names : List Name) :
  Paired (names.map (Task.destroy (δ := δ)))
  := by
  induction names with
  | nil => trivial
  | cons n names ih => exact ih

/-- In the tasks that a step issues everything is paired. -/
theorem paired_issued (m : Machine φ δ μ α) :
  Paired m.issued
  := by
  unfold issued
  split
  case h_1 => trivial
  case h_2 =>
    apply (paired_destroys _).append
    trivial
  case h_3 =>
    rw [destructionTasks]
    apply ((paired_destroys _).append _).append
    · exact ⟨rfl, trivial⟩
    · rename_i w
      cases w.registry.disposals.get? _ <;> trivial
  case h_4 => apply paired_destroys
  case h_5 => trivial

/-- Where the destruction of a component begins, its end is put under all that it does before. -/
theorem forget_suffix (calm : host.Calm) (now : m.task? = some (.destroy n)) :
  ∃ rest, m.tasks = .destroy n :: rest ∧ .forget n :: rest <:+ (m.step host).tasks
  := by
  obtain ⟨waiting, before, after⟩ := tasks_step calm m
  rw [now] at before
  refine ⟨waiting, before, ?_⟩
  obtain ⟨ρ, tasks, resume, stack, w, rfl⟩ := of_task now
  rw [after, issued, destructionTasks, List.append_assoc]
  apply List.suffix_append_of_suffix
  apply List.suffix_cons

namespace Destroyed

/-- A destruction ends with striking the links of its component. -/
theorem forgets_last (h : Destroyed host m n i j) (calm : host.Calm) :
  ∃ k, i < k ∧ k + 1 = j ∧ (runFor host k m).task? = some (.forget n)
  := by
  obtain ⟨rest, split, on⟩ := forget_suffix calm h.began
  obtain rfl := List.tail_eq_of_cons_eq (h.under.symm.trans split)
  rw [← runFor_step] at on
  obtain ⟨k, hk, before, due, top⟩ :=
    (stacked_tasks calm m).exists_taken on h.later (Nat.le_refl _)
  refine ⟨k, hk, ?_, due⟩
  obtain ⟨waiting, same, next⟩ := tasks_step calm (runFor host k m)
  have none : (runFor host k m).issued = [] := by
    obtain ⟨ρ, tasks, resume, stack, w, hm⟩ := of_task due
    rw [hm]
    rfl
  rw [due, top] at same
  obtain rfl := List.tail_eq_of_cons_eq same
  rw [none, ← runFor_step] at next
  -- what was under the destruction is due again, so that it has returned
  by_contra ne
  have still := h.running (k + 1) (by omega) (by omega)
  rw [next] at still
  exact Nat.lt_irrefl _ still

/-- As long as a destruction runs, its tasks are on top, and the destruction of what a component
contains is followed by the end of its own. -/
theorem exists_paired (h : Destroyed host m n i j) (calm : host.Calm) (after : i < v)
    (before : v ≤ j) :
  ∃ above, (runFor host v m).tasks = above ++ (runFor host j m).tasks ∧ Paired above
  := by
  induction after with
  | refl =>
    obtain ⟨waiting, same, next⟩ := tasks_step calm (runFor host i m)
    rw [h.began, h.under] at same
    obtain rfl := List.tail_eq_of_cons_eq same
    rw [← runFor_step] at next
    exact ⟨_, next, paired_issued _⟩
  | @step v after ih =>
    obtain ⟨above, split, paired⟩ := ih (Nat.le_of_succ_le before)
    obtain ⟨waiting, same, next⟩ := tasks_step calm (runFor host v m)
    have still := h.running v before after
    rw [← runFor_step] at next
    rw [next]
    cases due : (runFor host v m).task? with
    | none =>
      rw [due, split] at same
      obtain rfl : above ++ (runFor host j m).tasks = waiting := same
      exact ⟨_, (List.append_assoc _ _ _).symm, (paired_issued _).append paired⟩
    | some t =>
      cases above with
      | nil =>
        rw [split] at still
        exact absurd still (Nat.lt_irrefl _)
      | cons t' above =>
        rw [due, split] at same
        obtain rfl := List.tail_eq_of_cons_eq same
        exact ⟨_, (List.append_assoc _ _ _).symm, (paired_issued _).append paired.tail⟩

/-- When a destruction has taken up a link, the destruction of an end of the link ends before it
returns. -/
theorem exists_forgets (h : Destroyed host m n i j) (calm : host.Calm) (after : i < v)
    (before : v < j) (strikes : (runFor host v m).Strikes l) :
  ∃ k, v ≤ k ∧ k < j ∧ (runFor host k m).Forgets l
  := by
  have still := h.running v before after
  obtain ⟨t, due, strikes⟩ := strikes
  cases t with
  | destroy x =>
    cases l with
    | containment => exact strikes.elim
    | dependency a b =>
      -- the task that forgets the component is under those of its dependents
      obtain ⟨rest, split, on⟩ := forget_suffix calm due
      rw [← runFor_step] at on
      rw [split, List.length_cons] at still
      obtain ⟨k, hk, hj, ends, -⟩ :=
        (stacked_tasks calm m).exists_taken on before (Nat.le_of_lt_succ still)
      exact ⟨k, Nat.le_of_succ_le hk, hj, _, ends, .inl strikes⟩
  | contents x =>
    cases l with
    | dependency => exact strikes.elim
    | containment a b =>
      -- the task that forgets the component comes right after that for its contents
      obtain ⟨above, split, paired⟩ := h.exists_paired calm after (Nat.le_of_lt before)
      obtain ⟨waiting, same, -⟩ := tasks_step calm (runFor host v m)
      rw [due, split] at same
      cases above with
      | nil =>
        rw [split] at still
        exact absurd still (Nat.lt_irrefl _)
      | cons t above =>
        obtain ⟨rfl, -⟩ := List.cons.inj same
        obtain ⟨rest, rfl⟩ := List.head?_eq_some_iff.mp paired.1
        have on : .forget x :: (rest ++ (runFor host j m).tasks) <:+ (runFor host v m).tasks := by
          rw [split]
          apply List.suffix_cons
        have low : (runFor host j m).tasks.length
            ≤ (rest ++ (runFor host j m).tasks).length := by
          rw [List.length_append]
          apply Nat.le_add_left
        obtain ⟨k, hk, hj, ends, -⟩ :=
          (stacked_tasks calm m).exists_taken on (Nat.le_of_lt before) low
        exact ⟨k, hk, hj, _, ends, .inr strikes⟩
  | forget x => exact ⟨v, Nat.le_refl v, before, .forget x, due, by cases l <;> exact strikes⟩
  | clear => exact ⟨v, Nat.le_refl v, before, .clear, due, trivial⟩
  | dispose => cases l <;> exact strikes.elim

end Destroyed

/-- The links that the next step is asked to record. -/
def recorded : Machine φ δ μ α → List Link
  | running (.edit (.depend dependee dependent) _) _ _ => [.dependency dependee dependent]
  | running (.edit (.contain inner outer) _) _ _ =>
    [.containment inner outer, .dependency inner outer]
  | _ => []

/-- With step `u` a link is recorded while `n` is created. -/
structure Records (host : Host φ δ μ) (m : Machine φ δ μ α) (n : Name) (u : Nat) (l : Link) :
    Prop where
  creating : n ∈ (runFor host u m).creations
  asked : l ∈ (runFor host u m).recorded
  holds : (runFor host (u + 1) m).registry.graph.Holds l

end Machine

/-- When the destruction of a component returns, no link of this component is in the graph.  A link
that was recorded while the component was created again is there still, exactly if no destruction
has ended in the meantime of a component that is an end of the link. -/
theorem links_outlast_iff (calm : host.Calm) (m : Machine φ δ μ α) (n : Name) (i j : Nat)
    (h : Destroyed host m n i j) :
  (∀ l, l.Touches n → ¬ (runFor host j m).registry.graph.Holds l) ∧
    ∀ u l, i < u → u < j → Records host m n u l →
      ((∀ v, u < v → v ≤ j → (runFor host v m).registry.graph.Holds l) ↔
        ∀ v, u < v → v < j → ¬ (runFor host v m).Forgets l)
  := by
  constructor
  · intro l touches holds
    obtain ⟨k, -, rfl, due⟩ := h.forgets_last calm
    obtain ⟨ρ, tasks, resume, stack, w, hm⟩ := of_task due
    rw [runFor_step, hm] at holds
    exact ((Graph.holds_forget _ l n).mp holds).1 touches
  intro u l began returned records
  constructor
  · rintro stays v after before ⟨t, due, ends⟩
    have still := stays (v + 1) (Nat.lt_succ_of_lt after) before
    rw [runFor_step] at still
    have spared := (holds_step_iff host (stays v after (Nat.le_of_lt before))).mp still
    exact spared ⟨t, due, ends.strikes⟩
  · intro none v after
    induction after with
    | refl => exact fun _ => records.holds
    | @step v after ih =>
      intro before
      rw [runFor_step]
      apply (holds_step_iff host (ih (Nat.le_of_succ_le before))).mpr
      intro strikes
      obtain ⟨k, later, hk, forgets⟩ :=
        h.exists_forgets calm (Nat.lt_trans began after) before strikes
      exact none k (Nat.lt_of_lt_of_le after later) hk forgets

/-- A host that records, whatever it creates, that `n` and `d` depend on `c`.  Every disposal has
`n` created. -/
def Host.reviving : Host Unit Unit Unit where
  make _ := .edit (.depend "c" "n") fun _ => .edit (.depend "c" "d") fun _ => .done (.ok ⟨0⟩)
  dispose _ := .create "n" () fun _ => .done (.ok ())
  hear _ m := (none, m)

/-- The run that creates `n`, sets its disposal up, and destroys first `n` and then `c`. -/
def Machine.reviving : Machine Unit Unit Unit Unit :=
  start (.create "n" () fun _ => .edit (.onDestroy "n" ()) fun _ => .destroy "n" fun _ =>
    .destroy "c" .done) ⟨.fresh ⟨true, 1, [], false⟩, ()⟩

/-- The destruction of `n` begins with step 6 and returns at the moment 15. -/
theorem destroyed_reviving :
  Machine.Destroyed .reviving .reviving "n" 6 15
  := ⟨⟨rfl, by decide, rfl⟩, by decide⟩

/-- Of the links that are recorded while `n` is created again, the one of `n` is lost, and the other
one stays. -/
theorem links_outlast_iff_reviving :
  Machine.Records .reviving .reviving "n" 9 (.dependency "c" "n") ∧
    ¬ (runFor .reviving 15 .reviving).registry.graph.Holds (.dependency "c" "n") ∧
    Machine.Records .reviving .reviving "n" 10 (.dependency "c" "d") ∧
    ∀ v, 10 < v → v ≤ 15 →
      (runFor .reviving v .reviving).registry.graph.Holds (.dependency "c" "d")
  := by
  have calm : Host.reviving.Calm := fun _ _ => rfl
  have h := links_outlast_iff calm .reviving "n" 6 15 destroyed_reviving
  have recorded : Machine.Records .reviving .reviving "n" 9 (.dependency "c" "n") := by
    exact ⟨by decide, List.Mem.head _, rfl⟩
  have recorded' : Machine.Records .reviving .reviving "n" 10 (.dependency "c" "d") := by
    exact ⟨by decide, List.Mem.head _, rfl⟩
  refine ⟨recorded, h.1 _ (.inr rfl), recorded', ?_⟩
  apply (h.2 10 _ (by decide) (by decide) recorded').mpr
  rintro v after before ⟨t, due, ends⟩
  interval_cases v
  case «14» =>
    obtain rfl := Option.some.inj due
    rcases ends with ends | ends <;> exact absurd ends (by decide)
  case «13» =>
    obtain rfl := Option.some.inj due
    exact ends
  all_goals cases due

/-- The link that was recorded while `n` was created again is lost when the destruction of `n`
returns, although `n` is finished; hence `n` is left when `c`, on which it depends, is destroyed. -/
theorem not_links_outlast :
  Machine.Destroyed .reviving .reviving "n" 6 15 ∧
    Machine.Records .reviving .reviving "n" 9 (.dependency "c" "n") ∧
    (runFor .reviving 15 .reviving).registry.finished.get? "n" = some ⟨0⟩ ∧
    ¬ (runFor .reviving 15 .reviving).registry.graph.Holds (.dependency "c" "n") ∧
    Machine.Destroyed .reviving .reviving "c" 17 23 ∧
    (runFor .reviving 23 .reviving).registry.finished.get? "n" = some ⟨0⟩
  := by
  have recorded : Machine.Records .reviving .reviving "n" 9 (.dependency "c" "n") :=
    ⟨by decide, List.Mem.head _, rfl⟩
  refine ⟨destroyed_reviving, recorded, rfl, ?_, ⟨⟨rfl, by decide, rfl⟩, by decide⟩, rfl⟩
  rintro ⟨⟩

end Componentry
