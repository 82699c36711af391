import Componentry.Proofs.Conduct
import Mathlib.Data.List.Count

/-!
# The instances for which hooks are set up

The hook of a definition is set up for the instance that a construction is about to return.  As
long as no other instance of the component appears while it is created, this is the instance that
gets finished, so that the hook, when it runs, disposes of the finished instance.  The order in
which a construction and the registry proceed is not made for exempt components that are created
while they are being created: there the hook of the instance that is dropped takes the place of the
hook of the one that is kept.
-/

namespace Componentry

open Machine

variable {κ σ α : Type} {n : Name} {ρ : Role}

/-- If the component `n` is destroyed, the hook of its definition runs for the instance `t`. -/
def Registry.Hooked (r : Registry (Recipe κ) (Teardown κ)) (n : Name) (t : Ref) : Prop :=
  ∃ m k, r.disposals.get? n = some (.hook m k t)

section Tasks

variable {φ δ μ α : Type}

/-- The component is destroyed before the registry is cleared. -/
def Task.Catches (n : Name) : List (Task δ) → Prop
  | [] => True
  | .destroy m :: tasks => m = n ∨ Catches n tasks
  | .dispose _ _ :: tasks | .contents _ :: tasks | .forget _ :: tasks => Catches n tasks
  | .clear :: _ => False

/-- A component is caught by destroying it, or by what comes after that. -/
theorem Task.catches_destroys {names : List Name} {tasks : List (Task δ)}
    (h : n ∈ names ∨ Catches n tasks) :
  Catches n (names.map .destroy ++ tasks)
  := by
  induction names with
  | nil => simpa using h
  | cons m names ih =>
    rcases h with h | h
    · rcases List.mem_cons.mp h with rfl | h
      · left
        rfl
      · right
        apply ih (.inl h)
    · right
      apply ih (.inr h)

/-- What comes after the destruction of a component catches what it did. -/
theorem Task.catches_destructionTasks {m : Name} {dependents : List Name} {disposal? : Option δ}
    {tasks : List (Task δ)} (h : Catches n tasks) :
  Catches n (destructionTasks m dependents disposal? ++ tasks)
  := by
  simp only [destructionTasks, List.append_assoc]
  apply catches_destroys
  right
  cases disposal? with
  | none => apply h
  | some d => apply h

/-- The component is destroyed before the registry is cleared by a destruction that waits for the
program on top of the stack. -/
def Stack.Catches (n : Name) : {ρ : Role} → Stack φ δ μ α ρ → Prop
  | _, disposing _ tasks _ _ => Task.Catches n tasks
  | _, protecting _ below => below.Catches n
  | _, base | _, creating _ _ _ _ | _, producing _ _ _ _ => True

/-- A program that disposes of nothing is waited for by no destruction. -/
theorem Stack.catches_of_ne {stack : Stack φ δ μ α ρ} (hρ : ρ ≠ .disposer) :
  stack.Catches n
  := by
  cases stack with
  | base | creating | producing => trivial
  | disposing | protecting => apply absurd rfl hρ

namespace Machine

/-- The component is destroyed before the registry is cleared, if a shutdown is running. -/
def Catches (n : Name) : Machine φ δ μ α → Prop
  | running _ stack _ => stack.Catches n
  | tearing tasks _ _ _ => Task.Catches n tasks
  | unwinding _ stack _ => stack.Catches n
  | halted _ _ => True

/-- Another instance of the component may appear with the next step while it is created: either
the component is exempt and its creation is asked for again, or an instance that was made elsewhere
is bound to its name. -/
def rivals (exempt : List Name) (n : Name) : Machine φ δ μ α → Bool
  | running (.create m _ _) stack _ => m = n && n ∈ exempt && n ∈ stack.creations
  | running (.edit (.bind m _) _) stack _ => m = n && n ∈ stack.creations
  | _ => false

end Machine

end Tasks

/-! ### Between constructions -/

namespace Registry

variable {r r' : Registry (Recipe κ) (Teardown κ)} {creations creations' : List Name}
  {catches catches' : Prop}

/-- The hook of the component `n` is set up for its finished instance, if it is set up.  The
component is not finished while it is created, and it is created once at a time. -/
structure Aims (n : Name) (r : Registry (Recipe κ) (Teardown κ)) (creations : List Name)
    (catches : Prop) : Prop where
  target : ∀ t, r.Hooked n t → r.finished.get? n = some t
  caught : ∀ t, r.Hooked n t → catches
  absent : n ∈ creations → r.finished.get? n = none
  once : creations.count n ≤ 1

/-- Whether a hook is set up depends on the disposal that is due. -/
theorem hooked_congr (h : r'.disposals.get? n = r.disposals.get? n) {t : Ref} :
  r'.Hooked n t ↔ r.Hooked n t
  := by
  simp only [Hooked, h]

/-- What is neither a hook of the component nor its finished instance may change, and creations may
end. -/
theorem Aims.congr (h : r.Aims n creations catches)
    (finished : r'.finished.get? n = r.finished.get? n)
    (disposals : r'.disposals.get? n = r.disposals.get? n)
    (sub : creations'.Sublist creations) (hc : catches → catches') :
  r'.Aims n creations' catches'
  where
  target t ht := finished.trans (h.target t ((hooked_congr disposals).mp ht))
  caught t ht := hc (h.caught t ((hooked_congr disposals).mp ht))
  absent hn := finished.trans (h.absent (sub.subset hn))
  once := Nat.le_trans (sub.count_le n) h.once

/-- A component that is not finished, and whose hook is not set up. -/
theorem Aims.of_vacant (finished : r.finished.get? n = none)
    (vacant : ∀ t, ¬ r.Hooked n t) (once : creations.count n ≤ 1) :
  r.Aims n creations catches
  where
  target t ht := absurd ht (vacant t)
  caught t ht := absurd ht (vacant t)
  absent _ := finished
  once := once

/-- The hook of a component that is not finished is not set up. -/
theorem Aims.vacant (h : r.Aims n creations catches) (hn : r.finished.get? n = none) (t : Ref) :
  ¬ r.Hooked n t
  := by
  intro ht
  have := h.target t ht
  rw [hn] at this
  cases this

/-- Where no disposal is due, no hook is set up. -/
theorem not_hooked_of_none (h : r.disposals.get? n = none) (t : Ref) :
  ¬ r.Hooked n t
  := by
  rintro ⟨m, k, ht⟩
  rw [h] at ht
  cases ht

/-- A component whose hook is set up is among those with a disposal. -/
theorem Hooked.mem_names {t : Ref} (h : r.Hooked n t) :
  n ∈ r.disposals.names
  := by
  obtain ⟨m, k, h⟩ := h
  apply Catalog.mem_names_iff.mpr
  use .hook m k t

/-- A creation begins, of a component that is neither finished nor created already. -/
theorem Aims.begins (h : r.Aims n creations catches) {m : Name}
    (fresh : m = n → r.finished.get? n = none ∧ n ∉ creations) :
  r.Aims n (creations ++ [m]) True
  := by
  by_cases hm : m = n
  · obtain ⟨hf, hn⟩ := fresh hm
    apply Aims.of_vacant hf (h.vacant hf)
    apply Nat.le_of_eq
    rw [hm, List.count_append, List.count_singleton_self, List.count_eq_zero_of_not_mem hn]
  · constructor
    case target => apply h.target
    case caught => exact fun _ _ => trivial
    case absent =>
      intro hn
      apply h.absent
      apply (List.mem_append.mp hn).resolve_right
      simpa using Ne.symm hm
    case once =>
      rw [List.count_append, List.count_singleton, beq_false_of_ne hm]
      apply h.once

/-- A component that is destroyed has neither a finished instance nor a hook. -/
theorem Aims.withdraw (h : r.Aims n creations catches) (m : Name)
    (hc : m ≠ n → catches → catches') :
  (r.withdraw m).Aims n creations catches'
  := by
  by_cases hm : m = n
  · apply Aims.of_vacant _ _ h.once
    · rw [hm]
      apply (Catalog.get?_erase _ _ _).trans (if_pos rfl)
    · rw [hm]
      apply not_hooked_of_none
      apply (Catalog.get?_erase _ _ _).trans (if_pos rfl)
  · apply h.congr _ _ (.refl _) (hc hm)
    · apply Catalog.get?_erase_of_ne (Ne.symm hm)
    · apply Catalog.get?_erase_of_ne (Ne.symm hm)

/-- An instance is bound to a component that is not being created. -/
theorem Aims.bind (h : r.Aims n creations catches) {m : Name} (hm : m = n → n ∉ creations)
    (i : Ref) :
  (r.edit (.bind m i)).1.Aims n creations catches
  := by
  obtain ⟨hf, hb⟩ | hb := r.edit_bind m i
  · rw [hb]
    by_cases hmn : m = n
    · rw [hmn] at hf ⊢
      constructor
      case target =>
        intro t ht
        apply absurd ht (h.vacant hf t)
      case caught => apply h.caught
      case absent =>
        intro hn
        apply absurd hn (hm hmn)
      case once => apply h.once
    · exact h.congr (Catalog.get?_insert_of_ne (Ne.symm hmn)) rfl (.refl _) id
  · rw [hb]
    apply h

/-- The hook of a definition is not set up by a request that any program may make. -/
theorem Aims.onDestroy (h : r.Aims n creations catches) (m : Name) {t : Teardown κ}
    (ht : ¬ t.IsHook) :
  (r.edit (.onDestroy m t)).1.Aims n creations catches
  := by
  by_cases hm : m = n
  · have vacant : ∀ i, ¬ (r.edit (.onDestroy m t)).1.Hooked n i := by
      rintro i ⟨m', k, hi⟩
      rw [hm] at hi
      have : some t = some (Teardown.hook m' k i) :=
        (Catalog.get?_insert_self r.disposals n t).symm.trans hi
      cases this
      apply ht trivial
    constructor
    case target =>
      intro i hi
      apply absurd hi (vacant i)
    case caught =>
      intro i hi
      apply absurd hi (vacant i)
    case absent => apply h.absent
    case once => apply h.once
  · exact h.congr rfl (Catalog.get?_insert_of_ne (Ne.symm hm)) (.refl _) id

/-- A request that any program may make leaves the aim, unless it binds an instance that was made
elsewhere while the component is created. -/
theorem Aims.edit (h : r.Aims n creations catches) {e : Edit (Recipe κ) (Teardown κ)}
    (he : e.Orderly) (hb : ∀ i, e = .bind n i → n ∉ creations) :
  (r.edit e).1.Aims n creations catches
  := by
  cases e with
  | bind m i =>
    apply h.bind
    rintro rfl
    apply hb i rfl
  | onDestroy m t => apply h.onDestroy m he
  | remove m => cases he
  | setExempt m b => cases he
  | publish m producer =>
    simp only [Registry.edit, publish]
    split
    · apply h
    · exact h.congr rfl rfl (.refl _) id
  | suppress | depend | contain => exact h.congr rfl rfl (.refl _) id

end Registry

/-! ### The machine -/

namespace Machine

variable {stack : Stack (Recipe κ) (Teardown κ) (Site κ σ) α ρ}
  {w : World (Recipe κ) (Teardown κ) (Site κ σ)}
  {host : Host (Recipe κ) (Teardown κ) (Site κ σ)}

/-- The hook of a component is set up for its finished instance, if at all. -/
def Steady (n : Name) (m : Machine (Recipe κ) (Teardown κ) (Site κ σ) α) : Prop :=
  m.registry.Aims n m.creations (m.Catches n)

/-- The hook of a component is set up for its finished instance, or for the one that its
construction has just returned. -/
inductive Aims (n : Name) : Machine (Recipe κ) (Teardown κ) (Site κ σ) α → Prop
  | steady {m : Machine (Recipe κ) (Teardown κ) (Site κ σ) α} (h : m.Steady n) : Aims n m
  | due {collects : Bool} {ρ : Role} {resume : Except Error Materialized → Job κ σ (ρ.Result α)}
      {below : Stack (Recipe κ) (Teardown κ) (Site κ σ) α ρ}
      {w : World (Recipe κ) (Teardown κ) (Site κ σ)} {i : Ref}
      (target : ∀ t, w.registry.Hooked n t → t = i) (absent : w.registry.finished.get? n = none)
      (once : (below.creations ++ [n]).count n ≤ 1) :
      Aims n (@running _ _ _ _ .maker (.done (.ok i)) (.creating n collects resume below) w)

/-- After a notice the aim is kept if it is kept by what goes on after it. -/
theorem steady_announcing {notice : Notice}
    {next : World (Recipe κ) (Teardown κ) (Site κ σ) →
      Machine (Recipe κ) (Teardown κ) (Site κ σ) α}
    (h : w.registry.Aims n stack.creations (stack.Catches n))
    (goes : ∀ m, (next { w with memory := m }).Steady n) :
  (announcing host notice stack w next).Steady n
  := by
  apply announcing_of (P := fun m => m.Steady n)
  · intro _
    apply goes
  · intro p _
    apply h

/-- A component that is created once at a time is not created below its own creation. -/
theorem notMem_of_once {names : List Name} (h : (names ++ [n]).count n ≤ 1) :
  n ∉ names
  := by
  intro hn
  have := List.count_pos_iff.mpr hn
  rw [List.count_append, List.count_singleton_self] at h
  omega

/-- The instance that a construction has returned is finished, and its hook is set up for it. -/
theorem steady_finishCreation {m : Name} {collects : Bool} {outcome : Except Error Ref}
    {resume : Except Error Materialized → Job κ σ (ρ.Result α)} (hρ : ρ ≠ .disposer)
    (entered : (w.registry.leave m collects).2 = none)
    (target : ∀ t, w.registry.Hooked n t →
      w.registry.finished.get? n = some t ∨ m = n ∧ outcome = .ok t)
    (absent : n ∈ stack.creations ++ [m] → w.registry.finished.get? n = none)
    (once : (stack.creations ++ [m]).count n ≤ 1) :
  (finishCreation host m collects outcome resume stack w).Steady n
  := by
  have catches : stack.Catches n := Stack.catches_of_ne hρ
  have once' : stack.creations.count n ≤ 1 :=
    Nat.le_trans ((List.sublist_append_left _ _).count_le n) once
  -- only the creation of the component itself can change the instance the hook is for
  by_cases hm : m = n
  · subst hm
    have hf : w.registry.finished.get? m = none := absent (by simp)
    have hf' : (w.registry.leave m collects).1.finished.get? m = none := hf
    have target : ∀ t, w.registry.Hooked m t → outcome = .ok t := by
      intro t ht
      apply ((target t ht).resolve_left _).2
      rw [hf]
      rintro ⟨⟩
    simp only [finishCreation, entered, hf']
    cases outcome with
    | ok i =>
      have installed : ((w.registry.leave m collects).1.install m i).Aims m stack.creations
          (stack.Catches m) := by
        constructor
        case target =>
          intro t ht
          cases target t ht
          apply Catalog.get?_insert_self
        case caught => exact fun _ _ => catches
        case absent =>
          intro hn
          apply absurd hn (notMem_of_once once)
        case once => apply once'
      apply steady_announcing installed
      intro _
      exact installed
    | error e =>
      have dropped : ((w.registry.leave m collects).1.dropEarly m).Aims m stack.creations
          (stack.Catches m) := by
        -- a hook is there only if the construction has returned its instance
        have vacant : ∀ t, ¬ w.registry.Hooked m t := by
          intro t ht
          cases target t ht
        exact .of_vacant hf' vacant once'
      apply steady_announcing dropped
      intro _
      exact dropped
  · have h : w.registry.Aims n stack.creations (stack.Catches n) := by
      constructor
      case target =>
        intro t ht
        apply (target t ht).resolve_right
        rintro ⟨rfl, -⟩
        apply hm rfl
      case caught => exact fun _ _ => catches
      case absent =>
        intro hn
        apply absent (List.mem_append_left _ hn)
      case once => apply once'
    have left : (w.registry.leave m collects).1.Aims n stack.creations (stack.Catches n) :=
      h.congr rfl rfl (.refl _) id
    simp only [finishCreation, entered]
    split
    · apply left
    · rename_i i _
      have installed : ((w.registry.leave m collects).1.install m i).Aims n stack.creations
          (stack.Catches n) :=
        left.congr (Catalog.get?_insert_of_ne (Ne.symm hm)) rfl (.refl _) id
      apply steady_announcing installed
      intro _
      exact installed
    · have dropped : ((w.registry.leave m collects).1.dropEarly m).Aims n stack.creations
          (stack.Catches n) := left.congr rfl rfl (.refl _) id
      apply steady_announcing dropped
      intro _
      exact dropped

variable {b : Behaviour κ σ} {c : Container κ} {exempt : List Name} {most : Nat}

/-- The end of a lookup keeps the aim. -/
theorem steady_finishLookup {m : Name} {producer : Recipe κ} {outcome : Except Error Ref}
    {resume : Except Error (Option Ref) → Job κ σ (ρ.Result α)}
    (h : w.registry.Aims n stack.creations (stack.Catches n)) :
  (finishLookup m producer outcome resume stack w).Steady n
  := by
  cases outcome with
  | ok i => exact h.congr rfl rfl (.refl _) id
  | error e =>
    obtain ⟨producers, hr⟩ := w.registry.restore_eq m producer
    simp only [finishLookup, World.onRegistry, hr]
    exact h.congr rfl rfl (.refl _) id

/-- The end of a disposal keeps the aim. -/
theorem steady_finishDisposal {notice : Notice} {tasks : List (Task (Teardown κ))}
    {resume : Unit → Job κ σ (ρ.Result α)} (hρ : ρ ≠ .disposer)
    (h : w.registry.Aims n stack.creations (Task.Catches n tasks)) :
  (finishDisposal host notice tasks resume stack w).Steady n
  := by
  apply steady_announcing
  · exact h.congr rfl rfl (.refl _) fun _ => Stack.catches_of_ne hρ
  · intro _
    exact h

/-- A program that returns keeps the aim. -/
theorem Steady.finish {a : ρ.Result α} (h : (running (.done a) stack w).Steady n)
    (orderly : stack.Orderly host) (tracked : stack.Tracked most w.registry) :
  (finish host a stack w).Steady n
  := by
  cases stack with
  | base => exact h
  | creating m collects resume below =>
    apply steady_finishCreation orderly.1 tracked.leave.1
    · intro t ht
      left
      apply h.target t ht
    · apply h.absent
    · apply h.once
  | producing m producer resume below =>
    apply steady_finishLookup
    exact h.congr rfl rfl (.refl _) fun _ => Stack.catches_of_ne orderly.2.1
  | disposing m tasks resume below =>
    rcases a with text | u
    · exact steady_finishDisposal orderly.1 h
    · exact steady_finishDisposal orderly.1 h
  | protecting resume below => exact h

/-- A panic that unwinds a frame keeps the aim. -/
theorem Steady.unwind {p : Panic} (h : (unwinding p stack w).Steady n)
    (orderly : stack.Orderly host) :
  (unwind host p stack w).Steady n
  := by
  cases stack with
  | base => exact h
  | creating m collects resume below =>
    exact h.congr rfl rfl (List.sublist_append_left _ _) fun _ => Stack.catches_of_ne orderly.1
  | producing m producer resume below =>
    exact h.congr rfl rfl (.refl _) fun _ => Stack.catches_of_ne orderly.2.1
  | disposing m tasks resume below => exact steady_finishDisposal orderly.1 h
  | protecting resume below => exact h

/-- To work off a task keeps the aim. -/
theorem Steady.tear (task : Task (Teardown κ)) {tasks : List (Task (Teardown κ))}
    {resume : Unit → Job κ σ (ρ.Result α)} (h : (tearing (task :: tasks) resume stack w).Steady n) :
  (tear host task tasks resume stack w).Steady n
  := by
  cases task with
  | destroy m =>
    apply Registry.Aims.withdraw h
    intro hm hc
    apply Task.catches_destructionTasks (hc.resolve_left hm)
  | dispose m disposal => exact h
  | contents m => exact h.congr rfl rfl (.refl _) fun hc => Task.catches_destroys (.inr hc)
  | forget m => exact h.congr rfl rfl (.refl _) id
  | clear =>
    -- the hook would have been caught before
    have vacant : ∀ t, ¬ w.registry.Hooked n t := fun t ht => h.caught t ht
    exact .of_vacant rfl vacant h.once

/-- The creation of a component does not begin again before it has ended, unless the component is
exempt. -/
theorem notMem_of_admitted {r r' : Registry (Recipe κ) (Teardown κ)} {names : List Name}
    {collects : Bool} (h : r.Tracks most names) (hb : r.beginCreation n = .admitted collects r')
    (hn : n ∉ r.guard.exempt) :
  n ∉ names
  := by
  obtain ⟨-, -, guard, suppressed, he, -, -, rfl⟩ := Registry.of_admitted hb
  have nodup := guard.inCreation.nodup
  rw [(h.guard.enter he).inCreation, Guard.noted_concat,
    if_neg (by rwa [Guard.exempt_enter he])] at nodup
  intro hm
  apply (List.nodup_append.mp nodup).2.2 n _ n (List.mem_singleton_self n) rfl
  rw [Guard.noted, List.mem_filter, Guard.exempt_enter he]
  use hm
  simpa using hn

/-- To meet a request for a creation keeps the aim, if no rival instance may appear. -/
theorem Steady.startCreation {m : Name} {d : Definition κ}
    {resume : Except Error Materialized → Job κ σ (ρ.Result α)}
    (h : (running (.create m (.component m d) resume) stack w).Steady n)
    (orderly : w.registry.Orderly (.ofList exempt)) (tracked : stack.Tracked most w.registry)
    (alone : (running (.create m (.component m d) resume) stack w).rivals exempt n = false) :
  (startCreation host m (.component m d) resume stack w).Steady n
  := by
  unfold Machine.startCreation
  split
  · exact h
  · exact h
  · rename_i collects r' hb
    have fresh : m = n → n ∉ stack.creations := by
      rintro rfl hm
      by_cases he : m ∈ exempt
      · simp [rivals, he, hm] at alone
      · apply notMem_of_admitted tracked.tracks hb _ hm
        rw [orderly.exempt, Roster.mem_ofList]
        apply he
    obtain ⟨hf, -, guard, suppressed, -, -, -, rfl⟩ := Registry.of_admitted hb
    apply steady_announcing
    · exact h.congr rfl rfl (.refl _) id
    · intro _
      have h : w.registry.Aims n stack.creations (stack.Catches n) := h
      exact (h.begins fun hm => ⟨hm ▸ hf, fresh hm⟩).congr rfl rfl (.refl _) id

/-- To look a name up keeps the aim. -/
theorem Steady.startLookup {m : Name} {early : Bool}
    {resume : Except Error (Option Ref) → Job κ σ (ρ.Result α)}
    (h : (running (.lookup m early resume) stack w).Steady n) :
  (startLookup host m early resume stack w).Steady n
  := by
  unfold Machine.startLookup
  split
  · exact h
  · rename_i hs
    obtain ⟨-, -, rfl⟩ := Registry.of_sight_pending hs
    exact h.congr rfl rfl (.refl _) fun _ => trivial

/-- The last request of a construction sets the hook up for the instance that it returns. -/
theorem aims_hook {m : Name} {collects : Bool} {k : κ} {i : Ref}
    {resume : Except Error Materialized → Job κ σ (ρ.Result α)}
    (h : (@running _ _ _ _ .maker (.edit (.onDestroy m (.hook m k i)) fun _ => .done (.ok i))
      (.creating m collects resume stack) w).Steady n) :
  (step host (@running _ _ _ _ .maker (.edit (.onDestroy m (.hook m k i)) fun _ => .done (.ok i))
    (.creating m collects resume stack) w)).Aims n
  := by
  by_cases hm : m = n
  · subst hm
    apply Aims.due
    case target =>
      rintro t ⟨m', k', ht⟩
      have : some (Teardown.hook m k i) = some (Teardown.hook m' k' t) :=
        (Catalog.get?_insert_self w.registry.disposals m _).symm.trans ht
      cases this
      rfl
    case absent => exact h.absent (by simp [creations, Stack.creations])
    case once => exact h.once
  · apply Aims.steady
    exact h.congr rfl (Catalog.get?_insert_of_ne (Ne.symm hm)) (.refl _) id

/-- A disposal does not change for whom hooks are set up. -/
theorem Steady.step_aloof {p : Job κ σ (ρ.Result α)} (hp : p.Aloof host)
    (h : (running p stack w).Steady n) (orderly : stack.Orderly host)
    (tracked : stack.Tracked most w.registry) :
  (step host (running p stack w)).Steady n
  := by
  cases hp with
  | done a => exact h.finish orderly tracked
  | panic | view | revise | protect => exact h

/-- A step of an orderly program keeps the aim, or sets the hook up for the instance that is about
to be returned, if no rival instance may appear. -/
theorem Steady.step_running {p : Job κ σ (ρ.Result α)} (hρ : ρ ≠ .disposer)
    (hp : p.Orderly stack.Last) (h : (running p stack w).Steady n)
    (orderly : stack.Orderly (c.host b)) (hr : w.registry.Orderly (.ofList exempt))
    (tracked : stack.Tracked most w.registry)
    (alone : (running p stack w).rivals exempt n = false) :
  (step (c.host b) (running p stack w)).Aims n
  := by
  cases hp with
  | last hl =>
    cases stack with
    | creating m collects resume below =>
      obtain ⟨k, i, rfl⟩ := hl
      apply aims_hook h
    | base | producing | disposing | protecting => cases hl
  | done a => exact .steady (h.finish orderly tracked)
  | panic p => exact .steady h
  | view hn => exact .steady h
  | revise f hn => exact .steady h
  | @edit e next he hn =>
    apply Aims.steady
    apply Registry.Aims.edit h he
    rintro i rfl hm
    have hm : n ∈ stack.creations := hm
    simp [rivals, hm] at alone
  | lookup m early hn => exact .steady h.startLookup
  | create m d hn => exact .steady (h.startCreation hr tracked alone)
  | destroy m hn => exact .steady (h.congr rfl rfl (.refl _) fun _ => .inr trivial)
  | destroyAll hn =>
    apply Aims.steady
    constructor
    case target => exact h.target
    case caught =>
      intro t ht
      apply Task.catches_destroys
      left
      rw [List.mem_reverse]
      exact Registry.Hooked.mem_names ht
    case absent => exact h.absent
    case once => exact h.once
  | protect body hn => exact .steady (h.congr rfl rfl (.refl _) id)

/-- A step keeps the hook of a component set up for the right instance, if no other instance of the
component appears while it is created. -/
theorem Aims.step {m : Machine (Recipe κ) (Teardown κ) (Site κ σ) α} (h : m.Aims n)
    (orderly : m.Orderly (c.host b) (.ofList exempt)) (tracked : m.Tracked most)
    (alone : m.rivals exempt n = false) :
  (m.step (c.host b)).Aims n
  := by
  cases h with
  | due target absent once =>
    apply Aims.steady
    apply steady_finishCreation orderly.conducted.2.1 (Stack.Tracked.leave tracked).1 _
      (fun _ => absent) once
    intro t ht
    right
    use rfl
    rw [target t ht]
  | steady h =>
    cases m with
    | halted outcome w => exact .steady h
    | unwinding p stack w => exact .steady (h.unwind orderly.conducted)
    | @tearing tasks ρ resume stack w =>
      cases tasks with
      | nil =>
        apply Aims.steady
        exact h.congr rfl rfl (.refl _) fun _ => Stack.catches_of_ne orderly.conducted.1
      | cons task tasks => exact .steady (h.tear task)
    | @running ρ p stack w =>
      obtain ⟨⟨hp, ho⟩, hr⟩ := orderly
      by_cases hρ : ρ = .disposer
      · exact .steady (h.step_aloof (hp.aloof hρ) ho tracked)
      · exact h.step_running hρ (hp.orderly hρ) ho hr tracked alone

/-- The hook of a component is set up for the right instance throughout a run in which no other
instance of the component appears while it is created. -/
theorem Aims.runFor (calm : Host.Calm (c.host b)) (callbacks : b.Orderly c)
    {m : Machine (Recipe κ) (Teardown κ) (Site κ σ) α} (h : m.Aims n)
    (orderly : m.Orderly (c.host b) (.ofList exempt)) (tracked : m.Tracked most) {k : Nat}
    (alone : ∀ j < k, (runFor (c.host b) j m).rivals exempt n = false) :
  (runFor (c.host b) k m).Aims n
  := by
  induction k generalizing m with
  | zero => apply h
  | succ k ih =>
    rw [runFor_succ]
    apply ih (h.step orderly tracked (alone 0 (Nat.succ_pos k))) (orderly.step callbacks)
      (tracked.step calm orderly.keepsExemptions)
    intro j hj
    rw [← runFor_succ]
    apply alone (j + 1) (Nat.succ_lt_succ hj)

end Machine

/-- Whenever something is to be destroyed, the hook of a definition that runs for a component runs
for its finished instance, as long as no other instance of the component has appeared while it was
created.  Only exempt components can be created while they are created. -/
theorem hooks_target_finished (c : Container κ) (b : Behaviour κ σ) (calm : (c.host b).Calm)
    (callbacks : b.Orderly c) (p : Job κ σ α) (plain : p.Plain)
    (definitions : Catalog (Definition κ)) (s : σ) (n : Name) (k : Nat)
    (alone : ∀ j < k, (runFor (c.host b) j
      (start p ⟨.fresh c.settings, ⟨definitions, s⟩⟩)).rivals c.settings.exemptNames n = false)
    (d : Demand) (next : Unit → Job κ σ (ρ.Result α))
    (stack : Stack (Recipe κ) (Teardown κ) (Site κ σ) α ρ)
    (w : World (Recipe κ) (Teardown κ) (Site κ σ))
    (hk : runFor (c.host b) k (start p ⟨.fresh c.settings, ⟨definitions, s⟩⟩)
      = running (d.client next) stack w) :
  ∃ ran w', d.Leaves (c.host b) w ran w' ∧
    ∀ m key t, (n, .hook m key t) ∈ ran → w.registry.finished.get? n = some t
  := by
  have orderly : (start p ⟨.fresh c.settings, ⟨definitions, s⟩⟩).Orderly (c.host b)
      (.ofList c.settings.exemptNames) :=
    ⟨⟨⟨by rintro ⟨⟩, fun _ => plain⟩, trivial⟩, Registry.orderly_fresh _⟩
  have tracked : (start p ⟨.fresh c.settings, ⟨definitions, s⟩⟩).Tracked
      c.settings.maxCreationDepth := ⟨(Registry.atRest_fresh _).tracks, trivial⟩
  have begins : (start p ⟨.fresh c.settings, ⟨definitions, s⟩⟩).Aims n := by
    apply Aims.steady
    apply Registry.Aims.of_vacant rfl (Registry.not_hooked_of_none rfl)
    exact Nat.zero_le 1
  have h := begins.runFor calm callbacks orderly tracked alone
  rw [hk] at h
  obtain ⟨r', m, lost, ran, leaves, course⟩ :=
    d.exists_leaves calm w (callbacks.undisputed w.registry)
  use ran, ⟨d.closing r', m⟩, leaves
  intro m' key t ht
  have hooked : w.registry.Hooked n t := by
    use m', key
    have due := (course.mem_ran_iff.mp ht).2
    cases d <;> apply due
  cases d with
  | one root =>
    cases h with
    | steady h => apply h.target t hooked
  | everything =>
    cases h with
    | steady h => apply h.target t hooked

/-- No one who hears a notice of a crew panics. -/
theorem Crew.calm_host (crew : Crew κ σ) (c : Container κ) :
  (crew.host c).Calm
  := by
  intro _ _
  rfl

/-- A small container with an exempt component. -/
def Container.lenient : Container (List Name) := ⟨⟨true, 4, ["a"], false⟩, ∅⟩

/-- A component of the lenient container is asked for, and then everything is to be destroyed. -/
def Machine.lenient (crew : Crew (List Name) Nat) (definitions : List (Definition (List Name)))
    (k : Nat) :
    Machine (Recipe (List Name)) (Teardown (List Name)) (Site (List Name) (Ledger Nat))
      (Except Error (Option Ref)) :=
  runFor (crew.host .lenient) k (start (do
    discard ((Call.get "a").perform Container.lenient)
    Call.destroyAll.perform Container.lenient : Trial (List Name) (Ledger Nat) (Option Ref)).run
      (Container.lenient.opened (.ofList (definitions.map fun d => (d.name, d))) 0))

/-- An exempt component that asks for another one is created once, and its hook runs for its
finished instance. -/
theorem hooks_target_finished_lenient :
  ∃ next w ran w', Machine.lenient .asking [.asking "a" ["b"] [], .asking "b" [] []] 22
      = @running _ _ _ _ .main (.destroyAll next) .base w ∧
    Demand.everything.Leaves (Crew.asking.host .lenient) w ran w' ∧
    w.registry.disposals.get? "a" = some (.hook "a" [] ⟨0⟩) ∧
    ∀ m key t, ("a", .hook m key t) ∈ ran → w.registry.finished.get? "a" = some t
  := by
  have plain : Client.Plain (do
      discard ((Call.get "a").perform Container.lenient)
      Call.destroyAll.perform Container.lenient :
        Trial (List Name) (Ledger Nat) (Option Ref)).run := by
    apply Attempt.orderly_bind
    · apply Attempt.plain_map (Container.plain_perform _ _)
    · intro _
      apply Container.plain_perform
  have alone : ∀ j < 22, (Machine.lenient .asking [.asking "a" ["b"] [], .asking "b" [] []]
      j).rivals ["a"] "a" = false := by
    decide +kernel
  obtain ⟨ran, w', leaves, target⟩ := hooks_target_finished .lenient (Crew.asking.behaviour .lenient)
    (Crew.asking.calm_host _) (Crew.asking.orderly_behaviour _) _ plain _ _ "a" 22 alone
    .everything _ .base _ rfl
  refine ⟨_, _, ran, w', rfl, leaves, rfl, target⟩

/-- A crew whose first instance asks for its own component before it is returned. -/
def Crew.restless : Crew (List Name) Nat :=
  { Crew.asking with
    instantiate := fun _ n => .consult fun k => .revise (· + 1)
      (if k = 0 then .get n fun _ => .done (.ok ⟨0⟩) else .done (.ok ⟨k⟩)) }

/-- An exempt component that asks for itself is created twice.  The inner instance is finished, and
the hook runs for the outer one, which was dropped. -/
theorem not_hooks_target_finished :
  ∃ next w ran w', Machine.lenient .restless [.asking "a" [] []] 20
      = @running _ _ _ _ .main (.destroyAll next) .base w ∧
    Demand.everything.Leaves (Crew.restless.host .lenient) w ran w' ∧
    ("a", .hook "a" [] ⟨0⟩) ∈ ran ∧ w.registry.finished.get? "a" = some ⟨1⟩
  := by
  obtain ⟨next, w, begins⟩ : ∃ next w, Machine.lenient .restless [.asking "a" [] []] 20
      = @running _ _ _ _ .main (.destroyAll next) .base w := ⟨_, _, rfl⟩
  have registry : w.registry = (Machine.lenient .restless [.asking "a" [] []] 20).registry := by
    rw [begins]
    rfl
  have due : w.registry.disposals.get? "a" = some (.hook "a" [] ⟨0⟩) := by
    rw [registry]
    rfl
  obtain ⟨r', m, lost, ran, leaves, course⟩ := Demand.everything.exists_leaves
    (Crew.restless.calm_host _) w ((Crew.restless.orderly_behaviour _).undisputed w.registry)
  use next, w, ran, ⟨r'.clear, m⟩, begins, leaves
  constructor
  · apply course.mem_ran_iff.mpr
    refine ⟨course.subset "a" ?_, due⟩
    apply List.mem_reverse.mpr
    apply Catalog.mem_names_iff.mpr
    use .hook "a" [] ⟨0⟩
  · rw [registry]
    rfl

end Componentry
