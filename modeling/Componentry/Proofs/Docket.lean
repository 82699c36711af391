import Componentry.Proofs.Agenda

/-!
# Disposals run once

A registration puts a disposal into the registry, where a later one for the same component takes
its place.  A destruction takes it out, and runs it when the dependents of the component are
destroyed, in which time anything may be registered and destroyed.  A docket follows the
registrations beside the run: which are due, and which have been taken and are still to be run.  The
registry and the tasks that are left hold nothing else.

The main result, `disposals_run_once`, says what comes of a registration: its disposal runs at most
once, and not if another one was registered in its place, and a destruction that has returned has
run the disposal that was due when it began.
-/

namespace Componentry

open Machine

variable {φ δ μ α : Type} {host : Host φ δ μ} {m : Machine φ δ μ α} {n : Name} {d : δ}
  {j k l : Nat}

/-- The disposal that a task runs, with the name of its component. -/
def Task.disposal? : Task δ → Option (Name × δ)
  | dispose n d => some (n, d)
  | _ => none

/-- A request that is answered at once leaves the disposals alone, unless it registers one. -/
theorem Registry.disposals_edit {r : Registry φ δ} {e : Edit φ δ}
    (h : ∀ n d, e ≠ .onDestroy n d) :
  (r.edit e).1.disposals = r.disposals
  := by
  cases e with
  | onDestroy n d => exact absurd rfl (h n d)
  | bind n i =>
    obtain ⟨-, hb⟩ | hb := r.edit_bind n i
    · rw [hb]
      rfl
    · rw [hb]
  | publish n producer =>
    simp only [edit, publish]
    split <;> rfl
  | suppress | remove | setExempt | depend | contain => rfl

namespace Machine

/-- The disposal that is registered with the next step, with the name of its component. -/
def registers? : Machine φ δ μ α → Option (Name × δ)
  | running (.edit (.onDestroy n d) _) _ _ => some (n, d)
  | _ => none

/-- The disposals that were taken out of the registry and are still to be run, those of the
innermost destruction in front. -/
def taken (m : Machine φ δ μ α) : List (Name × δ) := m.tasks.filterMap Task.disposal?

/-! ### What a step does with disposals -/

/-- What the next step does with disposals. -/
inductive Manages (host : Host φ δ μ) (m : Machine φ δ μ α) : Prop
  /-- One is registered. -/
  | registers (n : Name) (d : δ) (now : m.registers? = some (n, d))
      (disposals : (m.step host).registry.disposals = m.registry.disposals.insert n d)
      (taken : (m.step host).taken = m.taken)
  /-- The one that is due for a component is taken out, if there is one. -/
  | takes (n : Name) (now : m.task? = some (.destroy n))
      (disposals : (m.step host).registry.disposals = m.registry.disposals.erase n)
      (taken : (m.step host).taken = ((m.registry.disposals.get? n).map (n, ·)).toList ++ m.taken)
  /-- One begins to run. -/
  | runs (n : Name) (d : δ) (now : m.task? = some (.dispose n d))
      (disposals : (m.step host).registry.disposals = m.registry.disposals)
      (taken : m.taken = (n, d) :: (m.step host).taken)
  /-- None is affected. -/
  | leaves (registers : m.registers? = none) (destroys : ∀ n, m.task? ≠ some (.destroy n))
      (disposes : ∀ n d, m.task? ≠ some (.dispose n d))
      (disposals : (m.step host).registry.disposals = m.registry.disposals)
      (taken : (m.step host).taken = m.taken)

/-- No registration is made while a task is worked off. -/
theorem registers_of_task {t : Task δ} (h : m.task? = some t) :
  m.registers? = none
  := by
  obtain ⟨ρ, tasks, resume, stack, w, rfl⟩ := of_task h
  rfl

/-- To destroy components is no task that runs a disposal by itself. -/
theorem disposal_destroys (names : List Name) :
  (names.map (Task.destroy (δ := δ))).filterMap Task.disposal? = []
  := by
  rw [List.filterMap_map, List.filterMap_eq_nil_iff]
  intro n _
  rfl

/-- The tasks of a destruction have the disposal that was due, and no other one. -/
theorem disposal_destructionTasks (n : Name) (dependents : List Name) (disposal? : Option δ) :
  (destructionTasks n dependents disposal?).filterMap Task.disposal?
    = (disposal?.map (n, ·)).toList
  := by
  rw [destructionTasks, List.filterMap_append, List.filterMap_append, disposal_destroys]
  cases disposal? <;> rfl

/-- The disposals that are to be run change only with those that the tasks of a step have. -/
theorem taken_step (calm : host.Calm) (m : Machine φ δ μ α) :
  ∃ waiting, m.taken = m.task?.toList.filterMap Task.disposal? ++ waiting ∧
    (m.step host).taken = m.issued.filterMap Task.disposal? ++ waiting
  := by
  obtain ⟨waiting, before, after⟩ := tasks_step calm m
  use waiting.filterMap Task.disposal?
  rw [taken, taken, before, after, List.filterMap_append, List.filterMap_append]
  exact ⟨rfl, rfl⟩

/-- Only where the destruction of a component begins, a disposal is among the tasks issued. -/
theorem disposal_issued (h : ∀ n, m.task? ≠ some (.destroy n)) :
  m.issued.filterMap Task.disposal? = []
  := by
  unfold issued
  split
  case h_1 => rfl
  case h_2 =>
    rw [List.filterMap_append, disposal_destroys]
    rfl
  case h_3 => exact absurd rfl (h _)
  case h_4 => apply disposal_destroys
  case h_5 => rfl

/-- Where no disposal begins to run and no destruction begins, those to be run stay the same. -/
theorem taken_of_idle (calm : host.Calm) (destroys : ∀ n, m.task? ≠ some (.destroy n))
    (disposes : ∀ n d, m.task? ≠ some (.dispose n d)) :
  (m.step host).taken = m.taken
  := by
  obtain ⟨waiting, before, after⟩ := taken_step calm m
  rw [before, after, disposal_issued destroys]
  congr 1
  symm
  rw [List.filterMap_eq_nil_iff]
  intro t due
  cases t with
  | dispose n d => exact absurd (Option.mem_toList.mp due) (disposes n d)
  | destroy | contents | forget | clear => rfl

/-- A disposal is registered at the request of a program. -/
theorem of_registers (h : m.registers? = some (n, d)) :
  ∃ (ρ : Role) (next : Unit → Client φ δ μ (ρ.Result α)) (stack : Stack φ δ μ α ρ)
    (w : World φ δ μ), m = running (.edit (.onDestroy n d) next) stack w
  := by
  unfold registers? at h
  split at h
  · cases h
    exact ⟨_, _, _, _, rfl⟩
  · cases h

/-- A step registers a disposal, takes one out of the registry, runs one, or affects none. -/
theorem manages_step (calm : host.Calm) (m : Machine φ δ μ α) :
  m.Manages host
  := by
  cases made : m.registers? with
  | some registration =>
    obtain ⟨n, d⟩ := registration
    apply Manages.registers n d made
    · obtain ⟨ρ, next, stack, w, rfl⟩ := of_registers made
      rfl
    · obtain ⟨ρ, next, stack, w, rfl⟩ := of_registers made
      rfl
  | none =>
    -- a step that neither registers a disposal nor works on one has to leave them alone only
    have idle (destroys : ∀ n, m.task? ≠ some (.destroy n))
        (disposes : ∀ n d, m.task? ≠ some (.dispose n d))
        (disposals : (m.step host).registry.disposals = m.registry.disposals) : m.Manages host :=
      .leaves made destroys disposes disposals (taken_of_idle calm destroys disposes)
    have taken := taken_step calm m
    have alters := alters_step host m
    generalize hr : (m.step host).registry = r at alters
    cases alters with
    | keeps _ ending task =>
      cases due : m.task? with
      | none =>
        apply idle
        · simp [due]
        · simp [due]
        · rw [hr]
      | some t =>
        obtain ⟨n, d, rfl⟩ := task t due
        obtain ⟨waiting, before, after⟩ := taken
        rw [disposal_issued (by simp [due])] at after
        rw [due] at before
        apply Manages.runs n d due
        · rw [hr]
        · rw [before, after]
          rfl
    | edits e next stack w =>
      apply idle nofun nofun
      rw [hr]
      apply Registry.disposals_edit
      rintro n d rfl
      cases made
    | takes next stack w pending =>
      obtain ⟨-, -, rfl⟩ := Registry.of_sight_pending pending
      apply idle nofun nofun
      rw [hr]
      rfl
    | restores n producer e resume below w =>
      obtain ⟨producers, same⟩ := w.registry.restore_eq n producer
      apply idle nofun nofun
      rw [hr, same]
      rfl
    | admits factory next stack w admitted =>
      obtain ⟨-, -, guard, suppressed, -, -, -, rfl⟩ := Registry.of_admitted admitted
      apply idle nofun nofun
      rw [hr]
      rfl
    | memoizes | leaves | installs | drops | abandons | marks | releases | forgets | clears =>
      apply idle nofun nofun
      rw [hr]
      rfl
    | withdraws n tasks resume stack w =>
      obtain ⟨waiting, before, after⟩ := taken
      apply Manages.takes n rfl
      · rw [hr]
        rfl
      · rw [before, after]
        apply congrArg (· ++ waiting) (disposal_destructionTasks n _ _)

end Machine

/-! ### The docket -/

/-- Registrations of disposals, each known by the number of the step that makes it. -/
structure Docket where
  /-- Those that are due, under the names of their components. -/
  pending : Catalog Nat
  /-- Those that were taken for a destruction and are still to be run, the innermost in front. -/
  taken : List Nat

namespace Docket

/-- The docket without registrations. -/
def empty : Docket := ⟨∅, []⟩

/-- The docket after step `k`, which starts from the machine `m`. -/
def post (b : Docket) (k : Nat) (m : Machine φ δ μ α) : Docket :=
  match m.registers? with
  | some (n, _) => { b with pending := b.pending.insert n k }
  | none =>
    match m.task? with
    | some (.destroy n) => ⟨b.pending.erase n, (b.pending.get? n).toList ++ b.taken⟩
    | some (.dispose _ _) => { b with taken := b.taken.tail }
    | _ => b

/-- The registration whose disposal begins to run with the next step. -/
def runs? (b : Docket) (m : Machine φ δ μ α) : Option Nat :=
  match m.task? with
  | some (.dispose _ _) => b.taken.head?
  | _ => none

/-- The registration `j` is on the docket. -/
def Lists (b : Docket) (j : Nat) : Prop := (∃ n, b.pending.get? n = some j) ∨ j ∈ b.taken

variable {b : Docket}

/-- A registration takes the place of the one that was due for its component. -/
theorem post_of_registers (h : m.registers? = some (n, d)) :
  b.post k m = { b with pending := b.pending.insert n k }
  := by
  simp only [post, h]

/-- Where the destruction of a component begins, the registration that is due for it is taken. -/
theorem post_of_destroy (h : m.task? = some (.destroy n)) :
  b.post k m = ⟨b.pending.erase n, (b.pending.get? n).toList ++ b.taken⟩
  := by
  simp only [post, registers_of_task h, h]

/-- Where a disposal begins to run, the registration that was taken last is done with. -/
theorem post_of_dispose (h : m.task? = some (.dispose n d)) :
  b.post k m = { b with taken := b.taken.tail }
  := by
  simp only [post, registers_of_task h, h]

/-- Where no disposal is registered, taken or run, the docket stays as it is. -/
theorem post_of_idle (registers : m.registers? = none)
    (destroys : ∀ n, m.task? ≠ some (.destroy n))
    (disposes : ∀ n d, m.task? ≠ some (.dispose n d)) :
  b.post k m = b
  := by
  unfold post
  rw [registers]
  dsimp only
  split
  · rename_i n now
    exact absurd now (destroys n)
  · rename_i n d now
    exact absurd now (disposes n d)
  · rfl

/-- A registration is run by a task, and is the one that was taken last. -/
theorem of_runs (h : b.runs? m = some j) :
  (∃ n d, m.task? = some (.dispose n d)) ∧ ∃ rest, b.taken = j :: rest
  := by
  unfold runs? at h
  split at h
  · rename_i n d now
    exact ⟨⟨n, d, now⟩, List.head?_eq_some_iff.mp h⟩
  · cases h

/-- The registrations that are taken are a stack, too. -/
theorem taken_post (b : Docket) (k : Nat) (m : Machine φ δ μ α) :
  ∃ pushed waiting, b.taken = (b.runs? m).toList ++ waiting ∧
    (b.post k m).taken = pushed ++ waiting
  := by
  cases made : m.registers? with
  | some registration =>
    obtain ⟨n, d⟩ := registration
    rw [post_of_registers made]
    obtain ⟨ρ, next, stack, w, rfl⟩ := of_registers made
    exact ⟨[], b.taken, rfl, rfl⟩
  | none =>
    simp only [post, runs?, made]
    cases m.task? with
    | none => exact ⟨[], b.taken, rfl, rfl⟩
    | some t =>
      cases t with
      | destroy n => exact ⟨_, b.taken, rfl, rfl⟩
      | dispose n d =>
        refine ⟨[], b.taken.tail, ?_, rfl⟩
        cases b.taken <;> rfl
      | contents | forget | clear => exact ⟨[], b.taken, rfl, rfl⟩

/-- No registration is new but the one that the step makes. -/
theorem lists_post (h : (b.post k m).Lists j) :
  b.Lists j ∨ j = k
  := by
  unfold post at h
  split at h
  · obtain ⟨n, due⟩ | taken := h
    · obtain ⟨-, rfl⟩ | due := Catalog.of_get?_insert due
      · exact .inr rfl
      · exact .inl (.inl ⟨n, due⟩)
    · exact .inl (.inr taken)
  · left
    split at h
    · rename_i n _
      obtain ⟨n', due⟩ | taken := h
      · exact .inl ⟨n', Catalog.of_get?_erase due⟩
      · obtain due | taken := List.mem_append.mp taken
        · exact .inl ⟨n, Option.mem_toList.mp due⟩
        · exact .inr taken
    · apply h.imp_right List.mem_of_mem_tail
    · exact h

/-! ### What the docket is about -/

/-- The docket has the registrations, and no others, whose disposals are due and are to be run; the
registration of step `j` is `source j`. -/
structure Accounts (b : Docket) (source : Nat → Option (Name × δ)) (k : Nat)
    (m : Machine φ δ μ α) : Prop where
  /-- What is due was registered. -/
  pending : ∀ n, (b.pending.get? n).map source
    = (m.registry.disposals.get? n).map fun d => some (n, d)
  /-- What is to be run was registered. -/
  taken : b.taken.map source = m.taken.map some
  /-- It was so before. -/
  earlier : ∀ j, b.Lists j → j < k
  /-- Nothing is to be run twice. -/
  nodup : b.taken.Nodup
  /-- What is to be run is no longer due. -/
  apart : ∀ n j, b.pending.get? n = some j → j ∉ b.taken

variable {source : Nat → Option (Name × δ)}

namespace Accounts

/-- What is due is so for one component. -/
theorem source_pending (h : b.Accounts source k m) (due : b.pending.get? n = some j) :
  ∃ d, m.registry.disposals.get? n = some d ∧ source j = some (n, d)
  := by
  have same := h.pending n
  rw [due, Option.map_some] at same
  obtain ⟨d, hd, hs⟩ := Option.map_eq_some_iff.mp same.symm
  exact ⟨d, hd, hs.symm⟩

/-- A registration is due for one component only. -/
theorem pending_unique (h : b.Accounts source k m) {n' : Name} (due : b.pending.get? n = some j)
    (due' : b.pending.get? n' = some j) :
  n = n'
  := by
  obtain ⟨d, -, hd⟩ := h.source_pending due
  obtain ⟨d', -, hd'⟩ := h.source_pending due'
  cases hd.symm.trans hd'
  rfl

/-- The disposal that begins to run was registered. -/
theorem exists_runs (h : b.Accounts source k m) (now : m.task? = some (.dispose n d)) :
  ∃ j, j < k ∧ b.runs? m = some j ∧ source j = some (n, d)
  := by
  obtain ⟨ρ, tasks, resume, stack, w, rfl⟩ := of_task now
  obtain ⟨j, rest, split, hj, -⟩ := List.map_eq_cons_iff.mp h.taken
  refine ⟨j, ?_, ?_, hj⟩
  · apply h.earlier j
    right
    rw [split]
    apply List.mem_cons_self
  · rw [runs?, now, split]
    rfl

/-- A registration whose disposal begins to run leaves the docket. -/
theorem not_lists_of_runs (h : b.Accounts source k m) (now : b.runs? m = some j) :
  ¬ (b.post k m).Lists j
  := by
  obtain ⟨⟨n, d, due⟩, rest, split⟩ := of_runs now
  have on : j ∈ b.taken := by
    rw [split]
    apply List.mem_cons_self
  have once := h.nodup
  rw [split, List.nodup_cons] at once
  rw [post_of_dispose due, split]
  rintro (⟨n', pending⟩ | taken)
  · exact h.apart n' j pending on
  · exact once.1 taken

/-- A registration that is replaced leaves the docket. -/
theorem not_lists_of_registers (h : b.Accounts source k m) (now : m.registers? = some (n, d))
    (due : b.pending.get? n = some j) :
  ¬ (b.post k m).Lists j
  := by
  rw [post_of_registers now]
  rintro (⟨n', pending⟩ | taken)
  · rw [Catalog.get?_insert] at pending
    split at pending
    · obtain rfl := Option.some.inj pending
      exact Nat.lt_irrefl k (h.earlier k (.inl ⟨n, due⟩))
    · rename_i other
      exact other (h.pending_unique pending due)
  · exact h.apart n j due taken

/-- The docket is kept by every step. -/
theorem step (calm : host.Calm) (h : b.Accounts source k m) (own : source k = m.registers?) :
  (b.post k m).Accounts source (k + 1) (m.step host)
  := by
  have earlier : ∀ j, (b.post k m).Lists j → j < k + 1 := by
    intro j hj
    obtain hj | rfl := lists_post hj
    · exact Nat.lt_succ_of_lt (h.earlier j hj)
    · exact Nat.lt_succ_self j
  cases manages_step calm m with
  | registers n d now disposals taken =>
    rw [post_of_registers now] at earlier ⊢
    refine { earlier, nodup := h.nodup, pending := ?_, taken := ?_, apart := ?_ }
    · intro n'
      rw [disposals, Catalog.get?_insert, Catalog.get?_insert]
      split
      · rename_i same
        rw [Option.map_some, Option.map_some, own, now, same]
      · apply h.pending
    · rw [taken]
      exact h.taken
    -- the registration is new, and none of those that were taken before
    · intro n' j due on
      obtain ⟨-, rfl⟩ | due := Catalog.of_get?_insert due
      · exact Nat.lt_irrefl k (h.earlier k (.inr on))
      · exact h.apart n' j due on
  | takes n now disposals taken =>
    rw [post_of_destroy now] at earlier ⊢
    refine { earlier, pending := ?_, taken := ?_, nodup := ?_, apart := ?_ }
    · intro n'
      rw [disposals, Catalog.get?_erase, Catalog.get?_erase]
      split
      · rfl
      · apply h.pending
    · rw [taken, List.map_append, List.map_append, h.taken]
      congr 1
      rw [← Option.toList_map, ← Option.toList_map, h.pending, Option.map_map]
      rfl
    -- what was pending is not among the disposals that were taken before
    · rw [List.nodup_append]
      refine ⟨Option.toList_nodup _, h.nodup, ?_⟩
      rintro j due j' on rfl
      exact h.apart n j (Option.mem_toList.mp due) on
    · intro n' j due on
      rw [Catalog.get?_erase] at due
      split at due
      · cases due
      · rename_i other
        obtain same | on := List.mem_append.mp on
        · exact other (h.pending_unique due (Option.mem_toList.mp same))
        · exact h.apart n' j due on
  | runs n d now disposals taken =>
    rw [post_of_dispose now] at earlier ⊢
    refine { earlier, pending := ?_, taken := ?_, nodup := ?_, apart := ?_ }
    · rw [disposals]
      exact h.pending
    · rw [List.map_tail, h.taken, taken]
      rfl
    · exact h.nodup.sublist (List.tail_sublist _)
    · intro n' j due on
      exact h.apart n' j due (List.mem_of_mem_tail on)
  | leaves registers destroys disposes disposals taken =>
    rw [post_of_idle registers destroys disposes] at earlier ⊢
    refine { h with earlier, pending := ?_, taken := ?_ }
    · rw [disposals]
      exact h.pending
    · rw [taken]
      exact h.taken

end Accounts

end Docket

/-! ### Runs -/

namespace Machine

/-- The docket at a moment of a run. -/
def docket (host : Host φ δ μ) (m : Machine φ δ μ α) : Nat → Docket
  | 0 => .empty
  | k + 1 => (docket host m k).post k (runFor host k m)

/-- With step `k` the disposal begins to run that was registered with step `j`. -/
def Fulfils (host : Host φ δ μ) (m : Machine φ δ μ α) (j k : Nat) : Prop :=
  (docket host m k).runs? (runFor host k m) = some j

/-- With step `l` a disposal is registered in place of the one that was registered with step `j`. -/
def Replaces (host : Host φ δ μ) (m : Machine φ δ μ α) (j l : Nat) : Prop :=
  ∃ n d, (runFor host l m).registers? = some (n, d) ∧ (docket host m l).pending.get? n = some j

/-- What becomes of the registrations of a run. -/
structure RunsOnce (host : Host φ δ μ) (m : Machine φ δ μ α) : Prop where
  /-- A disposal is due exactly if it was registered and is still on the docket. -/
  due : ∀ k n d, (runFor host k m).registry.disposals.get? n = some d ↔
    ∃ j, (docket host m k).pending.get? n = some j ∧ (runFor host j m).registers? = some (n, d)
  /-- Where a disposal runs, a registration of it is fulfilled that was made before. -/
  runs : ∀ k n d, (runFor host k m).task? = some (.dispose n d) →
    ∃ j, j < k ∧ Fulfils host m j k ∧ (runFor host j m).registers? = some (n, d)
  /-- No registration is fulfilled twice. -/
  once : ∀ j k k', Fulfils host m j k → Fulfils host m j k' → k = k'
  /-- A registration that is replaced is never fulfilled. -/
  replaced : ∀ j l k, Replaces host m j l → ¬ Fulfils host m j k
  /-- When the destruction of a component has returned, the registration that was due for it when it
  began has been fulfilled, once. -/
  returned : ∀ i j n g, Returned host m n i j → (docket host m i).pending.get? n = some g →
    ∃ k, i < k ∧ k < j ∧ ∀ k', Fulfils host m g k' ↔ k' = k

/-- The docket accounts for the registrations at every moment of a run. -/
def Docketed (host : Host φ δ μ) (m : Machine φ δ μ α) : Prop :=
  ∀ k, (docket host m k).Accounts (fun j => (runFor host j m).registers?) k (runFor host k m)

/-- A run in which no disposal is due at first is accounted for by the docket. -/
theorem docketed_start (calm : host.Calm) (c : Client φ δ μ α) {w : World φ δ μ}
    (unset : w.registry.disposals = ∅) :
  Docketed host (start c w)
  := by
  intro k
  induction k with
  | zero =>
    refine ⟨?_, rfl, ?_, List.nodup_nil, nofun⟩
    · intro n
      change none = (w.registry.disposals.get? n).map _
      rw [unset]
      rfl
    · rintro j (⟨n, ⟨⟩⟩ | on)
      cases on
  | succ k ih =>
    rw [runFor_step]
    apply ih.step calm rfl

/-- A registration that is no longer on the docket does not come back. -/
theorem not_lists_later (h : ¬ (docket host m k).Lists j) (made : j < k) (later : k ≤ l) :
  ¬ (docket host m l).Lists j
  := by
  induction later with
  | refl => exact h
  | @step l later ih =>
    intro on
    obtain on | rfl := Docket.lists_post on
    · exact ih on
    · exact Nat.not_lt_of_le later made

/-- A registration is on the docket when its disposal begins to run. -/
theorem Fulfils.lists (h : Fulfils host m j k) :
  (docket host m k).Lists j
  := by
  obtain ⟨-, rest, split⟩ := Docket.of_runs h
  right
  rw [split]
  apply List.mem_cons_self

/-- A registration is on the docket when another one takes its place. -/
theorem Replaces.lists (h : Replaces host m j k) :
  (docket host m k).Lists j
  := by
  obtain ⟨n, d, -, due⟩ := h
  exact .inl ⟨n, due⟩

/-- A registration is off the docket once its disposal has begun to run. -/
theorem Fulfils.not_lists (h : Fulfils host m j k) (docketed : Docketed host m) (later : k < l) :
  ¬ (docket host m l).Lists j
  := by
  have gone : ¬ (docket host m (k + 1)).Lists j := (docketed k).not_lists_of_runs h
  have made := (docketed k).earlier j h.lists
  apply not_lists_later gone (Nat.lt_succ_of_lt made) later

/-- A registration is off the docket once another one has taken its place. -/
theorem Replaces.not_lists (h : Replaces host m j k) (docketed : Docketed host m)
    (later : k < l) :
  ¬ (docket host m l).Lists j
  := by
  have made := (docketed k).earlier j h.lists
  obtain ⟨n, d, now, due⟩ := h
  have gone : ¬ (docket host m (k + 1)).Lists j := (docketed k).not_lists_of_registers now due
  apply not_lists_later gone (Nat.lt_succ_of_lt made) later

/-- No registration is fulfilled twice. -/
theorem Fulfils.unique {k' : Nat} (h : Fulfils host m j k) (h' : Fulfils host m j k')
    (docketed : Docketed host m) :
  k = k'
  := by
  obtain before | same | after := Nat.lt_trichotomy k k'
  · exact absurd h'.lists (h.not_lists docketed before)
  · exact same
  · exact absurd h.lists (h'.not_lists docketed after)

/-- A registration that is replaced is never fulfilled. -/
theorem Replaces.not_fulfils (h : Replaces host m j l) (docketed : Docketed host m) (k : Nat) :
  ¬ Fulfils host m j k
  := by
  intro runs
  obtain before | rfl | after := Nat.lt_trichotomy k l
  · exact runs.not_lists docketed before h.lists
  · obtain ⟨n, d, now, -⟩ := h
    obtain ⟨⟨n', d', disposes⟩, -⟩ := Docket.of_runs runs
    cases now.symm.trans (registers_of_task disposes)
  · exact h.not_lists docketed after runs.lists

/-- The registrations that are taken are a stack. -/
theorem stacked_taken (host : Host φ δ μ) (m : Machine φ δ μ α) :
  Stacked (fun k => (docket host m k).taken)
    (fun k => (docket host m k).runs? (runFor host k m))
  := fun k => (docket host m k).taken_post k (runFor host k m)

/-- There are as many registrations that are taken as there are disposals to be run. -/
theorem Docketed.length_taken (h : Docketed host m) (k : Nat) :
  (docket host m k).taken.length = (runFor host k m).taken.length
  := by
  have same := congrArg List.length (h k).taken
  rwa [List.length_map, List.length_map] at same

/-- A destruction that has returned has fulfilled the registration that was due when it began. -/
theorem Docketed.exists_fulfils (h : Docketed host m) {i g : Nat} (returned : Returned host m n i j)
    (due : (docket host m i).pending.get? n = some g) :
  ∃ k, i < k ∧ k < j ∧ Fulfils host m g k
  := by
  have on : g :: (docket host m i).taken <:+ (docket host m (i + 1)).taken := by
    rw [docket, Docket.post_of_destroy returned.began, due]
    apply List.suffix_rfl
  have low : (docket host m j).taken.length ≤ (docket host m i).taken.length := by
    rw [h.length_taken, h.length_taken, taken, taken, returned.under]
    apply Nat.le_refl
  obtain ⟨k, after, before, runs, -⟩ := (stacked_taken host m).exists_taken on returned.later low
  exact ⟨k, after, before, runs⟩

end Machine

/-- A registration is fulfilled at most once, and never after it was replaced; and a destruction
that has returned has fulfilled the registration that was due when it began: whatever disposals do,
fail or panic with, as long as no one who hears a notice panics. -/
theorem disposals_run_once (calm : host.Calm) (c : Client φ δ μ α) (w : World φ δ μ)
    (unset : w.registry.disposals = ∅) :
  RunsOnce host (start c w)
  := by
  have docketed := docketed_start calm c unset
  constructor
  case due =>
    intro k n d
    constructor
    · intro due
      have same := (docketed k).pending n
      rw [due, Option.map_some] at same
      apply Option.map_eq_some_iff.mp same
    · rintro ⟨j, due, made⟩
      obtain ⟨d', due', made'⟩ := (docketed k).source_pending due
      cases made.symm.trans made'
      exact due'
  case runs =>
    intro k n d now
    apply (docketed k).exists_runs now
  case once =>
    intro j k k' h h'
    apply h.unique h' docketed
  case replaced =>
    intro j l k h
    apply h.not_fulfils docketed k
  case returned =>
    intro i j n g returned due
    obtain ⟨k, after, before, h⟩ := docketed.exists_fulfils returned due
    refine ⟨k, after, before, fun k' => ⟨fun h' => h'.unique h docketed, ?_⟩⟩
    rintro rfl
    exact h

/-- A host with one disposal that registers the other one for its own component, destroys that
component, and panics. -/
def Host.returning : Host Unit Bool Unit where
  make _ := .panic .other
  dispose
    | true => .edit (.onDestroy "a" false) fun _ => .destroy "a" fun _ => .panic .other
    | false => .done (.ok ())
  hear _ m := (none, m)

/-- The run that registers both disposals for `a`, the second one in place of the first, and
destroys `a`. -/
def Machine.returning : Machine Unit Bool Unit Unit :=
  start (.edit (.onDestroy "a" false) fun _ => .edit (.onDestroy "a" true) fun _ =>
    .destroy "a" .done) ⟨.fresh ⟨true, 1, [], false⟩, ()⟩

/-- The first registration is replaced; the second one is fulfilled by the destruction, and the one
that its disposal makes by the destruction within. -/
theorem disposals_run_once_returning :
  Machine.Replaces .returning .returning 0 1 ∧ Machine.Fulfils .returning .returning 1 4 ∧
    Machine.Fulfils .returning .returning 5 8 ∧ Machine.RunsOnce .returning .returning
  := by
  have calm : Host.returning.Calm := fun _ _ => rfl
  have once : Machine.RunsOnce .returning .returning := disposals_run_once calm _ _ rfl
  exact ⟨⟨"a", true, rfl, rfl⟩, rfl, rfl, once⟩

end Componentry
