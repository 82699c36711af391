import Componentry.Proofs.Tiers

/-!
# Lookups under way

A lookup may have an early reference made, and then its producer runs while it waits.  Producers may
look names up in turn, so that several lookups may be under way, also for one component.  They are
known by the step of the run with which they began.  The inner ones began later, and the innermost
one is the first to end: it keeps what its producer has made, or puts the producer back.
-/

namespace Componentry

open Machine

variable {φ δ μ α : Type} {host : Host φ δ μ} {n : Name} {p : φ} {i : Ref}

/-! ### Early references in the making -/

/-- A lookup that has an early reference made. -/
structure Inquiry (φ : Type) where
  /-- The name of the component. -/
  name : Name
  /-- The producer that was taken. -/
  producer : φ
  /-- The step of the run with which the lookup began. -/
  began : Nat

/-- The early references that are being made, with their producers, the outermost in front. -/
def Stack.makings : {ρ : Role} → Stack φ δ μ α ρ → List (Name × φ)
  | _, base => []
  | _, creating _ _ _ below => below.makings
  | _, producing n p _ below => below.makings ++ [(n, p)]
  | _, disposing _ _ _ below => below.makings
  | _, protecting _ below => below.makings

namespace Machine

variable {m : Machine φ δ μ α} {ρ : Role} {stack : Stack φ δ μ α ρ} {w : World φ δ μ} {k : Nat}

/-- The early references that are being made at a moment of a run. -/
def makings : Machine φ δ μ α → List (Name × φ)
  | running _ stack _ => stack.makings
  | tearing _ _ stack _ => stack.makings
  | unwinding _ stack _ => stack.makings
  | halted _ _ => []

/-- The lookups that have an early reference made after `k` steps of a run, the outermost in
front. -/
def inquiries (host : Host φ δ μ) (m : Machine φ δ μ α) : Nat → List (Inquiry φ)
  | 0 => []
  | k + 1 =>
    let new := (runFor host k m).sought?.map fun x => Inquiry.mk x.1 x.2 k
    (inquiries host m k ++ new.toList).take (runFor host (k + 1) m).makings.length

/-- What is made is kept, in the place of anything else. -/
theorem Materializes.early (h : m.Materializes n p i) (host : Host φ δ μ) :
  (m.step host).registry.early.get? n = some i
  := by
  obtain ⟨ρ, resume, below, w, rfl⟩ := h.eq
  apply Catalog.get?_insert_self

/-- An early reference that is materialized is the innermost of those that are being made. -/
theorem Materializes.makings (h : m.Materializes n p i) (host : Host φ δ μ) :
  m.makings = (m.step host).makings ++ [(n, p)]
  := by
  obtain ⟨ρ, resume, below, w, rfl⟩ := h.eq
  rfl

/-- An early reference that fails is the innermost of those that are being made. -/
theorem Fails.makings (h : m.Fails n p) (host : Host φ δ μ) :
  m.makings = (m.step host).makings ++ [(n, p)]
  := by
  obtain ⟨e, ρ, resume, below, w, rfl⟩ := h.eq
  rfl

/-- When an early reference fails, its producer is put back, unless another one has taken its place.
-/
theorem Fails.producers (h : m.Fails n p) (host : Host φ δ μ) :
  (m.step host).registry.producers.get? n = m.registry.producers.get? n ∨
    m.registry.producers.get? n = none ∧ (m.step host).registry.producers.get? n = some p
  := by
  obtain ⟨e, ρ, resume, below, w, rfl⟩ := h.eq
  change (w.registry.restore n p).producers.get? n = w.registry.producers.get? n ∨
    w.registry.producers.get? n = none ∧ (w.registry.restore n p).producers.get? n = some p
  obtain same | ⟨room, same⟩ := w.registry.restore_cases n p
  · rw [same]
    exact .inl rfl
  · rw [same]
    exact .inr ⟨room, Catalog.get?_insert_self _ _ _⟩

/-- When an early reference fails, what the registry has early of the component stays. -/
theorem Fails.early (h : m.Fails n p) (host : Host φ δ μ) :
  (m.step host).registry.early.get? n = m.registry.early.get? n
  := by
  obtain ⟨e, ρ, resume, below, w, rfl⟩ := h.eq
  change (w.registry.restore n p).early.get? n = w.registry.early.get? n
  obtain ⟨producers, same⟩ := w.registry.restore_eq n p
  rw [same]

theorem Fails.not_materializes (h : m.Fails n p) {n' : Name} (q : φ) (i : Ref) :
  ¬ m.Materializes n' q i
  := by
  intro makes
  obtain ⟨e, ρ, resume, below, w, rfl⟩ := h.eq
  cases makes.2.2

theorem not_materializes_of_sought (h : m.sought? = some (n, p)) {n' : Name} (q : φ) (i : Ref) :
  ¬ m.Materializes n' q i
  := by
  intro makes
  obtain ⟨ρ, resume, below, w, rfl⟩ := makes.eq
  cases h

/-- A notice leaves the early references that are being made, if what goes on after it does. -/
theorem makings_announcing {notice : Notice} {next : World φ δ μ → Machine φ δ μ α}
    (goes : ∀ memory, (next { w with memory }).makings = stack.makings) :
  (announcing host notice stack w next).makings = stack.makings
  := by
  apply announcing_of (P := fun m => m.makings = stack.makings)
  · intro _
    apply goes
  · intro _ _
    rfl

/-- With a step the innermost early reference comes or goes, or the same ones are being made. -/
theorem makings_step (host : Host φ δ μ) (m : Machine φ δ μ α) :
  (m.step host).makings <+: m.makings ++ m.sought?.toList
  := by
  have same {m' : Machine φ δ μ α} (h : m'.makings = m.makings) :
      m'.makings <+: m.makings ++ m.sought?.toList := by
    rw [h]
    apply List.prefix_append
  cases m with
  | halted outcome w => exact same rfl
  | unwinding e stack w =>
    cases stack with
    | base | creating | protecting => exact same rfl
    | producing n p resume below =>
      apply List.IsPrefix.trans _ (List.prefix_append _ _)
      apply List.prefix_append
    | disposing n tasks resume below => exact same (makings_announcing fun _ => rfl)
  | tearing tasks resume stack w =>
    cases tasks with
    | nil => exact same rfl
    | cons task tasks => cases task <;> exact same rfl
  | running c stack w =>
    cases c with
    | done a =>
      cases stack with
      | base | protecting => exact same rfl
      | creating n collects resume below =>
        obtain ⟨w', -, next | ⟨-, e, next⟩⟩ :=
          finishCreation_cases host n collects a resume below w <;>
        · apply same
          rw [step, finish, next]
          rfl
      | producing n p resume below =>
        apply List.IsPrefix.trans _ (List.prefix_append _ _)
        cases a <;> apply List.prefix_append
      | disposing n tasks resume below =>
        rcases a with text | u <;> exact same (makings_announcing fun _ => rfl)
    -- only a lookup that finds a producer has an early reference made
    | lookup n early next =>
      simp only [step, startLookup, sought?]
      cases w.registry.sight n early with
      | settled i => apply List.prefix_append
      | pending p r => exact List.prefix_rfl
    | create n factory next =>
      apply same
      rw [step, startCreation]
      split
      · rfl
      · rfl
      · exact makings_announcing fun _ => rfl
    | panic | view | revise | edit | destroy | destroyAll | protect => exact same rfl

/-! ### Lookups under way -/

/-- There is a lookup for each early reference that is being made. -/
theorem map_inquiries (host : Host φ δ μ) (rest : m.makings = []) (k : Nat) :
  (inquiries host m k).map (fun x => (x.name, x.producer)) = (runFor host k m).makings
  := by
  induction k with
  | zero => exact rest.symm
  | succ k ih =>
    have new : ((runFor host k m).sought?.map fun x => Inquiry.mk x.1 x.2 k).toList.map
        (fun x => (x.name, x.producer)) = (runFor host k m).sought?.toList := by
      cases (runFor host k m).sought? <;> rfl
    rw [inquiries, List.map_take, List.map_append, ih, new, runFor_step]
    exact (List.prefix_iff_eq_take.mp (makings_step host _)).symm

/-- A lookup that is under way was so before, or it has just begun. -/
theorem of_mem_inquiries {x : Inquiry φ} (h : x ∈ inquiries host m (k + 1)) :
  x ∈ inquiries host m k ∨ (runFor host k m).sought? = some (x.name, x.producer) ∧ x.began = k
  := by
  obtain old | new := List.mem_append.mp (List.mem_of_mem_take h)
  · exact .inl old
  · obtain ⟨⟨n, p⟩, sought, rfl⟩ := Option.map_eq_some_iff.mp (Option.mem_toList.mp new)
    exact .inr ⟨sought, rfl⟩

/-- A lookup that is under way began before. -/
theorem began_lt {x : Inquiry φ} (h : x ∈ inquiries host m k) :
  x.began < k
  := by
  induction k with
  | zero => cases h
  | succ k ih =>
    obtain old | ⟨-, now⟩ := of_mem_inquiries h
    · exact Nat.lt_succ_of_lt (ih old)
    · omega

/-- The inner lookups have begun after the outer ones. -/
theorem pairwise_began (host : Host φ δ μ) (m : Machine φ δ μ α) (k : Nat) :
  (inquiries host m k).Pairwise fun x y => x.began < y.began
  := by
  induction k with
  | zero => exact .nil
  | succ k ih =>
    apply List.Pairwise.sublist (List.take_sublist _ _)
    rw [List.pairwise_append]
    refine ⟨ih, ?_, ?_⟩
    · cases (runFor host k m).sought? with
      | none => exact .nil
      | some sought => apply List.pairwise_singleton
    · intro x hx y hy
      obtain ⟨_, -, rfl⟩ := Option.map_eq_some_iff.mp (Option.mem_toList.mp hy)
      exact began_lt hx

/-- A lookup that ends is the innermost one. -/
theorem inquiries_of_ends (rest : m.makings = [])
    (ends : (runFor host k m).makings = ((runFor host k m).step host).makings ++ [(n, p)]) :
  ∃ s, inquiries host m k = inquiries host m (k + 1) ++ [⟨n, p, s⟩]
  := by
  have names := map_inquiries host rest k
  rw [ends] at names
  obtain ⟨others, last, split, hothers, hlast⟩ := List.map_eq_append_iff.mp names
  obtain ⟨⟨n', p', s⟩, rfl, same⟩ := List.map_eq_singleton_iff.mp hlast
  obtain ⟨rfl, rfl⟩ := Prod.mk.inj same
  use s
  have length : (runFor host (k + 1) m).makings.length = others.length := by
    rw [runFor_step, ← hothers, List.length_map]
  rw [inquiries, length, split, List.append_assoc, List.take_left]

end Machine

end Componentry
