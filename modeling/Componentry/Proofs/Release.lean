import Componentry.Proofs.Aside

/-!
# Release of the guard

When no creation is under way, the guard should be as if it had never been used, whoever has
panicked.  The main result, `guard_released_iff`, says when it is: exactly if no panic has come
back from one who heard that a creation begins.  At that point the guard has been entered already,
and the creation is not yet under way, so that nothing undoes the entry.
-/

namespace Componentry

open Machine

variable {φ δ μ α : Type} {host : Host φ δ μ} {most : Nat} {n : Name}

/-! ### Depth -/

namespace Guard

variable {g g' : Guard}

/-- A creation that is entered is counted. -/
theorem depth_of_enter (h : g.enter n = .ok g') :
  g'.depth = g.depth + 1
  := by
  unfold enter at h
  split at h
  · cases h
  · split at h
    · cases h
      rfl
    · split at h
      · cases h
      · cases h
        rfl

/-- A creation that is left is not counted any more. -/
theorem depth_leave (g : Guard) (n : Name) :
  (g.leave n).1.depth = g.depth - 1
  := by
  unfold leave
  dsimp only
  split
  · rfl
  · split <;> rfl

end Guard

/-- A creation that is admitted is counted. -/
theorem Registry.depth_of_admitted {r r' : Registry φ δ} {collects : Bool}
    (h : r.beginCreation n = .admitted collects r') :
  r'.guard.depth = r.guard.depth + 1
  := by
  obtain ⟨-, -, guard, suppressed, he, -, -, rfl⟩ := of_admitted h
  apply Guard.depth_of_enter he

namespace Machine

variable {m : Machine φ δ μ α}

/-- The guard counts more creations than there are. -/
def Exceeds (m : Machine φ δ μ α) : Prop :=
  m.frames.length < m.registry.guard.depth

/-- A creation that has spilled is counted, and is not there. -/
theorem Spills.exceeds (h : m.Spills host) (depth : m.registry.guard.depth = m.frames.length) :
  (m.step host).Exceeds
  := by
  unfold Spills at h
  split at h
  · rename_i ρ n factory next stack w
    obtain ⟨⟨collects, r, admitted⟩, loud⟩ := h
    obtain ⟨p, loud⟩ := Option.isSome_iff_exists.mp loud
    have next : step host (running (.create n factory next) stack w)
        = unwinding p stack ⟨r, (host.hear (.creating n) w.memory).2⟩ := by
      simp only [step, startCreation, admitted, announcing, World.announce, loud]
    rw [next]
    change stack.frames.length < r.guard.depth
    rw [Registry.depth_of_admitted admitted]
    apply Nat.lt_succ_of_le (Nat.le_of_eq depth.symm)
  · cases h

/-- The excess is never made up for: a creation that begins is counted once, and discounted once
when it ends. -/
theorem Exceeds.step (h : m.Exceeds) (host : Host φ δ μ) :
  (m.step host).Exceeds
  := by
  unfold Exceeds at h ⊢
  cases effect_step host m with
  | stays _ frames still =>
    rw [frames, still.guard]
    exact h
  | suppresses _ _ frames registry | exempts _ _ _ _ frames registry =>
    rw [frames, registry]
    exact h
  | begins n factory resume below w collects running admitted frames =>
    subst running
    rw [frames, Registry.depth_of_admitted admitted, List.length_append]
    exact Nat.succ_lt_succ h
  | spills n collects spills admitted frames =>
    rw [frames, Registry.depth_of_admitted admitted]
    apply Nat.lt_succ_of_lt h
  | ends f _ frames below still =>
    rw [frames, List.length_append, List.length_singleton] at h
    rw [still.guard]
    have depth := Guard.depth_leave m.registry.guard f.name
    change _ < (m.registry.guard.leave f.name).1.depth
    omega

/-- A run begins without an excess, and has one from the first step on that spills. -/
theorem sure_or_exceeds (begins : m.Tracked most) {k : Nat}
    (keeps : ∀ j < k, (runFor host j m).KeepsExemptions) :
  (∀ j < k, ¬ (runFor host j m).Spills host) ∨ (runFor host k m).Exceeds
  := by
  induction k with
  | zero =>
    left
    intro j hj
    cases hj
  | succ k ih =>
    have before : ∀ j < k, (runFor host j m).KeepsExemptions := by
      intro j hj
      apply keeps j (Nat.lt_succ_of_lt hj)
    obtain sure | exceeds := ih before
    · by_cases spills : (runFor host k m).Spills host
      · right
        have depth := (begins.after sure before).tracks.guard.depth
        rw [creations_eq, List.length_map] at depth
        rw [runFor_step]
        apply spills.exceeds depth
      · left
        intro j hj
        obtain hj | rfl := Nat.lt_succ_iff_lt_or_eq.mp hj
        · apply sure j hj
        · exact spills
    · right
      rw [runFor_step]
      apply exceeds.step

end Machine

/-! ### What is released -/

/-- The registry is as if its guard, which admits up to `most` nested creations, had never been
used. -/
structure Registry.Released (host : Host φ δ μ) (most : Nat) (r : Registry φ δ) : Prop where
  /-- No name is in creation. -/
  names : r.guard.inCreation.toList = []
  /-- It is the registry with the same components and with a new guard. -/
  unused : r = { r with guard := .fresh most r.guard.exempt, suppressed := none }
  /-- A component that is not finished can be created, except during a shutdown: a notice goes out,
  and then the factory runs. -/
  admits : most ≠ 0 → r.inDestruction = false → ∀ {α : Type} {ρ : Role} (n : Name) (factory : φ)
    (resume : Except Error Materialized → Client φ δ μ (ρ.Result α)) (stack : Stack φ δ μ α ρ)
    (memory : μ), r.finished.get? n = none →
    ∃ r', step host (running (.create n factory resume) stack ⟨r, memory⟩)
      = announcing host (.creating n) stack ⟨r', memory⟩
          (@running φ δ μ α .maker (host.make factory) (.creating n true resume stack))
  /-- The failures that are set aside in a later run get into the error of the outermost creation,
  if that fails. -/
  attaches : ∀ {α : Type} (c : Client φ δ μ α) (memory : μ) (k : Nat),
    (∀ j < k, ¬ (runFor host j (start c ⟨r, memory⟩)).Spills host) →
    (∀ j < k, (runFor host j (start c ⟨r, memory⟩)).KeepsExemptions) →
    ∀ {f : Frame φ δ μ α} {e : Error} {v : World φ δ μ},
      runFor host k (start c ⟨r, memory⟩) = failing f e v →
      v.registry.finished.get? f.name = none → f.below.creations = [] →
      ∃ j d e' v', k = j + d ∧ Spans host (start c ⟨r, memory⟩) j d f ∧
        runFor host (k + 1) (start c ⟨r, memory⟩)
          = announcing host (.creationFailed f.name e') f.below v'
              (running (f.resume (.error e')) f.below) ∧
        e'.root = e.root ∧ e'.related = e.related ++ setAside host (start c ⟨r, memory⟩) j d

/-- A registry at rest has its guard released. -/
theorem Registry.AtRest.released {r : Registry φ δ} (h : r.AtRest) (host : Host φ δ μ)
    (limit : r.guard.limit = most) :
  r.Released host most
  := by
  subst limit
  have guard : r.guard = .fresh r.guard.limit r.guard.exempt := by
    rcases hg : r.guard with ⟨inCreation, exempt, depth, limit⟩
    have inCreation := h.inCreation
    have depth := h.depth
    rw [hg] at inCreation depth
    subst inCreation depth
    rfl
  constructor
  case names =>
    rw [h.inCreation]
    rfl
  case unused =>
    rw [← guard, ← h.suppressed]
  case admits =>
    intro room peace α ρ n factory resume stack memory unbound
    obtain ⟨r', admitted, -⟩ := h.tracks.begins room peace unbound
    use r'
    simp only [step, startCreation, admitted]
  case attaches =>
    intro α c memory k sure keeps f e v hk unbound outermost
    have begins : (start c ⟨r, memory⟩).Tracked r.guard.limit := ⟨h.tracks, trivial⟩
    obtain ⟨-, j, d, hjd, spans, collected⟩ | ⟨nested, -⟩ := collected_eq begins rfl sure keeps hk
    · have tracked := begins.after sure keeps
      rw [hk] at tracked
      obtain ⟨v', next⟩ := step_failing tracked unbound host
      rw [collected] at next
      rw [runFor_step, hk]
      exact ⟨j, d, _, v', hjd, spans, next, Error.root_withRelated _ _ _,
        Error.related_withRelated _ _ _⟩
    · exact absurd outermost nested

/-- When no creation is under way, the guard is released exactly if no step of the run has spilled:
whoever else has panicked, it is as if it had never been used. -/
theorem guard_released_iff (host : Host φ δ μ) (c : Client φ δ μ α) (w : World φ δ μ)
    (rest : w.registry.AtRest) (k : Nat)
    (keeps : ∀ j < k, (runFor host j (start c w)).KeepsExemptions)
    (idle : (runFor host k (start c w)).creations = []) :
  (runFor host k (start c w)).registry.Released host w.registry.guard.limit ↔
    ∀ j < k, ¬ (runFor host j (start c w)).Spills host
  := by
  have begins : (start c w).Tracked w.registry.guard.limit := ⟨rest.tracks, trivial⟩
  constructor
  · intro released
    obtain sure | exceeds := sure_or_exceeds begins keeps
    · exact sure
    · unfold Exceeds at exceeds
      rw [released.unused] at exceeds
      cases exceeds
  · intro sure
    have tracks := (begins.after sure keeps).tracks
    rw [idle] at tracks
    apply tracks.atRest.released host tracks.guard.limit

/-- A host whose factories fail.  The one who hears notices panics when a creation has failed, and
when that of a shy component begins. -/
def Host.nervous : Host Unit Unit Unit where
  make _ := .done (.error (.factory "some" "no"))
  dispose _ := .done (.ok ())
  hear
    | .creating "shy", m | .creationFailed _ _, m => (some .other, m)
    | _, m => (none, m)

/-- A moment of the run that asks for a component, where one creation may be under way at a time. -/
def Machine.nervous (n : Name) (k : Nat) : Machine Unit Unit Unit (Except Error Materialized) :=
  runFor .nervous k (start (.create n () .done) ⟨.fresh ⟨true, 1, [], false⟩, ()⟩)

/-- The panic that comes back when a creation has failed leaves the guard as new. -/
theorem guard_released_iff_failure :
  (Machine.nervous "bold" 3).creations = [] ∧
    (Machine.nervous "bold" 3).registry.Released .nervous 1 ∧
    (Machine.nervous "bold" 3).registry.beginCreation "shy"
      = .admitted true { (Machine.nervous "bold" 3).registry with
          guard := ⟨.ofList ["shy"], ∅, 1, 1⟩, suppressed := some [] }
  := by
  have moments : ∀ j < 3, (Machine.nervous "bold" j).KeepsExemptions ∧
      ¬ (Machine.nervous "bold" j).Spills .nervous := by
    intro j hj
    obtain rfl | rfl | rfl : j = 0 ∨ j = 1 ∨ j = 2 := by omega
    · use trivial
      rintro ⟨-, ⟨⟩⟩
    · exact ⟨trivial, id⟩
    · exact ⟨trivial, id⟩
  have released := (guard_released_iff .nervous _ _ (Registry.atRest_fresh _) 3
    (fun j hj => (moments j hj).1) rfl).mpr fun j hj => (moments j hj).2
  exact ⟨rfl, released, rfl⟩

/-- The panic that comes back when a creation begins leaves its name, its depth and its collection
of failures behind: the component is taken for one in creation, and no other one can be created any
more. -/
theorem not_guard_released :
  (Machine.nervous "shy" 2).creations = [] ∧
    (Machine.nervous "shy" 2).registry.guard.inCreation.toList = ["shy"] ∧
    (Machine.nervous "shy" 2).registry.suppressed = some [] ∧
    (Machine.nervous "shy" 2).registry.beginCreation "bold" = .refused (.depthExceeded 1) ∧
    ¬ (Machine.nervous "shy" 2).registry.Released .nervous 1
  := by
  have names : (Machine.nervous "shy" 2).registry.guard.inCreation.toList = ["shy"] := rfl
  refine ⟨rfl, names, rfl, rfl, ?_⟩
  intro released
  cases names.symm.trans released.names

end Componentry
