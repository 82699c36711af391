import Componentry.Proofs.Nesting
import Mathlib.Data.List.Basic

/-!
# Failures set aside

While components are being created, failures can be set aside, at whatever depth.  They belong to
the outermost creation: if it fails, its error carries all that were set aside since it began, and
the error of a creation within it carries none of them.  When it has ended nothing is left of
them, so that they do not turn up in the error of a later one.
-/

namespace Componentry

open Machine

variable {φ δ μ α : Type} {host : Host φ δ μ} {most : Nat} {n : Name}

namespace Machine

variable {m : Machine φ δ μ α} {f : Frame φ δ μ α} {j d k : Nat}

/-! ### One step -/

/-- When no creation is under way, failures cannot be set aside. -/
theorem Tracked.suppressed_eq_none (h : m.Tracked most) (rest : m.creations = []) :
  m.registry.suppressed = none
  := by
  have tracks := h.tracks
  rw [rest] at tracks
  apply tracks.atRest.suppressed

/-- Nothing is set aside by a step that spills. -/
theorem Spills.settingAside?_eq (h : m.Spills host) :
  m.settingAside? = none
  := by
  unfold Spills at h
  split at h
  · rfl
  · cases h

/-- When no creation is under way, a step may begin one, which collects the failures set aside. -/
theorem Tracked.opens (h : m.Tracked most) (host : Host φ δ μ) (rest : m.frames = []) :
  (m.step host).frames = [] ∨
    ∃ f : Frame φ δ μ α, f.below.creations = [] ∧
      (∃ factory u, m = running (.create f.name factory f.resume) f.below u) ∧
      m.settingAside? = none ∧ (m.step host).frames.head? = some f ∧
      (m.step host).registry.suppressed = some []
  := by
  have empty := h.suppressed_eq_none (frames_eq_nil_iff.mp rest)
  cases effect_step host m with
  | stays _ frames | suppresses _ _ frames | exempts _ _ _ _ frames | spills _ _ _ _ frames =>
    left
    rw [frames, rest]
  | begins n factory resume below u collects running admitted frames =>
    right
    subst running
    have rest : below.frames = [] := rest
    use ⟨n, collects, resume, below⟩, Stack.creations_eq_nil_iff.mpr rest, ⟨factory, u, rfl⟩, rfl
    constructor
    · rw [frames, rest]
      rfl
    · have empty : u.registry.suppressed = none := empty
      rw [Registry.suppressed_of_admitted admitted, empty]
      rfl
  | ends f _ frames =>
    rw [frames] at rest
    simp at rest

/-- Failures can be set aside, and those in `causes` were.  The creations in `outer` are under way,
and what has begun within them collects none. -/
structure Gathers (outer : List (Frame φ δ μ α)) (causes : List Error) (m : Machine φ δ μ α) :
    Prop where
  within : ∃ inner, m.frames = outer ++ inner ∧ ∀ f ∈ inner, f.collects = false
  suppressed : m.registry.suppressed = some causes

/-- What is set aside is added to what was, unless the innermost of the outer creations ends. -/
theorem Gathers.step {outer : List (Frame φ δ μ α)} {causes : List Error}
    (h : m.Gathers outer causes) (host : Host φ δ μ) :
  (m.step host).Gathers outer (causes ++ m.settingAside?.toList) ∨
    ∃ f, outer = (m.step host).frames ++ [f] ∧ m.frames = outer ∧
      m.ending? = some (f.name, f.collects)
  := by
  obtain ⟨⟨inner, split, apart⟩, hs⟩ := h
  cases effect_step host m with
  | stays aside frames still =>
    left
    rw [aside]
    refine ⟨⟨inner, frames.trans split, apart⟩, ?_⟩
    rw [still.suppressed, hs]
    simp
  | suppresses e aside frames registry =>
    left
    rw [aside]
    refine ⟨⟨inner, frames.trans split, apart⟩, ?_⟩
    rw [registry, Registry.suppress, hs]
    rfl
  | exempts n b aside _ frames registry =>
    left
    rw [aside]
    refine ⟨⟨inner, frames.trans split, apart⟩, ?_⟩
    rw [registry]
    apply hs.trans
    simp
  | begins n factory resume below w collects running admitted frames =>
    left
    subst running
    have hs : w.registry.suppressed = some causes := hs
    have split : below.frames = outer ++ inner := split
    obtain ⟨-, -, guard, suppressed, -, -, hc, -⟩ := Registry.of_admitted admitted
    rw [hs] at hc
    refine ⟨⟨inner ++ [⟨n, collects, resume, below⟩], ?_, ?_⟩, ?_⟩
    · rw [frames, split, List.append_assoc]
    · intro f hf
      obtain hf | hf := List.mem_append.mp hf
      · exact apart f hf
      · rw [List.mem_singleton.mp hf]
        exact hc
    · rw [Registry.suppressed_of_admitted admitted, hs]
      simp [settingAside?]
  | spills n collects spills admitted frames =>
    left
    refine ⟨⟨inner, frames.trans split, apart⟩, ?_⟩
    rw [Registry.suppressed_of_admitted admitted, hs, spills.settingAside?_eq]
    simp
  | ends f aside frames below still ending =>
    -- the creation that ends is an inner one, which collects nothing, or the last outer one
    rw [frames] at split
    obtain rfl | ⟨inner, g, rfl⟩ := inner.eq_nil_or_concat'
    · right
      rw [List.append_nil] at split
      exact ⟨f, split.symm, frames.trans split, ending⟩
    · left
      rw [← List.append_assoc] at split
      obtain ⟨others, last⟩ := List.append_inj' split rfl
      obtain rfl := List.singleton_inj.mp last
      refine ⟨⟨inner, others, fun f hf => apart f (List.mem_append_left _ hf)⟩, ?_⟩
      have within : f.collects = false := apart f (by simp)
      rw [still.suppressed, aside, within]
      apply hs.trans
      simp

/-- While a creation is under way, a step may set a failure aside, and takes none away unless it
ends that creation. -/
theorem Tracked.carries (h : m.Tracked most) (host : Host φ δ μ) (first : m.frames.head? = some f)
    {causes : List Error} (hs : m.registry.suppressed = some causes) :
  (m.step host).frames = [] ∨
    (m.step host).frames.head? = some f ∧
      (m.step host).registry.suppressed = some (causes ++ m.settingAside?.toList)
  := by
  have gathers : m.Gathers [f] causes := by
    obtain ⟨inner, split⟩ := List.head?_eq_some_iff.mp first
    refine ⟨⟨inner, split, ?_⟩, hs⟩
    -- a creation with another one below it collects none
    intro g hg
    have collects := (tracked_iff.mp h).2 g (by simp [split, hg])
    have below := head?_frames_below split g hg
    apply eq_false_of_ne_true
    intro hc
    rw [collects.mp hc] at below
    cases below
  obtain ⟨⟨inner, split, -⟩, next⟩ | ⟨g, last, -⟩ := gathers.step host
  · right
    use by simp [split], next
  · left
    exact (List.append_eq_singleton_iff.mp last.symm).elim (fun h => h.1) nofun

/-! ### Runs -/

/-- The failures that `d` steps of a run set aside, from the moment `j` on, in their order. -/
def setAside (host : Host φ δ μ) (m : Machine φ δ μ α) (j d : Nat) : List Error :=
  (List.range' j d).flatMap fun i => (runFor host i m).settingAside?.toList

/-- One step more sets aside what is set aside with this step. -/
theorem setAside_succ (host : Host φ δ μ) (m : Machine φ δ μ α) (j d : Nat) :
  setAside host m j (d + 1) = setAside host m j d ++ (runFor host (j + d) m).settingAside?.toList
  := by
  rw [setAside, List.range'_1_concat, List.flatMap_append, List.flatMap_singleton]
  rfl

/-- A creation for which no other one waits is requested with the step `j` of a run, and is under
way for the next `d` moments. -/
structure Spans (host : Host φ δ μ) (m : Machine φ δ μ α) (j d : Nat) (f : Frame φ δ μ α) :
    Prop where
  /-- The request. -/
  request : ∃ factory u, runFor host j m = running (.create f.name factory f.resume) f.below u
  /-- No other creation waits for this one. -/
  outermost : f.below.creations = []
  /-- It has not ended. -/
  lasts : ∀ i, j < i → i ≤ j + d → (runFor host i m).creations ≠ []

/-- A stretch of a run goes on as long as some creation is under way. -/
theorem Spans.succ (h : Spans host m j d f)
    (lasts : (runFor host (j + (d + 1)) m).creations ≠ []) :
  Spans host m j (d + 1) f
  := by
  use h.request, h.outermost
  intro i hj hi
  obtain rfl | lt := Nat.eq_or_lt_of_le hi
  · apply lasts
  · apply h.lasts i hj (Nat.le_of_lt_succ lt)

/-- Before the outermost creation of a stretch begins, none is under way. -/
theorem Spans.rest (h : Spans host m j d f) :
  (runFor host j m).creations = []
  := by
  obtain ⟨factory, u, request⟩ := h.request
  rw [request]
  apply h.outermost

/-- Of two creations for which no other one waits, the second one begins when the first one has
ended. -/
theorem Spans.apart {j' d' : Nat} {f' : Frame φ δ μ α} (h : Spans host m j d f)
    (h' : Spans host m j' d' f') (lt : j < j') :
  j + d < j'
  := by
  by_contra le
  apply h.lasts j' lt (Nat.le_of_not_lt le) h'.rest

/-- The outermost creation has a beginning, and what was set aside since then is kept. -/
def Accounted (host : Host φ δ μ) (m : Machine φ δ μ α) (k : Nat) : Prop :=
  (runFor host k m).frames = [] ∨
    ∃ j d f, k = j + d ∧ Spans host m j d f ∧ (runFor host k m).frames.head? = some f ∧
      (runFor host k m).registry.suppressed = some (setAside host m j d)

theorem creations_ne_nil (h : m.frames.head? = some f) :
  m.creations ≠ []
  := by
  intro rest
  rw [frames_eq_nil_iff.mpr rest] at h
  cases h

/-- Every step keeps account of what is set aside. -/
theorem Accounted.step (h : Accounted host m k) (tracked : (runFor host k m).Tracked most) :
  Accounted host m (k + 1)
  := by
  unfold Accounted
  rw [runFor_step]
  obtain rest | ⟨j, d, f, rfl, spans, first, hs⟩ := h
  · obtain rest | ⟨f, outermost, request, aside, first, hs⟩ := tracked.opens host rest
    · left
      exact rest
    · right
      use k, 1, f, rfl
      constructor
      · use request, outermost
        intro i hj hi
        obtain rfl : i = k + 1 := by omega
        rw [runFor_step]
        apply creations_ne_nil first
      · use first
        rw [hs, setAside_succ, Nat.add_zero, aside]
        rfl
  · obtain rest | ⟨first, hs⟩ := tracked.carries host first hs
    · left
      exact rest
    · right
      use j, d + 1, f, rfl
      constructor
      · apply spans.succ
        rw [← Nat.add_assoc, runFor_step]
        apply creations_ne_nil first
      · use first
        rw [hs, setAside_succ]

/-- A run that begins at rest, and in which nothing spills and the exemptions stay, keeps account of
what is set aside. -/
theorem accounted_of_tracked (begins : m.Tracked most) (rest : m.frames = [])
    (sure : ∀ j < k, ¬ (runFor host j m).Spills host)
    (keeps : ∀ j < k, (runFor host j m).KeepsExemptions) :
  Accounted host m k
  := by
  induction k with
  | zero => exact .inl rest
  | succ k ih =>
    have before : ∀ {P : Nat → Prop}, (∀ j < k + 1, P j) → ∀ j < k, P j :=
      fun h j hj => h j (Nat.lt_succ_of_lt hj)
    apply (ih (before sure) (before keeps)).step
    apply begins.after (before sure) (before keeps)

/-! ### Errors -/

/-- The moment at which the factory of a creation has failed. -/
def failing (f : Frame φ δ μ α) (e : Error) (v : World φ δ μ) : Machine φ δ μ α :=
  @running φ δ μ α .maker (.done (.error e)) (.creating f.name f.collects f.resume f.below) v

section Ends

variable {v : World φ δ μ} {e : Error}

/-- A creation whose factory failed, and whose name is unbound, hands the error on with what it has
collected. -/
theorem step_failing (h : (failing f e v).Tracked most)
    (unbound : v.registry.finished.get? f.name = none) (host : Host φ δ μ) :
  ∃ v', (failing f e v).step host
    = announcing host (.creationFailed f.name (e.withRelated f.name (v.registry.collected f.collects)))
        f.below v'
        (running (f.resume (.error (e.withRelated f.name (v.registry.collected f.collects)))) f.below)
  := by
  have left : (v.registry.leave f.name f.collects).2 = none := (Stack.Tracked.leave h).1
  have unbound : (v.registry.leave f.name f.collects).1.finished.get? f.name = none := unbound
  use { v with registry := (v.registry.leave f.name f.collects).1.dropEarly f.name }
  simp only [failing, step, finish, finishCreation, left, unbound]
  rfl

/-- The failures that a failing creation adds to its error: all that were set aside since it began,
if no other creation waits for it, and none otherwise. -/
theorem collected_eq (begins : m.Tracked most) (rest : m.frames = [])
    (sure : ∀ j < k, ¬ (runFor host j m).Spills host)
    (keeps : ∀ j < k, (runFor host j m).KeepsExemptions) (h : runFor host k m = failing f e v) :
  (f.below.creations = [] ∧ ∃ j d, k = j + d ∧ Spans host m j d f ∧
      v.registry.collected f.collects = setAside host m j d) ∨
    f.below.creations ≠ [] ∧ v.registry.collected f.collects = []
  := by
  have tracked := begins.after sure keeps
  have accounted := accounted_of_tracked begins rest sure keeps
  rw [h] at tracked
  rw [Accounted, h] at accounted
  have collects : f.collects = true ↔ f.below.creations = [] := tracked.collects.1
  by_cases outermost : f.below.creations = []
  · left
    use outermost
    have frames : (failing f e v).frames = [f] := by
      change f.below.frames ++ [f] = [f]
      rw [Stack.creations_eq_nil_iff.mp outermost, List.nil_append]
    rw [frames] at accounted
    obtain ⟨⟨⟩⟩ | ⟨j, d, g, rfl, spans, first, hs⟩ := accounted
    obtain rfl := Option.some.inj first
    use j, d, rfl, spans
    have hs : v.registry.suppressed = some (setAside host m j d) := hs
    rw [Registry.collected, if_pos (collects.mpr outermost), hs]
    rfl
  · right
    use outermost
    rw [Registry.collected, if_neg fun h => outermost (collects.mp h)]

end Ends

/-- What becomes of the failures that a run sets aside, as it shows at the moment `k`. -/
structure Attributes (host : Host φ δ μ) (m : Machine φ δ μ α) (k : Nat) : Prop where
  /-- The outermost creation fails: the error that is handed on is that of its factory, with all the
  failures that were set aside since the creation was requested, and no others. -/
  outermost : ∀ {f : Frame φ δ μ α} {e : Error} {v : World φ δ μ}, runFor host k m = failing f e v →
    v.registry.finished.get? f.name = none → f.below.creations = [] →
    ∃ j d e' v', k = j + d ∧ Spans host m j d f ∧
      runFor host (k + 1) m = running (f.resume (.error e')) f.below v' ∧
      e'.root = e.root ∧ e'.related = e.related ++ setAside host m j d ∧
      (setAside host m j d = [] → e' = e)
  /-- A creation within another one fails: the error of its factory is handed on as it is. -/
  nested : ∀ {f : Frame φ δ μ α} {e : Error} {v : World φ δ μ}, runFor host k m = failing f e v →
    v.registry.finished.get? f.name = none → f.below.creations ≠ [] →
    ∃ v', runFor host (k + 1) m = running (f.resume (.error e)) f.below v'
  /-- Nothing is set aside for two creations: they do not overlap. -/
  apart : ∀ {j d j' d' : Nat} {f f' : Frame φ δ μ α}, Spans host m j d f → Spans host m j' d' f' →
    j < j' → j + d < j'
  /-- No creation is under way: no failure is kept, however the last one has ended. -/
  rest : (runFor host k m).creations = [] → (runFor host k m).registry.suppressed = none

end Machine

/-- Failures that are set aside get into the error of the outermost creation that is under way, if
it fails, and into no other one, however callbacks nest, fail and panic, as long as no one who hears
a notice panics and exemptions change only while nothing is created. -/
theorem failures_attributed (calm : host.Calm) (c : Client φ δ μ α) (w : World φ δ μ)
    (rest : w.registry.AtRest) (k : Nat)
    (keeps : ∀ j < k, (runFor host j (start c w)).KeepsExemptions) :
  Attributes host (start c w) k
  := by
  have begins : (start c w).Tracked w.registry.guard.limit := ⟨rest.tracks, trivial⟩
  have sure : ∀ j < k, ¬ (runFor host j (start c w)).Spills host := fun j _ => not_spills calm _
  have tracked := begins.after sure keeps
  constructor
  case outermost =>
    intro f e v h unbound outermost
    obtain ⟨-, j, d, hk, spans, collected⟩ | ⟨nested, -⟩ := collected_eq begins rfl sure keeps h
    · rw [h] at tracked
      obtain ⟨v', next⟩ := step_failing tracked unbound host
      rw [announcing_calm calm, collected] at next
      rw [runFor_step, h]
      refine ⟨j, d, _, _, hk, spans, next, Error.root_withRelated _ _ _,
        Error.related_withRelated _ _ _, ?_⟩
      intro none
      rw [none, Error.withRelated_nil]
    · exact absurd outermost nested
  case nested =>
    intro f e v h unbound nested
    obtain ⟨outermost, -⟩ | ⟨-, collected⟩ := collected_eq begins rfl sure keeps h
    · exact absurd outermost nested
    · rw [h] at tracked
      obtain ⟨v', next⟩ := step_failing tracked unbound host
      rw [announcing_calm calm, collected] at next
      rw [runFor_step, h]
      exact ⟨_, next⟩
  case apart =>
    intro j d j' d' f f' h h' lt
    apply h.apart h' lt
  case rest => apply tracked.suppressed_eq_none

/-- An outer component sets a failure aside and asks for an inner one, which sets another failure
aside and fails. -/
def Host.thwarted : Host Bool Unit Unit where
  make
    | true => .edit (.suppress (.notDefined "first")) fun _ =>
        .create "inner" false fun outcome => .done (outcome.map Materialized.ref)
    | false => .edit (.suppress (.notDefined "second")) fun _ =>
        .done (.error (.factory "inner" "no"))
  dispose _ := .done (.ok ())
  hear _ m := (none, m)

/-- The request for the outer component. -/
def Machine.thwarted : Machine Bool Unit Unit (Except Error Materialized) :=
  start (.create "outer" true .done) ⟨.fresh default, ()⟩

/-- The creation of the outer component. -/
def Frame.outer : Frame Bool Unit Unit (Except Error Materialized) where
  name := "outer"
  collects := true
  ρ := .main
  resume := .done
  below := .base

/-- The creation of the inner component. -/
def Frame.inner : Frame Bool Unit Unit (Except Error Materialized) where
  name := "inner"
  collects := false
  ρ := .maker
  resume outcome := .done (outcome.map Materialized.ref)
  below := .creating "outer" true .done .base

/-- The failure of the inner component is handed on as it is; both failures that were set aside get
into the error of the outer one. -/
theorem failures_attributed_nested :
  (∃ below v, runFor .thwarted 5 Machine.thwarted
    = @running _ _ _ _ .maker (.done (.error (.factory "inner" "no"))) below v) ∧
  ∃ e v, runFor .thwarted 6 Machine.thwarted = @running _ _ _ _ .main (.done (.error e)) .base v ∧
    e.root = .factory "inner" "no" ∧ e.related = [.notDefined "first", .notDefined "second"]
  := by
  have keeps : ∀ k ≤ 5, ∀ j < k, (runFor .thwarted j Machine.thwarted).KeepsExemptions := by
    intro k hk j hj
    obtain rfl | rfl | rfl | rfl | rfl : j = 0 ∨ j = 1 ∨ j = 2 ∨ j = 3 ∨ j = 4 := by omega
    all_goals trivial
  have attributes : ∀ k ≤ 5, Attributes .thwarted Machine.thwarted k := fun k hk =>
    failures_attributed (fun _ _ => rfl) _ _ (Registry.atRest_fresh _) k (keeps k hk)
  constructor
  · obtain ⟨v, next⟩ := (attributes 4 (by decide)).nested (f := .inner) rfl rfl (List.cons_ne_nil _ _)
    exact ⟨_, v, next⟩
  · obtain ⟨j, d, e, v, hk, spans, next, root, related, -⟩ :=
      (attributes 5 (by decide)).outermost (f := .outer) rfl rfl rfl
    use e, v, next, root
    obtain rfl : j = 0 := by
      by_contra later
      have rest := spans.rest
      obtain rfl | rfl | rfl | rfl | rfl : j = 1 ∨ j = 2 ∨ j = 3 ∨ j = 4 ∨ j = 5 := by omega
      all_goals exact absurd rest (List.cons_ne_nil _ _)
    obtain rfl : d = 5 := by omega
    exact related

end Componentry
