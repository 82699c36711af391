import Componentry.Proofs.Moves

/-!
# Nested creations

Which creations are under way can be told from the stack of a machine.  The registry knows it as
well, for its guard has their names and their number, and it sets failures aside while there are
any.  The two agree at every moment of a run, however callbacks nest, fail and panic, as long as no
one who hears a notice panics and no exemption changes while a component is created.

All of this comes from `effect_step`, which says what a step may do to creations.
-/

namespace Componentry

open Machine

variable {φ δ μ α : Type} {host : Host φ δ μ} {most : Nat} {names : List Name} {n : Name}

/-! ### The guard -/

namespace Guard

/-- The names of a list that are not exempt. -/
def noted (g : Guard) (names : List Name) : List Name := names.filter (· ∉ g.exempt)

/-- The innermost creation is noted unless its name is exempt. -/
theorem noted_concat (g : Guard) (names : List Name) (n : Name) :
  g.noted (names ++ [n]) = if n ∈ g.exempt then g.noted names else g.noted names ++ [n]
  := by
  rw [noted, List.filter_append]
  split
  · rename_i hn
    simp [noted, hn]
  · rename_i hn
    simp [noted, hn]

/-- The creations of the components `names` are under way, the outermost in front, and no more than
`most` may be. -/
structure Tracks (g : Guard) (most : Nat) (names : List Name) : Prop where
  inCreation : g.inCreation.toList = g.noted names
  depth : g.depth = names.length
  limit : g.limit = most
  bound : names.length ≤ most

variable {g g' : Guard}

/-- A creation that begins is the innermost one. -/
theorem Tracks.enter (h : g.Tracks most names) (he : g.enter n = .ok g') :
  g'.Tracks most (names ++ [n])
  := by
  have hdepth : g.depth + 1 = (names ++ [n]).length := by
    rw [h.depth, List.length_append]
    rfl
  unfold Guard.enter at he
  split at he
  · cases he
  · rename_i hroom
    have hbound : (names ++ [n]).length ≤ most := by
      rw [h.limit, h.depth] at hroom
      rw [List.length_append]
      apply Nat.lt_of_not_le hroom
    split at he
    · rename_i hn
      obtain rfl := Except.ok.inj he
      refine ⟨?_, hdepth, h.limit, hbound⟩
      apply h.inCreation.trans
      apply ((g.noted_concat names n).trans (if_pos hn)).symm
    · rename_i hn
      split at he
      · cases he
      · rename_i hin
        obtain rfl := Except.ok.inj he
        refine ⟨?_, hdepth, h.limit, hbound⟩
        rw [Roster.toList_insert, if_neg hin, h.inCreation]
        apply ((g.noted_concat names n).trans (if_neg hn)).symm

/-- The innermost creation can be ended, and then the others are under way. -/
theorem Tracks.leave (h : g.Tracks most (names ++ [n])) :
  (g.leave n).2 = none ∧ (g.leave n).1.Tracks most names
  := by
  have hdepth : g.depth - 1 = names.length := by
    rw [h.depth, List.length_append]
    rfl
  have hbound : names.length ≤ most := by
    apply Nat.le_trans _ h.bound
    simp
  have hin := h.inCreation
  rw [noted_concat] at hin
  unfold Guard.leave
  by_cases hn : n ∈ g.exempt
  · rw [if_pos hn] at hin
    rw [if_pos hn]
    use rfl, hin, hdepth, h.limit
  · rw [if_neg hn] at hin
    have hentered : n ∈ g.inCreation := by
      rw [Roster.mem_iff, hin]
      simp
    rw [if_neg hn, if_pos hentered]
    use rfl
    refine ⟨?_, hdepth, h.limit, hbound⟩
    -- the name was entered last, and it stands nowhere else, so that striking it undoes the entry
    have hnodup := g.inCreation.nodup
    rw [hin, List.nodup_append] at hnodup
    have hnew : n ∉ g.noted names := fun hm => hnodup.2.2 n hm n (by simp) rfl
    rw [Roster.toList_erase, hin, List.erase_append_right _ hnew]
    simp [noted]

end Guard

/-! ### The registry -/

namespace Registry

variable {r r' : Registry φ δ}

/-- The registry knows of the creations that are under way, and sets failures aside while there are
any. -/
structure Tracks (r : Registry φ δ) (most : Nat) (names : List Name) : Prop where
  guard : r.guard.Tracks most names
  suppressed : r.suppressed.isSome = true ↔ names ≠ []

/-- A change that leaves the creations under way as they are. -/
structure Steady (r r' : Registry φ δ) : Prop where
  guard : r'.guard = r.guard
  suppressed : r'.suppressed.isSome = r.suppressed.isSome

/-- A change that leaves alone what the registry knows of creations. -/
structure Still (r r' : Registry φ δ) : Prop where
  guard : r'.guard = r.guard
  suppressed : r'.suppressed = r.suppressed

/-- A change is steady if it changes neither the guard nor the place for failures. -/
theorem Steady.of_eq (hg : r'.guard = r.guard) (hs : r'.suppressed = r.suppressed) :
  r.Steady r'
  := by
  use hg
  rw [hs]

/-- A change that leaves everything about creations alone is steady. -/
theorem Still.steady (h : r.Still r') :
  r.Steady r'
  := .of_eq h.guard h.suppressed

/-- After a steady change the registry knows of the same creations. -/
theorem Tracks.steady (h : r.Tracks most names) (hs : r.Steady r') :
  r'.Tracks most names
  := by
  constructor
  · rw [hs.guard]
    apply h.guard
  · rw [hs.suppressed]
    apply h.suppressed

/-- A creation begins, which collects the failures set aside if no other one is under way. -/
theorem Tracks.admitted {collects : Bool} (h : r.Tracks most names)
    (ha : r.beginCreation n = .admitted collects r') :
  r'.Tracks most (names ++ [n]) ∧ (collects = true ↔ names = [])
  := by
  obtain ⟨-, -, guard, suppressed, he, hs, rfl, rfl⟩ := of_admitted ha
  refine ⟨⟨h.guard.enter he, ?_⟩, ?_⟩
  · apply iff_of_true hs
    simp
  · rw [← not_iff_not, ← ne_eq names, ← h.suppressed]
    cases r.suppressed <;> simp

/-- A creation ends, and with it the collection of failures if it is the outermost one. -/
theorem Tracks.leave {collects : Bool} (h : r.Tracks most (names ++ [n]))
    (hc : collects = true ↔ names = []) :
  (r.leave n collects).2 = none ∧ (r.leave n collects).1.Tracks most names
  := by
  obtain ⟨hnone, hg⟩ := h.guard.leave
  have hs : r.suppressed.isSome = true := h.suppressed.mpr (by simp)
  use hnone, hg
  cases collects with
  | true => simp [Registry.leave, hc.mp rfl]
  | false =>
    have hne : names ≠ [] := fun hn => Bool.false_ne_true (hc.mpr hn)
    apply iff_of_true hs hne

/-- Most requests that are answered at once have nothing to do with creations. -/
theorem still_edit (r : Registry φ δ) (e : Edit φ δ) (exempts : ∀ n b, e ≠ .setExempt n b)
    (suppresses : ∀ f, e ≠ .suppress f) :
  r.Still (r.edit e).1
  := by
  cases e with
  | bind n i =>
    obtain ⟨-, hb⟩ | hb := r.edit_bind n i
    · rw [hb]
      exact ⟨rfl, rfl⟩
    · rw [hb]
      exact ⟨rfl, rfl⟩
  | publish n producer =>
    simp only [edit, publish]
    split
    · exact ⟨rfl, rfl⟩
    · exact ⟨rfl, rfl⟩
  | suppress f => apply absurd rfl (suppresses f)
  | setExempt n b => apply absurd rfl (exempts n b)
  | remove | depend | contain | onDestroy => exact ⟨rfl, rfl⟩

/-- To restore a producer leaves everything about creations alone. -/
theorem still_restore (r : Registry φ δ) (n : Name) (producer : φ) :
  r.Still (r.restore n producer)
  := by
  obtain ⟨producers, hr⟩ := r.restore_eq n producer
  rw [hr]
  exact ⟨rfl, rfl⟩

/-- Taking a producer out of the registry does not touch the creations under way. -/
theorem still_of_pending {early : Bool} {producer : φ}
    (h : r.sight n early = .pending producer r') :
  r.Still r'
  := by
  obtain ⟨-, -, rfl⟩ := of_sight_pending h
  exact ⟨rfl, rfl⟩

/-- Exemptions may change while no creation is under way. -/
theorem Tracks.setExempt (h : r.Tracks most []) (n : Name) (b : Bool) :
  (r.edit (.setExempt n b)).1.Tracks most []
  := by
  use ⟨h.guard.inCreation, h.guard.depth, h.guard.limit, h.guard.bound⟩
  apply h.suppressed

end Registry

/-! ### The stack -/

/-- A creation that is under way, with the program that waits for it and what is below that one. -/
structure Frame (φ δ μ α : Type) where
  /-- The name of the component. -/
  name : Name
  /-- Whether this creation collects the failures set aside. -/
  collects : Bool
  /-- The role of the program that waits. -/
  {ρ : Role}
  /-- The program that waits. -/
  resume : Except Error Materialized → Client φ δ μ (ρ.Result α)
  /-- What waits for that program. -/
  below : Stack φ δ μ α ρ

namespace Stack

/-- The components in creation, the outermost in front. -/
def creations : {ρ : Role} → Stack φ δ μ α ρ → List Name
  | _, base => []
  | _, creating n _ _ below => below.creations ++ [n]
  | _, producing _ _ _ below => below.creations
  | _, disposing _ _ _ below => below.creations
  | _, protecting _ below => below.creations

/-- The outermost creation collects the failures set aside, and no other one does. -/
def Collects : {ρ : Role} → Stack φ δ μ α ρ → Prop
  | _, base => True
  | _, creating _ collects _ below => (collects = true ↔ below.creations = []) ∧ below.Collects
  | _, producing _ _ _ below => below.Collects
  | _, disposing _ _ _ below => below.Collects
  | _, protecting _ below => below.Collects

/-- The registry knows of the creations on the stack. -/
structure Tracked {ρ : Role} (stack : Stack φ δ μ α ρ) (most : Nat) (r : Registry φ δ) : Prop where
  tracks : r.Tracks most stack.creations
  collects : stack.Collects

/-- The creations that are under way, the outermost in front. -/
def frames : {ρ : Role} → Stack φ δ μ α ρ → List (Frame φ δ μ α)
  | _, base => []
  | _, creating n collects resume below => below.frames ++ [⟨n, collects, resume, below⟩]
  | _, producing _ _ _ below => below.frames
  | _, disposing _ _ _ below => below.frames
  | _, protecting _ below => below.frames

variable {ρ : Role} {stack : Stack φ δ μ α ρ} {r : Registry φ δ}

/-- The outermost creation is below all others. -/
theorem head?_frames_below {f : Frame φ δ μ α} {inner : List (Frame φ δ μ α)}
    (h : stack.frames = f :: inner) :
  ∀ g ∈ inner, g.below.frames.head? = some f
  := by
  induction stack generalizing inner with
  | base => cases h
  | creating n collects resume below ih =>
    change below.frames ++ [⟨n, collects, resume, below⟩] = f :: inner at h
    cases hb : below.frames with
    | nil =>
      rw [hb] at h
      cases h
      nofun
    | cons g frames =>
      rw [hb] at h
      obtain ⟨rfl, rfl⟩ := List.cons.inj h
      intro g' hg
      obtain hg | hg := List.mem_append.mp hg
      · apply ih hb g' hg
      · rw [List.mem_singleton.mp hg, hb]
        rfl
  | producing _ _ _ below ih | disposing _ _ _ below ih | protecting _ below ih => apply ih h

/-- The components in creation are those of the frames on the stack. -/
theorem creations_eq (stack : Stack φ δ μ α ρ) :
  stack.creations = stack.frames.map Frame.name
  := by
  induction stack with
  | base => rfl
  | creating n collects resume below ih =>
    rw [creations, frames, List.map_append, ih]
    rfl
  | producing _ _ _ _ ih | disposing _ _ _ _ ih | protecting _ _ ih => apply ih

theorem creations_eq_nil_iff :
  stack.creations = [] ↔ stack.frames = []
  := by
  rw [creations_eq, List.map_eq_nil_iff]

/-- Of the creations on a stack, the outermost one collects the failures and no other one does. -/
theorem collects_iff :
  stack.Collects ↔ ∀ f ∈ stack.frames, f.collects = true ↔ f.below.frames = []
  := by
  induction stack with
  | base => simp [Collects, frames]
  | creating n collects resume below ih =>
    rw [Collects, ih, creations_eq_nil_iff, frames]
    simp [or_imp, forall_and, and_comm]
  | producing _ _ _ _ ih | disposing _ _ _ _ ih | protecting _ _ ih => apply ih

/-- A creation that the registry knows of can be left, after which it knows of those below. -/
theorem Tracked.leave {collects : Bool}
    {resume : Except Error Materialized → Client φ δ μ (ρ.Result α)}
    (h : (Stack.creating n collects resume stack).Tracked most r) :
  (r.leave n collects).2 = none ∧ stack.Tracked most (r.leave n collects).1
  := by
  obtain ⟨hnone, tracks⟩ := h.tracks.leave h.collects.1
  use hnone, tracks
  apply h.collects.2

end Stack

/-! ### The machine -/

namespace Machine

/-- The registry at a moment of a run. -/
def registry : Machine φ δ μ α → Registry φ δ
  | running _ _ w => w.registry
  | tearing _ _ _ w => w.registry
  | unwinding _ _ w => w.registry
  | halted _ w => w.registry

/-- The components in creation at a moment of a run, the outermost in front. -/
def creations : Machine φ δ μ α → List Name
  | running _ stack _ => stack.creations
  | tearing _ _ stack _ => stack.creations
  | unwinding _ stack _ => stack.creations
  | halted _ _ => []

/-- The creation that ends with the next step, if one does, and whether it collects the failures set
aside. -/
def ending? : Machine φ δ μ α → Option (Name × Bool)
  | @running _ _ _ _ _ (.done _) (.creating n collects _ _) _ => some (n, collects)
  | unwinding _ (.creating n collects _ _) _ => some (n, collects)
  | _ => none

/-- No exemption changes with the next step while a component is in creation. -/
def KeepsExemptions : Machine φ δ μ α → Prop
  | running (.edit (.setExempt _ _) _) stack _ => stack.creations = []
  | _ => True

/-- The registry knows of the creations that are under way. -/
def Tracked (most : Nat) : Machine φ δ μ α → Prop
  | running _ stack w => stack.Tracked most w.registry
  | tearing _ _ stack w => stack.Tracked most w.registry
  | unwinding _ stack w => stack.Tracked most w.registry
  | halted _ w => w.registry.Tracks most []

/-- The creations that are under way at a moment of a run, the outermost in front. -/
def frames : Machine φ δ μ α → List (Frame φ δ μ α)
  | running _ stack _ => stack.frames
  | tearing _ _ stack _ => stack.frames
  | unwinding _ stack _ => stack.frames
  | halted _ _ => []

/-- The failure that is set aside with the next step, if one is. -/
def settingAside? : Machine φ δ μ α → Option Error
  | running (.edit (.suppress e) _) _ _ => some e
  | _ => none

/-- A panic comes back from the one who hears that a creation has begun. -/
def Spills (host : Host φ δ μ) : Machine φ δ μ α → Prop
  | running (.create n _ _) _ w =>
    (∃ collects r, w.registry.beginCreation n = .admitted collects r) ∧
      (host.hear (.creating n) w.memory).1.isSome = true
  | _ => False

/-- If no one who hears a notice panics, nothing spills. -/
theorem not_spills (calm : host.Calm) (m : Machine φ δ μ α) :
  ¬ m.Spills host
  := by
  unfold Spills
  split
  · rintro ⟨-, loud⟩
    rw [calm] at loud
    cases loud
  · exact id

/-- The components in creation are those of the frames. -/
theorem creations_eq (m : Machine φ δ μ α) :
  m.creations = m.frames.map Frame.name
  := by
  cases m with
  | halted outcome w => rfl
  | running | tearing | unwinding => apply Stack.creations_eq

theorem frames_eq_nil_iff {m : Machine φ δ μ α} :
  m.frames = [] ↔ m.creations = []
  := by
  rw [creations_eq, List.map_eq_nil_iff]

theorem head?_frames_below {m : Machine φ δ μ α} {f : Frame φ δ μ α}
    {inner : List (Frame φ δ μ α)} (h : m.frames = f :: inner) :
  ∀ g ∈ inner, g.below.frames.head? = some f
  := by
  cases m with
  | halted outcome w => cases h
  | running | tearing | unwinding => apply Stack.head?_frames_below h

/-- The registry knows of the creations under way if it tracks their names and the outermost one
collects. -/
theorem tracked_iff {m : Machine φ δ μ α} :
  m.Tracked most ↔ m.registry.Tracks most m.creations ∧
    ∀ f ∈ m.frames, f.collects = true ↔ f.below.frames = []
  := by
  cases m with
  | halted outcome w =>
    constructor
    · intro h
      use h
      simp [frames]
    · intro h
      exact h.1
  | running _ stack _ | tearing _ _ stack _ | unwinding _ stack _ =>
    constructor
    · rintro ⟨tracks, collects⟩
      use tracks, Stack.collects_iff.mp collects
    · rintro ⟨tracks, collects⟩
      use tracks, Stack.collects_iff.mpr collects

/-! ### What a step does to creations -/

/-- What a step may do to the creations that are under way, and to what the registry knows of them.
-/
inductive Effect (host : Host φ δ μ) (m m' : Machine φ δ μ α) : Prop
  /-- Both stay as they are. -/
  | stays (aside : m.settingAside? = none) (frames : m'.frames = m.frames)
      (still : m.registry.Still m'.registry)
  /-- A failure is set aside. -/
  | suppresses (e : Error) (aside : m.settingAside? = some e) (frames : m'.frames = m.frames)
      (registry : m'.registry = m.registry.suppress e)
  /-- An exemption changes. -/
  | exempts (n : Name) (b : Bool) (aside : m.settingAside? = none)
      (keeps : m.KeepsExemptions → m.creations = []) (frames : m'.frames = m.frames)
      (registry : m'.registry = (m.registry.edit (.setExempt n b)).1)
  /-- A creation begins. -/
  | begins {ρ : Role} (n : Name) (factory : φ)
      (resume : Except Error Materialized → Client φ δ μ (ρ.Result α)) (below : Stack φ δ μ α ρ)
      (w : World φ δ μ) (collects : Bool)
      (running : m = running (.create n factory resume) below w)
      (admitted : w.registry.beginCreation n = .admitted collects m'.registry)
      (frames : m'.frames = below.frames ++ [⟨n, collects, resume, below⟩])
  /-- A creation is broken off before it is under way; the registry takes it for one that is. -/
  | spills (n : Name) (collects : Bool) (spills : m.Spills host)
      (admitted : m.registry.beginCreation n = .admitted collects m'.registry)
      (frames : m'.frames = m.frames)
  /-- The innermost creation ends. -/
  | ends (f : Frame φ δ μ α) (aside : m.settingAside? = none) (frames : m.frames = m'.frames ++ [f])
      (below : f.below.frames = m'.frames)
      (still : (m.registry.leave f.name f.collects).1.Still m'.registry)
      (ending : m.ending? = some (f.name, f.collects))

variable {ρ : Role} {stack : Stack φ δ μ α ρ} {w : World φ δ μ}

/-- A request for a creation begins it, or spills, or has no effect on creations. -/
theorem effect_startCreation (host : Host φ δ μ) (n : Name) (factory : φ)
    (resume : Except Error Materialized → Client φ δ μ (ρ.Result α)) (stack : Stack φ δ μ α ρ)
    (w : World φ δ μ) :
  Effect host (running (.create n factory resume) stack w)
    (startCreation host n factory resume stack w)
  := by
  unfold startCreation
  split
  · exact .stays rfl rfl ⟨rfl, rfl⟩
  · exact .stays rfl rfl ⟨rfl, rfl⟩
  · rename_i collects r admitted
    apply announcing_of (P := Effect host _)
    · intro _
      exact .begins n factory resume stack w collects rfl admitted rfl
    · intro p loud
      refine .spills n collects ⟨⟨collects, r, admitted⟩, ?_⟩ admitted rfl
      exact Option.isSome_iff_exists.mpr ⟨p, loud⟩

/-- The end of a creation ends the innermost one. -/
theorem effect_finishCreation (host : Host φ δ μ) (n : Name) (collects : Bool)
    (outcome : Except Error Ref)
    (resume : Except Error Materialized → Client φ δ μ (ρ.Result α)) (stack : Stack φ δ μ α ρ)
    (w : World φ δ μ) :
  Effect host (@running φ δ μ α .maker (.done outcome) (.creating n collects resume stack) w)
    (finishCreation host n collects outcome resume stack w)
  := by
  let f : Frame φ δ μ α := ⟨n, collects, resume, stack⟩
  simp only [finishCreation]
  split
  · exact .ends f rfl rfl rfl ⟨rfl, rfl⟩ rfl
  · split
    · exact .ends f rfl rfl rfl ⟨rfl, rfl⟩ rfl
    · apply announcing_of (P := Effect host _)
      · intro _
        exact .ends f rfl rfl rfl ⟨rfl, rfl⟩ rfl
      · intro _ _
        exact .ends f rfl rfl rfl ⟨rfl, rfl⟩ rfl
    · apply announcing_of (P := Effect host _)
      · intro _
        exact .ends f rfl rfl rfl ⟨rfl, rfl⟩ rfl
      · intro _ _
        exact .ends f rfl rfl rfl ⟨rfl, rfl⟩ rfl

/-- To look a name up has no effect on creations. -/
theorem effect_startLookup (host : Host φ δ μ) (n : Name) (early : Bool)
    (resume : Except Error (Option Ref) → Client φ δ μ (ρ.Result α)) (stack : Stack φ δ μ α ρ)
    (w : World φ δ μ) :
  Effect host (running (.lookup n early resume) stack w) (startLookup host n early resume stack w)
  := by
  unfold startLookup
  split
  · exact .stays rfl rfl ⟨rfl, rfl⟩
  · rename_i hs
    exact .stays rfl rfl (Registry.still_of_pending hs)

/-- The notice of a disposal changes nothing. -/
theorem effect_finishDisposal {m : Machine φ δ μ α} (aside : m.settingAside? = none)
    (frames : m.frames = stack.frames) (registry : m.registry = w.registry) (notice : Notice)
    (tasks : List (Task δ)) (resume : Unit → Client φ δ μ (ρ.Result α)) :
  Effect host m (finishDisposal host notice tasks resume stack w)
  := by
  have still : m.registry.Still w.registry := by
    rw [registry]
    exact ⟨rfl, rfl⟩
  apply announcing_of (P := Effect host m)
  · intro _
    exact .stays aside frames.symm still
  · intro _ _
    exact .stays aside frames.symm still

/-- A program that returns ends the innermost creation, if it serves one. -/
theorem effect_finish (host : Host φ δ μ) (a : ρ.Result α) (stack : Stack φ δ μ α ρ)
    (w : World φ δ μ) :
  Effect host (running (.done a) stack w) (finish host a stack w)
  := by
  cases stack with
  | base => exact .stays rfl rfl ⟨rfl, rfl⟩
  | creating n collects resume below => apply effect_finishCreation
  | producing n producer resume below =>
    rcases a with e | i
    · exact .stays rfl rfl (w.registry.still_restore n producer)
    · exact .stays rfl rfl ⟨rfl, rfl⟩
  | disposing n tasks resume below =>
    rcases a with text | u
    · exact effect_finishDisposal rfl rfl rfl _ _ _
    · exact effect_finishDisposal rfl rfl rfl _ _ _
  | protecting resume below => exact .stays rfl rfl ⟨rfl, rfl⟩

/-- A panic that unwinds a frame breaks the innermost creation off, if it serves one. -/
theorem effect_unwind (host : Host φ δ μ) (p : Panic) (stack : Stack φ δ μ α ρ)
    (w : World φ δ μ) :
  Effect host (unwinding p stack w) (unwind host p stack w)
  := by
  cases stack with
  | creating n collects resume below =>
    exact .ends ⟨n, collects, resume, below⟩ rfl rfl rfl ⟨rfl, rfl⟩ rfl
  | disposing n tasks resume below => exact effect_finishDisposal rfl rfl rfl _ _ _
  | base | producing | protecting => exact .stays rfl rfl ⟨rfl, rfl⟩

/-- A request that is answered at once sets a failure aside, changes an exemption, or has no effect
on creations. -/
theorem effect_edit (host : Host φ δ μ) (e : Edit φ δ)
    (next : e.Answer → Client φ δ μ (ρ.Result α)) (stack : Stack φ δ μ α ρ) (w : World φ δ μ) :
  Effect host (running (.edit e next) stack w)
    (running (next (w.registry.edit e).2) stack { w with registry := (w.registry.edit e).1 })
  := by
  cases e with
  | suppress e => exact .suppresses e rfl rfl rfl
  | setExempt n b => exact .exempts n b rfl id rfl rfl
  | bind | publish | remove | depend | contain | onDestroy =>
    refine .stays rfl rfl (Registry.still_edit _ _ ?_ ?_)
    · rintro _ _ ⟨⟩
    · rintro _ ⟨⟩

/-- Each step does one of these things to the creations that are under way. -/
theorem effect_step (host : Host φ δ μ) (m : Machine φ δ μ α) :
  Effect host m (m.step host)
  := by
  cases m with
  | halted outcome w => exact .stays rfl rfl ⟨rfl, rfl⟩
  | unwinding p stack w => apply effect_unwind
  | tearing tasks resume stack w =>
    cases tasks with
    | nil => exact .stays rfl rfl ⟨rfl, rfl⟩
    | cons task tasks => cases task <;> exact .stays rfl rfl ⟨rfl, rfl⟩
  | @running ρ c stack w =>
    cases c with
    | done a => apply effect_finish
    | edit e next => apply effect_edit
    | lookup n early next => apply effect_startLookup
    | create n factory next => apply effect_startCreation
    | panic | view | revise | destroy | destroyAll | protect => exact .stays rfl rfl ⟨rfl, rfl⟩

/-! ### Runs in which nothing spills -/

/-- The registry keeps track of the creations with every step that does not spill. -/
theorem Tracked.next {m : Machine φ δ μ α} (h : m.Tracked most) (sure : ¬ m.Spills host)
    (keeps : m.KeepsExemptions) :
  (m.step host).Tracked most
  := by
  obtain ⟨tracks, collects⟩ := tracked_iff.mp h
  apply tracked_iff.mpr
  cases effect_step host m with
  | stays _ frames still =>
    rw [creations_eq, frames, ← creations_eq]
    use tracks.steady still.steady, collects
  | suppresses e _ frames registry =>
    rw [creations_eq, frames, ← creations_eq, registry]
    use tracks.steady ⟨rfl, Option.isSome_map⟩, collects
  | exempts n b _ hk frames registry =>
    rw [creations_eq, frames, ← creations_eq, registry, hk keeps]
    rw [hk keeps] at tracks
    use tracks.setExempt n b, collects
  | begins n factory resume below w collects' running admitted frames =>
    subst running
    obtain ⟨tracks, hc⟩ := tracks.admitted admitted
    rw [creations_eq, frames, List.map_append, ← Stack.creations_eq]
    use tracks
    intro f hf
    obtain hf | hf := List.mem_append.mp hf
    · apply collects f hf
    · rw [List.mem_singleton.mp hf]
      apply hc.trans Stack.creations_eq_nil_iff
  | spills n collects' spills => exact absurd spills sure
  | ends f _ frames below still =>
    rw [creations_eq, frames, List.map_append] at tracks
    rw [frames] at collects
    have hc := collects f (by simp)
    rw [below, ← List.map_eq_nil_iff (f := Frame.name)] at hc
    rw [creations_eq]
    use (tracks.leave hc).2.steady still.steady
    intro g hg
    apply collects g (List.mem_append_left _ hg)

/-- In a run in which nothing spills and no exemption changes the registry knows of the creations
under way. -/
theorem Tracked.after {m : Machine φ δ μ α} (h : m.Tracked most) {k : Nat}
    (sure : ∀ j < k, ¬ (runFor host j m).Spills host)
    (keeps : ∀ j < k, (runFor host j m).KeepsExemptions) :
  (runFor host k m).Tracked most
  := by
  induction k generalizing m with
  | zero => apply h
  | succ k ih =>
    rw [runFor_succ]
    apply ih (h.next (sure 0 (Nat.succ_pos k)) (keeps 0 (Nat.succ_pos k)))
    · intro j hj
      rw [← runFor_succ]
      apply sure (j + 1) (Nat.succ_lt_succ hj)
    · intro j hj
      rw [← runFor_succ]
      apply keeps (j + 1) (Nat.succ_lt_succ hj)

/-- The registry keeps track of the creations with every step, if no one who hears a notice panics.
-/
theorem Tracked.step (calm : host.Calm) {m : Machine φ δ μ α} (h : m.Tracked most)
    (keeps : m.KeepsExemptions) :
  (m.step host).Tracked most
  := h.next (not_spills calm m) keeps

/-- The registry keeps track of the creations throughout a run. -/
theorem Tracked.runFor (calm : host.Calm) {m : Machine φ δ μ α} (h : m.Tracked most) {k : Nat}
    (keeps : ∀ j < k, (runFor host j m).KeepsExemptions) :
  (runFor host k m).Tracked most
  := h.after (fun _ _ => not_spills calm _) keeps

/-- What the registry knows is about the creations that can be told from the stack. -/
theorem Tracked.tracks {m : Machine φ δ μ α} (h : m.Tracked most) :
  m.registry.Tracks most m.creations
  := by
  cases m with
  | halted outcome w => apply h
  | running | tearing | unwinding => apply Stack.Tracked.tracks h

/-- A creation that ends has begun. -/
theorem Tracked.leave {m : Machine φ δ μ α} (h : m.Tracked most) {collects : Bool}
    (he : m.ending? = some (n, collects)) :
  (m.registry.leave n collects).2 = none
  := by
  unfold ending? at he
  split at he
  · obtain ⟨rfl, rfl⟩ := Prod.mk.inj (Option.some.inj he)
    apply (Stack.Tracked.leave h).1
  · obtain ⟨rfl, rfl⟩ := Prod.mk.inj (Option.some.inj he)
    apply (Stack.Tracked.leave h).1
  · cases he

end Machine

/-! ### Agreement -/

namespace Registry

/-- No creation is under way. -/
structure AtRest (r : Registry φ δ) : Prop where
  inCreation : r.guard.inCreation = ∅
  depth : r.guard.depth = 0
  suppressed : r.suppressed = none

/-- In a new registry no creation is under way. -/
theorem atRest_fresh (s : Settings) :
  (fresh s : Registry φ δ).AtRest
  := ⟨rfl, rfl, rfl⟩

variable {r : Registry φ δ}

/-- A registry at rest tracks no creation. -/
theorem AtRest.tracks (h : r.AtRest) :
  r.Tracks r.guard.limit []
  := by
  constructor
  · refine ⟨?_, h.depth, rfl, Nat.zero_le _⟩
    rw [h.inCreation]
    rfl
  · simp [h.suppressed]

/-- A registry that tracks no creation is at rest. -/
theorem Tracks.atRest (h : r.Tracks most []) :
  r.AtRest
  := by
  constructor
  · apply Roster.ext h.guard.inCreation
  · apply h.guard.depth
  · simpa using h.suppressed

/-- A creation is admitted if the name is unbound and no other creation is under way. -/
theorem Tracks.begins (h : r.Tracks most []) (room : most ≠ 0) (peace : r.inDestruction = false)
    (unbound : r.finished.get? n = none) :
  ∃ r', r.beginCreation n = .admitted true r' ∧ r'.Tracks most [n] ∧ r'.inDestruction = false ∧
    r'.finished = r.finished
  := by
  have admitted : ∃ r', r.beginCreation n = .admitted true r' := by
    have space : ¬ r.guard.limit ≤ r.guard.depth := by
      rw [h.guard.limit, h.guard.depth]
      apply mt Nat.le_zero.mp room
    have outside : n ∉ r.guard.inCreation := by
      rw [Roster.mem_iff, h.guard.inCreation]
      apply List.not_mem_nil
    simp only [beginCreation, unbound, peace, Guard.enter, if_neg space, if_neg outside,
      h.atRest.suppressed]
    by_cases exempt : n ∈ r.guard.exempt
    · rw [if_pos exempt]
      exact ⟨_, rfl⟩
    · rw [if_neg exempt]
      exact ⟨_, rfl⟩
  obtain ⟨r', ha⟩ := admitted
  use r', ha, (h.admitted ha).1
  obtain ⟨-, -, guard, suppressed, -, -, -, rfl⟩ := of_admitted ha
  use peace

end Registry

/-- What the registry says about the creations under way at a moment of a run agrees with the
stack. -/
structure Machine.Agrees (most : Nat) (m : Machine φ δ μ α) : Prop where
  /-- The names in creation are those on the stack that are not exempt, the outermost in front. -/
  names : m.registry.guard.inCreation.toList
    = m.creations.filter (· ∉ m.registry.guard.exempt)
  /-- None of them is on the stack twice. -/
  nodup : (m.creations.filter (· ∉ m.registry.guard.exempt)).Nodup
  /-- The depth is the number of creations on the stack. -/
  depth : m.registry.guard.depth = m.creations.length
  /-- The creations are not nested too deep. -/
  bound : m.registry.guard.depth ≤ most
  /-- The bound is the one that the guard goes by. -/
  limit : m.registry.guard.limit = most
  /-- Failures can be set aside while there is a creation that collects them. -/
  suppressed : m.registry.suppressed.isSome = true ↔ m.creations ≠ []
  /-- A creation that ends had begun. -/
  ending : ∀ n collects, m.ending? = some (n, collects) → (m.registry.leave n collects).2 = none
  /-- When no creation is left, the registry is at rest again. -/
  rest : m.creations = [] → m.registry.AtRest

/-- At every moment of a run that begins at rest, the registry and the stack agree about the
creations under way, whatever callbacks do, as long as no one who hears a notice panics and
exemptions change only while nothing is created. -/
theorem creations_agree (calm : host.Calm) (c : Client φ δ μ α) (w : World φ δ μ)
    (rest : w.registry.AtRest) (k : Nat)
    (keeps : ∀ j < k, (runFor host j (start c w)).KeepsExemptions) :
  (runFor host k (start c w)).Agrees w.registry.guard.limit
  := by
  have begins : (start c w).Tracked w.registry.guard.limit := ⟨rest.tracks, trivial⟩
  have h := begins.runFor calm keeps
  have guard := h.tracks.guard
  constructor
  case names => apply guard.inCreation
  case nodup =>
    rw [← Guard.noted, ← guard.inCreation]
    apply Roster.nodup
  case depth => apply guard.depth
  case bound =>
    rw [guard.depth]
    apply guard.bound
  case limit => apply guard.limit
  case suppressed => apply h.tracks.suppressed
  case ending =>
    intro n collects he
    apply h.leave he
  case rest =>
    intro hm
    have tracks := h.tracks
    rw [hm] at tracks
    apply tracks.atRest

/-- Shells within shells; the innermost one panics. -/
def Host.shells : Host Nat Unit Unit where
  make
    | 0 => .panic .other
    | k + 1 => .create "shell" k fun outcome => .done (outcome.map Materialized.ref)
  dispose _ := .done (.ok ())
  hear _ m := (none, m)

/-- The moment of a run at which the panic of the innermost shell begins to unwind. -/
def Machine.shells : Machine Nat Unit Unit (Except Error Materialized) :=
  runFor .shells 4 (start (.create "root" 2 .done) ⟨.fresh ⟨true, 4, ["shell"], false⟩, ()⟩)

/-- The two shells are exempt, so that only the root is in creation by name, and the innermost shell
can be left. -/
theorem creations_agree_shells :
  Machine.shells.creations = ["root", "shell", "shell"] ∧
    Machine.shells.registry.guard.inCreation.toList = ["root"] ∧
    Machine.shells.registry.guard.depth = 3 ∧
    (Machine.shells.registry.leave "shell" false).2 = none
  := by
  have keeps : ∀ j < 4, (runFor .shells j (start (.create "root" 2 .done)
      ⟨.fresh ⟨true, 4, ["shell"], false⟩, ()⟩) :
      Machine Nat Unit Unit (Except Error Materialized)).KeepsExemptions := by
    intro j hj
    obtain rfl | rfl | rfl | rfl : j = 0 ∨ j = 1 ∨ j = 2 ∨ j = 3 := by omega
    all_goals trivial
  have h : Machine.shells.Agrees 4 := creations_agree (fun _ _ => rfl) _ _
    (Registry.atRest_fresh _) 4 keeps
  refine ⟨rfl, h.names, h.depth, h.ending "shell" false rfl⟩

end Componentry
