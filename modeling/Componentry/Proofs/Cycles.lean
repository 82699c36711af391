import Componentry.Proofs.Wiring

/-!
# Resolving the components of a wired graph

What becomes of a request in a wired container depends on the graph alone.  If components in
creation are offered as early references whenever requests are made, every request succeeds.  If
they are never offered at such a moment, a request succeeds exactly when no cycle can be reached
from its component.  In either case the components that are finished are those that can be
reached.
-/

namespace Componentry

open Attempt Relation

variable {κ σ α : Type} {crew : Crew κ σ} {c : Container κ}
  {definitions : Catalog (Definition κ)} {g : Wiring} {early : Prop} {w₀ w w' : Situation κ σ}
  {n d : Name} {i : Ref} {phase : Phase} {met : Name → Prop}

/-- Resolving a name comes out as the graph says, whenever at most `k` creations may still be
nested. -/
def Conducts (crew : Crew κ σ) (c : Container κ) (definitions : Catalog (Definition κ))
    (g : Wiring) (early : Prop) (k : Nat) : Prop :=
  ∀ (w : Situation κ σ) (d : Name),
    c.settings.maxCreationDepth ≤ w.registry.guard.depth + k → Sound c noGap w →
    Kept definitions g early w → Reaching definitions g early d w →
    Meets (crew.host c) w (c.resolveAlone d) (fun _ => Grown definitions g early d w)
      (Refused definitions g early d)

/-- The construction of `n` is under way, but a cycle was found that can be reached from `n`. -/
structure Stuck (c : Container κ) (definitions : Catalog (Definition κ)) (g : Wiring)
    (early : Prop) (w₀ : Situation κ σ) (n : Name) (e : Error) (w : Situation κ σ) : Prop where
  underway : ∃ phase, Underway c w₀ n phase w
  refused : Refused definitions g early n e w

/-- What an errand of `n` has come to, which asks for the names in `all`. -/
inductive Advance (c : Container κ) (definitions : Catalog (Definition κ)) (g : Wiring)
    (early : Prop) (w₀ : Situation κ σ) (n : Name) (phase : Phase) (met : Name → Prop)
    (all : List Name) : Errand κ σ α → Situation κ σ → Prop
  /-- It asks for the names that are due, and has met the others. -/
  | asking {e : Errand κ σ α} {w : Situation κ σ} (due : List Name) (asks : e.Asks all due)
      (passes : ¬ early → e.PassesOn)
      (progress : Progress c definitions g early w₀ n phase
        (fun m => met m ∨ (m ∈ all ∧ m ∉ due)) w) :
      Advance c definitions g early w₀ n phase met all e w
  /-- It has failed, since a request has failed. -/
  | failed {cause : Error} {w : Situation κ σ}
      (stuck : Stuck c definitions g early w₀ n cause w) :
      Advance c definitions g early w₀ n phase met all (.done (.error cause)) w

/-- An errand that has not begun asks for all its names. -/
theorem Advance.begin {all : List Name} {e : Errand κ σ α} (asks : e.Asks all all)
    (passes : ¬ early → e.PassesOn) (h : Progress c definitions g early w₀ n phase met w) :
  Advance c definitions g early w₀ n phase met all e w
  := by
  apply Advance.asking all asks passes
  apply h.mono
  rintro m (hm | ⟨hm, hm'⟩)
  · apply hm
  · apply absurd hm hm'

/-- A name that is asked for is due no more. -/
theorem Errand.met_of_filter {all due : List Name} {m : Name}
    (h : met m ∨ (m ∈ all ∧ m ∉ due.filter (· ≠ d))) :
  (met m ∨ (m ∈ all ∧ m ∉ due)) ∨ m = d
  := by
  rw [List.mem_filter, decide_eq_true_iff] at h
  tauto

/-- A component that needs another one, which was refused for a cycle, is refused for this cycle as
well. -/
theorem Refused.request {e : Error} (h : Refused definitions g early d e w) (hd : g.Needs n d) :
  Refused definitions g early n (.creation n e []) w
  where
  late := h.late
  kept := h.kept
  cycle := by
    obtain ⟨u, hu, hc, he⟩ := h.cycle
    use u, hu.head hd, hc
    rw [Error.root_creation, he]

namespace Conducts

variable {k : Nat}

/-- A request comes out as the graph says: the component is obtained, or a cycle was found. -/
theorem meets_request (hk : Conducts crew c definitions g early k)
    (plan : Plan crew c definitions g early)
    (hd : c.settings.maxCreationDepth ≤ w₀.registry.guard.depth + 1 + k)
    (h₀ : Reaching definitions g early n w₀) (hshow : phase = .offered ↔ early)
    (h : Progress c definitions g early w₀ n phase met w) (hn : g.Needs n d) :
  Meets (crew.host c) w (c.request n d)
    (fun i w' => Progress c definitions g early w₀ n phase (fun m => met m ∨ m = d)
      (w'.entering n d (some i)))
    (Stuck c definitions g early w₀ n)
  := by
  have hd' : c.settings.maxCreationDepth ≤ w.registry.guard.depth + k := by
    rw [h.underway.guard]
    apply hd
  have hr := h.reaching plan h₀ hshow hn
  apply Componentry.meets_request
  apply (((resolves crew c k).at_underway hd h.underway).and
    (hk w d hd' h.underway.sound h.kept hr)).mono
  · intro i w' hw
    obtain ⟨⟨hp, hs⟩, hg⟩ := hw
    have h' := h.passed hp hg hn
    apply h'.granted (h'.reaching plan h₀ hshow hn) hs hn
  · intro e w' hw
    obtain ⟨hp, he⟩ := hw
    use ⟨phase, h.underway.passed hp⟩
    apply he.request hn

/-- What is left of an errand asks for the names that are due, or fails since a request has
failed. -/
theorem meets_errand (hk : Conducts crew c definitions g early k)
    (plan : Plan crew c definitions g early)
    (hd : c.settings.maxCreationDepth ≤ w₀.registry.guard.depth + 1 + k)
    (h₀ : Reaching definitions g early n w₀) {all : List Name} (hall : ∀ d ∈ all, g.Needs n d)
    (hshow : all ≠ [] → (phase = .offered ↔ early)) (e : Errand κ σ α) (he : e.Asks all all)
    (hpass : ¬ early → e.PassesOn) (h : Progress c definitions g early w₀ n phase met w) :
  Meets (crew.host c) w (e.run c n)
    (fun _ => Progress c definitions g early w₀ n phase fun m => met m ∨ m ∈ all)
    (Stuck c definitions g early w₀ n)
  := by
  refine Errand.meets_run (Advance c definitions g early w₀ n phase met all)
    ?done ?consult ?revise ?get ?getOptional ?onDestroy e ?start
  case start => apply Advance.begin he hpass h
  case done =>
    intro outcome w h
    cases h with
    | asking due asks _ h =>
      -- no name is due any more, so that all have been met
      obtain ⟨rfl, a, rfl⟩ := asks
      apply h.mono
      intro m hm
      apply hm.imp_right
      intro hm
      use hm, List.not_mem_nil
    | failed h => apply h
  case consult =>
    intro next w h
    cases h with
    | asking due asks passes h => apply Advance.asking due (asks _) (fun he => passes he _) h
  case revise =>
    intro f next w h
    cases h with
    | asking due asks passes h =>
      apply Advance.asking due
      · apply asks
      · apply passes
      · apply h.alike (Alike.noting w _)
  case get =>
    intro d next w h
    cases h with
    | asking due asks passes h =>
      obtain ⟨hd', asks⟩ := asks
      have hshow := hshow (List.ne_nil_of_mem hd')
      apply (hk.meets_request plan hd h₀ hshow h (hall d hd')).mono
      · intro i w' h'
        apply Advance.asking (due.filter (· ≠ d)) (asks i) fun he => (passes he).2 i
        apply h'.mono
        intro m hm
        apply Errand.met_of_filter hm
      · intro cause w' h'
        -- the errand fails with the error of its request
        rw [(passes h'.refused.late).1 cause]
        apply Advance.failed h'
  case getOptional =>
    intro d next w h
    cases h with
    | asking due asks _ _ => cases asks
  case onDestroy =>
    intro k next w h
    cases h with
    | asking due asks passes h =>
      apply Advance.asking due
      · apply asks
      · apply passes
      · apply h.awaiting rfl

/-- The callback that wires an instance comes out as the graph says for the names it asks for. -/
theorem meets_wireWith (hk : Conducts crew c definitions g early k)
    (plan : Plan crew c definitions g early)
    (hd : c.settings.maxCreationDepth ≤ w₀.registry.guard.depth + 1 + k)
    (h₀ : Reaching definitions g early n w₀) {all : List Name} (hall : ∀ d ∈ all, g.Needs n d)
    (hshow : all ≠ [] → (phase = .offered ↔ early)) {k? : Option κ} (he : crew.Asks k? n all)
    (hpass : ¬ early → ∀ callback i, k? = some callback → (crew.wire callback n i).PassesOn)
    (i : Ref) (h : Progress c definitions g early w₀ n phase met w) :
  Meets (crew.host c) w (Container.wireWith (crew.behaviour c) k? n i)
    (fun _ => Progress c definitions g early w₀ n phase fun m => met m ∨ m ∈ all)
    (Stuck c definitions g early w₀ n)
  := by
  cases k? with
  | none =>
    obtain rfl : all = [] := he
    apply meets_pure
    apply h.mono
    rintro m (hm | hm)
    · apply hm
    · cases hm
  | some callback =>
    apply hk.meets_errand plan hd h₀ hall hshow _ (he i) _ h
    intro hearly
    apply hpass hearly callback i rfl

end Conducts

/-- An interceptor that passes instances through does not disturb a construction. -/
theorem Progress.meets_intercept (plan : Plan crew c definitions g early)
    (h : Progress c definitions g early w₀ n phase met w) {s : Stage} (hs : s ≠ .earlyReference)
    (i : Ref) {F : Error → Situation κ σ → Prop} :
  Meets (crew.host c) w (c.intercept (crew.behaviour c) s n i)
    (fun j w' => j = i ∧ Progress c definitions g early w₀ n phase met w') F
  := by
  apply Componentry.meets_intercept
  intro outcome own ho
  have hi := plan.wired.passes s n i w.memory.scratch.own hs
  rw [ho] at hi
  obtain rfl : outcome = .ok i := hi
  use rfl
  apply h.alike (Alike.noting w own)

namespace Conducts

variable {k : Nat}

section Construct

variable (hk : Conducts crew c definitions g early k) (plan : Plan crew c definitions g early)
  (hd : c.settings.maxCreationDepth ≤ w₀.registry.guard.depth + 1 + k)
  (h₀ : Reaching definitions g early n w₀) {definition : Definition κ}
  (hn : definitions.get? n = some definition)

include hk plan hd h₀ hn

/-- An instance is made when the names that are needed for it were obtained, or a cycle was found.
-/
theorem meets_instantiate (h : Progress c definitions g early w₀ n .preparing met w) :
  Meets (crew.host c) w ((crew.behaviour c).instantiate definition.instantiate n)
    (fun _ => Progress c definitions g early w₀ n .making fun m => met m ∨ m ∈ g.making n)
    (Stuck c definitions g early w₀ n)
  := by
  apply meets_bind
  apply meets_note
  apply hk.meets_errand plan hd h₀ _ _ _ (plan.wired.making n definition hn) _ h.begun
  · intro d hd
    left
    apply hd
  · intro hne
    apply iff_of_false _ (plan.making n hne)
    rintro ⟨⟩
  · intro he
    apply (plan.passing he).making n definition hn

/-- An instance is populated when the names that are needed for it were obtained, or a cycle was
found. -/
theorem meets_populate (h : Progress c definitions g early w₀ n c.lastPhase met w) (i : Ref) :
  Meets (crew.host c) w (Container.wireWith (crew.behaviour c) definition.populate n i)
    (fun _ => Progress c definitions g early w₀ n c.lastPhase
      fun m => met m ∨ m ∈ g.populating n)
    (Stuck c definitions g early w₀ n)
  := by
  apply hk.meets_wireWith plan hd h₀ _ _ (plan.wired.populating n definition hn) _ i h
  · intro d hd
    right
    left
    apply hd
  · intro hne
    apply Container.lastPhase_eq_offered_iff.trans (plan.populating n hne)
  · intro he callback i
    apply (plan.passing he).populating n definition callback i hn

/-- An instance is made ready when the names that are needed for it were obtained, or a cycle was
found. -/
theorem meets_ready (h : Progress c definitions g early w₀ n c.lastPhase met w) (i : Ref) :
  Meets (crew.host c) w (Container.wireWith (crew.behaviour c) definition.init n i)
    (fun _ => Progress c definitions g early w₀ n c.lastPhase fun m => met m ∨ m ∈ g.readying n)
    (Stuck c definitions g early w₀ n)
  := by
  apply hk.meets_wireWith plan hd h₀ _ _ (plan.wired.readying n definition hn) _ i h
  · intro d hd
    right
    right
    apply hd
  · intro hne
    apply Container.lastPhase_eq_offered_iff.trans (plan.readying n hne)
  · intro he callback i
    apply (plan.passing he).readying n definition callback i hn

/-- A construction succeeds when all that the component needs was obtained, or a cycle was found. -/
theorem meets_construct (h : Progress c definitions g early w₀ n .preparing met w) :
  Meets (crew.host c) w (c.construct (crew.behaviour c) n definition)
    (fun i w' => Complete c w₀ n i w' ∧
      Progress c definitions g early w₀ n c.lastPhase (g.Needs n) w')
    (Stuck c definitions g early w₀ n)
  := by
  apply Componentry.meets_construct
  rw [plan.wired.dependsOn n definition hn]
  apply meets_pure
  apply (hk.meets_instantiate plan hd h₀ hn h).mono _ fun _ _ => id
  intro raw w h
  use h.underway.isCurrentlyInCreation
  apply (hk.meets_populate plan hd h₀ hn (h.offering raw) raw).mono _ fun _ _ => id
  intro _ w h
  apply (h.meets_intercept plan (by rintro ⟨⟩) raw).mono _ fun _ _ => id
  rintro _ w ⟨rfl, h⟩
  apply (hk.meets_ready plan hd h₀ hn h _).mono _ fun _ _ => id
  intro _ w h
  apply (h.meets_intercept plan (by rintro ⟨⟩) _).mono _ fun _ _ => id
  rintro _ w ⟨rfl, h⟩
  apply h.underway.meets_settle
  · intro i hi
    use hi.arranging definition.dispose i
    apply (h.arranging definition.dispose i).mono
    rintro d (hd | hd | hd)
    · left
      left
      right
      apply hd
    · left
      right
      apply hd
    · right
      apply hd
  · intro hr
    apply absurd rfl hr

end Construct

/-- A creation comes out as the graph says, if those that are nested deeper do. -/
theorem meets_create (hk : ∀ j < k, Conducts crew c definitions g early j)
    (plan : Plan crew c definitions g early)
    (hd : c.settings.maxCreationDepth ≤ w.registry.guard.depth + k) (hs : Sound c noGap w)
    (h : Kept definitions g early w) (hr : Reaching definitions g early n w)
    {definition : Definition κ} (hn : definitions.get? n = some definition)
    (hf : w.registry.finished.get? n = none)
    (hidden : w.registry.IsInCreation n → c.settings.allowCircularReferences = true →
      ¬ w.registry.IsOffered n) :
  Meets (crew.host c) w (Attempt.create n (.component n definition))
    (fun _ => Grown definitions g early n w) (Refused definitions g early n)
  := by
  apply hs.meets_create (S := fun _ => Grown definitions g early n w) hf
  · intro hdeep
    apply absurd (h.depth_lt hs plan.room) (Nat.not_lt_of_le hdeep)
  · intro hc
    have late : ¬ early := by
      intro he
      apply hidden hc (plan.allowed he)
      apply (hr.shown n hc).mpr he
    use late, h
    use n, .refl, hr.chain n hc
    rfl
  · intro hlt hc v hv
    have absent : ¬ w.registry.IsPresent n := Registry.not_isPresent_iff.mpr ⟨hf, hc⟩
    obtain ⟨j, rfl⟩ : ∃ j, k = j + 1 := Nat.exists_eq_add_one_of_ne_zero (by omega)
    have hd : c.settings.maxCreationDepth ≤ w.registry.guard.depth + 1 + j := by omega
    apply ((hk j (Nat.lt_succ_self j)).meets_construct plan hd hr hn
      (Progress.begin hr.defined hs (fun _ _ => False.elim) h absent hv)).mono
    · intro i v hv
      obtain ⟨hv, hp⟩ := hv
      use hp.underway.finished_eq, hp.underway.guard
      intro w' hw'
      have kept := hp.kept.installing (i := i) hp.underway.guard (fun d hd => (hp.met d hd).1)
        fun he d hd => (hp.met d hd).2 he
      use kept.alike hw'
      intro m hm
      rcases World.isFinished_installing.mp (hw'.isFinished_iff.mp hm) with rfl | hm
      · right
        apply ReflTransGen.refl
      · apply hp.grown m hm
    · intro e v hv
      obtain ⟨⟨phase, hv⟩, he⟩ := hv
      use hv.guard, hv.sound.fits
      intro D v' w' causes _ _ hz hw'
      obtain ⟨u, hu, hc, hroot⟩ := he.cycle
      use he.late, (he.kept.abandoning hz hv.guard he.late).alike hw'
      use u, hu, hc
      rw [Error.root_withRelated, hroot]

/-- Resolving a name comes out as the graph says, if it does so with less room for nesting. -/
theorem of_lt (hk : ∀ j < k, Conducts crew c definitions g early j)
    (plan : Plan crew c definitions g early) :
  Conducts crew c definitions g early k
  := by
  intro w d hd hs h hr
  have grown : ∀ m, w.registry.IsFinished m →
      w.registry.IsFinished m ∨ ReflTransGen g.Needs d m := fun _ => .inl
  apply hs.meets_resolveAlone
  · intro i _
    use h
  · intro raw i own _ _ _
    constructor
    · apply Kept.congr h <;> rfl
    · apply grown
  · intro raw e own w' _ hp
    obtain ⟨j, hj⟩ := plan.wired.early d raw w.memory.scratch.own
    rw [hp] at hj
    cases hj
  · intro hm
    have hd := hr.defined
    rw [← h.filed, Catalog.contains, hm] at hd
    cases hd
  · intro definition hdef hf hidden
    rw [h.filed] at hdef
    apply meets_create hk plan hd hs h hr hdef hf hidden

end Conducts

/-- Resolving a name comes out as the graph says. -/
theorem conducts (plan : Plan crew c definitions g early) (k : Nat) :
  Conducts crew c definitions g early k
  := by
  induction k using Nat.strongRecOn with
  | _ k ih => apply Conducts.of_lt ih plan

/-! ### Calls for the components of a wired graph -/

/-- In a container that has just been opened nothing is finished, and all is as the graph says. -/
theorem Kept.opened (c : Container κ) (definitions : Catalog (Definition κ)) (g : Wiring)
    (early : Prop) (s : σ) :
  Kept definitions g early (c.opened definitions s)
  where
  filed := rfl
  defined n hn := absurd hn Roster.notMem_empty
  complete := by
    rintro n d ⟨i, ⟨⟩⟩
  needed := by
    rintro n d ⟨⟩
  holders _ n hn := absurd rfl hn
  grounded := by
    rintro _ n ⟨i, ⟨⟩⟩

/-- While no creation is under way, every name that is defined may be asked for. -/
theorem Idle.reaching (h : Idle c w) (hn : definitions.contains n = true) :
  Reaching definitions g early n w
  where
  defined := hn
  chain u hu := absurd hu (h.idle u)
  shown u hu := absurd hu (h.idle u)

/-- A call for a component of an idle container comes out as the graph says. -/
theorem Idle.meets_get (plan : Plan crew c definitions g early) (h : Idle c w)
    (hk : Kept definitions g early w) (hn : definitions.contains n = true) :
  Meets (crew.host c) w ((Call.get n).perform c)
    (fun i? w' => ∃ i, i? = some i ∧ w'.registry.finished.get? n = some i ∧ Passed c w w' ∧
      Grown definitions g early n w w')
    (fun e w' => Passed c w w' ∧ Refused definitions g early n e w')
  := by
  have hd := Nat.le_add_left c.settings.maxCreationDepth w.registry.guard.depth
  apply meets_map
  apply meets_resolve_none
  apply (((resolves crew c _).at_noGap hd h.sound).and
    (conducts plan _ w n hd h.sound hk (h.reaching hn))).mono
  · intro i w' hw
    obtain ⟨⟨hp, hs⟩, hg⟩ := hw
    use i, rfl, (h.passed hp).finished_of_stands hs, hp
  · intro e w' hw
    obtain ⟨hp, he⟩ := hw
    use hp

/-- Between calls, what a finished component needs is finished. -/
theorem Kept.isFinished_of_needs (h : Kept definitions g early w) (hw : Idle c w)
    (hn : w.registry.IsFinished n) (hd : g.Needs n d) :
  w.registry.IsFinished d
  := hw.isFinished_of_isFirm (hw.sound.firm n d (h.complete n d hn hd) (.inl hn))

/-- Between calls, the links are those that the finished components need. -/
theorem Kept.dependsOn_iff (h : Kept definitions g early w) (hw : Idle c w) :
  w.registry.DependsOn n d ↔ w.registry.IsFinished n ∧ g.Needs n d
  := by
  constructor
  · intro hd
    use hw.isFinished_of_isPresent (hw.sound.present n d hd)
    apply h.needed n d hd
  · rintro ⟨hn, hd⟩
    apply h.complete n d hn hd

/-- In an idle container everything that a finished component leads to is finished. -/
theorem Kept.isFinished_of_reached (h : Kept definitions g early w) (hw : Idle c w)
    (hn : w.registry.IsFinished n) (hd : ReflTransGen g.Needs n d) :
  w.registry.IsFinished d
  := by
  induction hd with
  | refl => apply hn
  | tail _ hd ih => apply h.isFinished_of_needs hw ih hd

/-- The components that are finished by a call are those that can be reached. -/
theorem Grown.isFinished_iff (h : Grown definitions g early n w w') (hw : Idle c w)
    (hp : Passed c w w') (hn : w'.registry.IsFinished n) {m : Name} :
  w'.registry.IsFinished m ↔ w.registry.IsFinished m ∨ ReflTransGen g.Needs n m
  := by
  constructor
  · apply h.grown m
  · rintro (hm | hm)
    · apply hp.spares.isFinished hm
    · apply h.kept.isFinished_of_reached (hw.passed hp) hn hm

/-! ### Graphs that are wired by setters -/

/-- Components ask for others only while they are populated. -/
def Wiring.IsSetter (g : Wiring) : Prop := ∀ n, g.making n = [] ∧ g.readying n = []

/-- If components ask for others only while they are populated, and may be handed out early, then
they are always offered when requests are made. -/
theorem Crew.Wired.plan_early (wired : crew.Wired c definitions g) (setter : g.IsSetter)
    (allowed : c.settings.allowCircularReferences = true)
    (room : definitions.size < c.settings.maxCreationDepth) :
  Plan crew c definitions g True
  where
  wired := wired
  room := room
  making n hn := absurd (setter n).1 hn
  populating _ _ := iff_of_true allowed trivial
  readying n hn := absurd (setter n).2 hn
  allowed _ := allowed
  passing h := absurd trivial h

/-- Requests for components of a graph that is wired by setters succeed, and what they finish is
kept. -/
theorem Kept.of_follows (plan : Plan crew c definitions g True) (h : Idle c w)
    (hk : Kept definitions g True w) {names : List Name}
    (asked : ∀ m ∈ names, definitions.contains m = true)
    (f : Call.Follows crew c w (names.map .get) w') :
  Kept definitions g True w'
  := by
  induction names generalizing w with
  | nil =>
    cases f
    apply hk
  | cons n names ih =>
    cases f with
    | cons e rest =>
      obtain ⟨o, v, ho, run⟩ :=
        (h.meets_get plan hk (asked n List.mem_cons_self)).runs
      obtain ⟨-, rfl⟩ := (run _ _).mp e
      cases o with
      | error e => apply absurd trivial ho.2.late
      | ok i? =>
        obtain ⟨i, -, -, hp, hg⟩ := ho
        apply ih (h.passed hp) hg.kept _ rest
        intro m hm
        apply asked m (List.mem_cons_of_mem n hm)

/-- Every graph that is wired by setters resolves, with cycles of any shape.  Whichever of its
components were asked for before, asking for one more succeeds and finishes exactly those that can
be reached from it; all instances that components have received are finished; and the links among
components are those of the graph, as far as it is finished. -/
theorem setter_wired_resolves (crew : Crew κ σ) (c : Container κ)
    (definitions : Catalog (Definition κ)) (g : Wiring) (wired : crew.Wired c definitions g)
    (setter : g.IsSetter) (hc : c.settings.exemptNames = [])
    (allowed : c.settings.allowCircularReferences = true)
    (room : definitions.size < c.settings.maxCreationDepth) (s : σ) {names : List Name}
    (asked : ∀ m ∈ names, definitions.contains m = true)
    (f : Call.Follows crew c (c.opened definitions s) (names.map .get) w)
    (hn : definitions.contains n = true) :
  ∃ i w', (∀ o v, (Call.get n).Ends crew c w o v ↔ o = .ok (.ok (some i)) ∧ v = w') ∧
    w'.registry.finished.get? n = some i ∧
    (∀ m, w'.registry.IsFinished m ↔ w.registry.IsFinished m ∨ ReflTransGen g.Needs n m) ∧
    (∀ m d j, (d, j) ∈ w'.obtained m → w'.registry.finished.get? d = some j) ∧
    (∀ d m, w'.registry.graph.dependents.has d m = true ↔
      w'.registry.IsFinished d ∧ w'.registry.IsFinished m ∧ g.Needs m d)
  := by
  have plan := wired.plan_early setter allowed room
  have opened := c.idle_opened hc definitions s
  have h := opened.of_follows f
  have hk := (Kept.opened c definitions g True s).of_follows plan opened asked f
  obtain ⟨outcome, w', ho, run⟩ := (h.meets_get plan hk hn).runs
  cases outcome with
  -- a request is refused only if nothing is offered when it is made
  | error e => apply absurd trivial ho.2.late
  | ok i? =>
    obtain ⟨i, rfl, hi, hp, hg⟩ := ho
    have h' := h.passed hp
    use i, w', run, hi
    constructor
    · intro m
      apply hg.isFinished_iff h hp ⟨i, hi⟩
    constructor
    · intro m d j hj
      have hm : w'.registry.IsFinished m := by
        apply h'.isFinished_of_isPresent
        apply hg.kept.holders trivial m
        apply List.ne_nil_of_mem hj
      apply h'.finished_of_stands (h'.sound.held m d j hm hj).2
    · intro d m
      apply (hg.kept.dependsOn_iff h').trans
      constructor
      · rintro ⟨hm, need⟩
        use hg.kept.isFinished_of_needs h' hm need
      · rintro ⟨-, hm, need⟩
        use hm

/-- A ring of two components, which ask for each other while they are populated. -/
def Wiring.ring : Wiring :=
  ⟨fun _ => [], fun n => if n = "a" then ["b"] else ["a"], fun _ => []⟩

/-- The definitions of the ring. -/
def Catalog.ring : Catalog (Definition (List Name)) :=
  ofList [("a", .asking "a" [] ["b"]), ("b", .asking "b" [] ["a"])]

/-- The crew that asks for names is wired as the ring. -/
theorem Wiring.wired_ring :
  Crew.asking.Wired .small Catalog.ring ring
  := by
  apply Crew.wired_asking
  · intro n d hd
    have hm : (n, d) ∈ [("a", Definition.asking "a" [] ["b"]), ("b", .asking "b" [] ["a"])] :=
      Catalog.mem_entries_of_get? hd
    simp only [List.mem_cons, List.not_mem_nil, or_false, Prod.mk.injEq] at hm
    rcases hm with ⟨rfl, rfl⟩ | ⟨rfl, rfl⟩ <;> rfl
  · intro n
    rfl
  · rintro n d - (hd | hd | hd)
    · cases hd
    · change d ∈ if n = "a" then ["b"] else ["a"] at hd
      split at hd <;> rw [List.mem_singleton.mp hd] <;> rfl
    · cases hd

/-- One component of a ring finishes the other one. -/
theorem setter_wired_resolves_ring :
  ∃ i w', (Call.get "a").Ends Crew.asking .small (Container.small.opened .ring 0)
      (.ok (.ok (some i))) w' ∧
    w'.registry.IsFinished "b" ∧ w'.registry.graph.dependents.has "a" "b" = true
  := by
  have asked : ∀ m ∈ ([] : List Name), Catalog.ring.contains m = true := by simp
  obtain ⟨i, w', run, -, finished, -, links⟩ := setter_wired_resolves Crew.asking .small .ring .ring
    Wiring.wired_ring (fun _ => ⟨rfl, rfl⟩) rfl rfl (by decide) 0 asked (Call.Follows.nil _)
    (n := "a") rfl
  have ab : Wiring.ring.Needs "a" "b" := .inr (.inl (by decide))
  have ba : Wiring.ring.Needs "b" "a" := .inr (.inl (by decide))
  have hb := (finished "b").mpr (.inr (.single ab))
  have ha := (finished "a").mpr (.inr .refl)
  use i, w', (run _ _).mpr ⟨rfl, rfl⟩, hb, (links "a" "b").mpr ⟨ha, hb, ba⟩

/-! ### Graphs with cycles that cannot be resolved -/

/-- No cycle can be reached from a component that is grounded. -/
theorem Wiring.not_cyclic_of_acc (h : Acc (fun d n => g.Needs n d) n) :
  ¬ g.Cyclic n
  := by
  induction h with
  | intro n _ ih =>
    rintro ⟨u, p, hc⟩
    rcases p.cases_head with rfl | ⟨d, hd, p⟩
    · obtain ⟨d, hd, p⟩ := TransGen.head'_iff.mp hc
      apply ih d hd
      use n, p
    · apply ih d hd
      use u, p

/-- If components ask for others only while they are made, or may not be handed out early, then they
are never offered when requests are made. -/
theorem Crew.Wired.plan_late (wired : crew.Wired c definitions g)
    (passing : crew.PassesOn definitions)
    (mode : (∀ n, g.populating n = [] ∧ g.readying n = []) ∨
      c.settings.allowCircularReferences = false)
    (room : definitions.size < c.settings.maxCreationDepth) :
  Plan crew c definitions g False
  := by
  have later : ∀ n, g.populating n ≠ [] ∨ g.readying n ≠ [] →
      (c.settings.allowCircularReferences = true ↔ False) := by
    intro n hn
    apply iff_of_false _ id
    rcases mode with mode | mode
    · rcases hn with hn | hn
      · apply absurd (mode n).1 hn
      · apply absurd (mode n).2 hn
    · rw [mode]
      apply Bool.false_ne_true
  constructor
  case wired => apply wired
  case room => apply room
  case making =>
    intro n _
    apply id
  case populating =>
    intro n hn
    apply later n (.inl hn)
  case readying =>
    intro n hn
    apply later n (.inr hn)
  case allowed => apply False.elim
  case passing =>
    intro _
    apply passing

/-- If components in creation are never offered when requests are made, a component of a fresh
container resolves exactly if no cycle can be reached from it.  Then those components are finished
that can be reached from it.  Otherwise the request fails for a component on such a cycle, and no
component is finished from which a cycle can be reached. -/
theorem resolves_iff_acyclic (crew : Crew κ σ) (c : Container κ)
    (definitions : Catalog (Definition κ)) (g : Wiring) (wired : crew.Wired c definitions g)
    (passing : crew.PassesOn definitions)
    (mode : (∀ n, g.populating n = [] ∧ g.readying n = []) ∨
      c.settings.allowCircularReferences = false)
    (hc : c.settings.exemptNames = [])
    (room : definitions.size < c.settings.maxCreationDepth) (s : σ)
    (hn : definitions.contains n = true) :
  ∃ outcome w', (∀ o v, (Call.get n).Ends crew c (c.opened definitions s) o v ↔
      o = .ok outcome ∧ v = w') ∧
    ((∃ i?, outcome = .ok i?) ↔ ¬ g.Cyclic n) ∧
    (∀ i?, outcome = .ok i? → ∀ m, w'.registry.IsFinished m ↔ ReflTransGen g.Needs n m) ∧
    (∀ e, outcome = .error e → e.isCurrentlyInCreation = true ∧
      (∃ u, e.root = .currentlyInCreation u ∧ ReflTransGen g.Needs n u ∧ TransGen g.Needs u u) ∧
      ∀ m, g.Cyclic m → ¬ w'.registry.IsFinished m)
  := by
  have h := c.idle_opened hc definitions s
  obtain ⟨outcome, w', ho, run⟩ := (h.meets_get (wired.plan_late passing mode room)
    (Kept.opened c definitions g False s) hn).runs
  use outcome, w', run
  cases outcome with
  | ok i? =>
    obtain ⟨i, rfl, hi, hp, hg⟩ := ho
    refine ⟨iff_of_true ⟨some i, rfl⟩ ?_, ?_, ?_⟩
    · apply Wiring.not_cyclic_of_acc
      apply hg.kept.grounded id n ⟨i, hi⟩
    -- nothing was finished before
    · intro _ _ m
      apply (hg.isFinished_iff h hp ⟨i, hi⟩).trans
      apply or_iff_right
      rintro ⟨j, ⟨⟩⟩
    · rintro e ⟨⟩
  | error e =>
    obtain ⟨hp, he⟩ := ho
    obtain ⟨u, hu, hcycle, hroot⟩ := he.cycle
    refine ⟨iff_of_false ?_ ?_, ?_, ?_⟩
    · rintro ⟨i?, ⟨⟩⟩
    · intro hcyclic
      apply hcyclic
      use u, hu
    · rintro i? ⟨⟩
    · rintro _ ⟨⟩
      refine ⟨?_, ⟨u, hroot, hu, hcycle⟩, ?_⟩
      · rw [Error.isCurrentlyInCreation, hroot]
      · intro m hm hf
        apply Wiring.not_cyclic_of_acc (he.kept.grounded id m hf) hm

/-- A component that asks for another one, which asks for itself, while they are made. -/
def Wiring.knot : Wiring := ⟨fun _ => ["b"], fun _ => [], fun _ => []⟩

/-- The definitions of the knot. -/
def Catalog.knot : Catalog (Definition (List Name)) :=
  ofList [("a", .asking "a" ["b"] []), ("b", .asking "b" ["b"] [])]

/-- The crew that asks for names is wired as the knot. -/
theorem Wiring.wired_knot :
  Crew.asking.Wired .small Catalog.knot knot
  := by
  apply Crew.wired_asking
  · intro n d hd
    have hm : (n, d) ∈ [("a", Definition.asking "a" ["b"] []), ("b", .asking "b" ["b"] [])] :=
      Catalog.mem_entries_of_get? hd
    simp only [List.mem_cons, List.not_mem_nil, or_false, Prod.mk.injEq] at hm
    rcases hm with ⟨rfl, rfl⟩ | ⟨rfl, rfl⟩ <;> rfl
  · intro n
    rfl
  · rintro n d - (hd | hd | hd)
    · rw [List.mem_singleton.mp hd]
      rfl
    · cases hd
    · cases hd

/-- A component of a knot cannot be resolved, and none of them is left. -/
theorem resolves_iff_acyclic_knot :
  ∃ e w', (Call.get "a").Ends Crew.asking .small (Container.small.opened .knot 0)
      (.ok (.error e)) w' ∧
    e.isCurrentlyInCreation = true ∧ ¬ w'.registry.IsFinished "a" ∧ ¬ w'.registry.IsFinished "b"
  := by
  obtain ⟨outcome, w', run, granted, -, failed⟩ := resolves_iff_acyclic Crew.asking .small .knot
    .knot Wiring.wired_knot (Crew.passesOn_asking _) (.inl fun _ => ⟨rfl, rfl⟩) rfl (by decide) 0
    (n := "a") rfl
  have ab : Wiring.knot.Needs "a" "b" := .inl (by decide)
  have bb : Wiring.knot.Needs "b" "b" := .inl (by decide)
  have ha : Wiring.knot.Cyclic "a" := ⟨"b", .single ab, .single bb⟩
  have hb : Wiring.knot.Cyclic "b" := ⟨"b", .refl, .single bb⟩
  cases outcome with
  | ok i? => apply absurd ha (granted.mp ⟨i?, rfl⟩)
  | error e =>
    obtain ⟨he, -, unfinished⟩ := failed e rfl
    use e, w', (run _ _).mpr ⟨rfl, rfl⟩, he, unfinished "a" ha
    apply unfinished "b" hb

end Componentry
