import Componentry.Proofs.Calls

/-!
# Wired graphs

The errands of a crew may be such that it is known beforehand for what they ask: each component
asks for given names while its instance is made, for others while it is populated, and for
others while it is made ready.  Such a crew is wired as the graph of these names says.

Two kinds of crews are followed here at once.  A request may always find the components that are
in creation offered as early references, or it may never do so; `early` says which.  In the first
case no request fails.  In the second case a request fails only at a component that lies on a
cycle, and a component that is finished is grounded: no path from it goes on forever.
-/

namespace Componentry

open Attempt Relation

variable {κ σ α : Type}

/-! ### Errands that ask for given names -/

namespace Errand

/-- The errand asks for names in `all`, with need, for those in `due` before it returns, and
does not fail while its requests succeed. -/
def Asks (all : List Name) : Errand κ σ α → List Name → Prop
  | done outcome, due => due = [] ∧ ∃ a, outcome = .ok a
  | consult next, due => ∀ s, (next s).Asks all due
  | revise _ next, due => next.Asks all due
  | get d next, due => d ∈ all ∧ ∀ i, (next (.ok i)).Asks all (due.filter (· ≠ d))
  | getOptional _ _, _ => False
  | onDestroy _ next, due => next.Asks all due

/-- The errand fails with the error of the first request that fails. -/
def PassesOn : Errand κ σ α → Prop
  | done _ => True
  | consult next => ∀ s, (next s).PassesOn
  | revise _ next => next.PassesOn
  | get _ next => (∀ e, next (.error e) = .done (.error e)) ∧ ∀ i, (next (.ok i)).PassesOn
  | getOptional _ next => ∀ i?, (next i?).PassesOn
  | onDestroy _ next => next.PassesOn

end Errand

/-- The names for which components ask. -/
structure Wiring where
  /-- The names for which a component asks while its instance is made. -/
  making : Name → List Name
  /-- The names for which a component asks while it is populated. -/
  populating : Name → List Name
  /-- The names for which a component asks while it is made ready. -/
  readying : Name → List Name

/-- The first component asks for the second one. -/
def Wiring.Needs (g : Wiring) (n d : Name) : Prop :=
  d ∈ g.making n ∨ d ∈ g.populating n ∨ d ∈ g.readying n

/-- There is a cycle that can be reached from a component. -/
def Wiring.Cyclic (g : Wiring) (n : Name) : Prop :=
  ∃ u, ReflTransGen g.Needs n u ∧ TransGen g.Needs u u

namespace Crew

variable (crew : Crew κ σ)

/-- A callback that may be missing asks for the given names. -/
def Asks (k? : Option κ) (n : Name) (names : List Name) : Prop :=
  match k? with
  | some k => ∀ i, (crew.wire k n i).Asks names names
  | none => names = []

/-- The definitions of a container are wired as a graph says.  Interceptors pass instances through
before and after these are made ready; for an early reference they may replace them, and do not
fail. -/
structure Wired (c : Container κ) (definitions : Catalog (Definition κ)) (g : Wiring) : Prop where
  dependsOn : ∀ n d, definitions.get? n = some d → d.dependsOn = []
  making : ∀ n d, definitions.get? n = some d →
    (crew.instantiate d.instantiate n).Asks (g.making n) (g.making n)
  populating : ∀ n d, definitions.get? n = some d → crew.Asks d.populate n (g.populating n)
  readying : ∀ n d, definitions.get? n = some d → crew.Asks d.init n (g.readying n)
  defined : ∀ n d, definitions.contains n = true → g.Needs n d → definitions.contains d = true
  passes : ∀ s n i own, s ≠ .earlyReference →
    (crew.passBy s n c.chain.entries i own).1 = .ok i
  early : ∀ n i own, ∃ j, (crew.passBy .earlyReference n c.chain.entries i own).1 = .ok j

/-- The callbacks of definitions fail with the errors of their requests. -/
structure PassesOn (definitions : Catalog (Definition κ)) : Prop where
  making : ∀ n d, definitions.get? n = some d → (crew.instantiate d.instantiate n).PassesOn
  populating : ∀ n d k i, definitions.get? n = some d → d.populate = some k →
    (crew.wire k n i).PassesOn
  readying : ∀ n d k i, definitions.get? n = some d → d.init = some k →
    (crew.wire k n i).PassesOn

end Crew

/-- A crew is wired, and requests find components in creation offered if `early` holds, and find
them not offered otherwise. -/
structure Plan (crew : Crew κ σ) (c : Container κ) (definitions : Catalog (Definition κ))
    (g : Wiring) (early : Prop) : Prop where
  wired : crew.Wired c definitions g
  room : definitions.size < c.settings.maxCreationDepth
  making : ∀ n, g.making n ≠ [] → ¬ early
  populating : ∀ n, g.populating n ≠ [] → (c.settings.allowCircularReferences = true ↔ early)
  readying : ∀ n, g.readying n ≠ [] → (c.settings.allowCircularReferences = true ↔ early)
  allowed : early → c.settings.allowCircularReferences = true
  passing : ¬ early → crew.PassesOn definitions

/-! ### The crew that asks is wired -/

variable {g : Wiring}

namespace Errand

/-- The errand that asks for names one after the other asks for all of them. -/
theorem asks_asking (a : α) {all names due : List Name} (hn : names ⊆ all) (hd : due ⊆ names) :
  (asking a names : Errand κ σ α).Asks all due
  := by
  induction names generalizing due with
  | nil =>
    use List.subset_nil.mp hd, a
  | cons d names ih =>
    obtain ⟨hd', hn⟩ := List.cons_subset.mp hn
    use hd'
    intro _
    apply ih hn
    intro m hm
    rw [List.mem_filter] at hm
    apply (List.mem_cons.mp (hd hm.1)).resolve_left
    simpa using hm.2

theorem passesOn_asking (a : α) (names : List Name) :
  (asking a names : Errand κ σ α).PassesOn
  := by
  induction names with
  | nil => trivial
  | cons d names ih =>
    use fun _ => rfl
    intro _
    apply ih

end Errand

namespace Crew

/-- The interceptors pass every instance through. -/
theorem passBy_asking (s : Stage) (n : Name) (entries : List (Name × Interceptor (List Name)))
    (i : Ref) (own : Nat) :
  asking.passBy s n entries i own = (.ok i, own)
  := by
  induction entries with
  | nil => rfl
  | cons entry entries ih =>
    obtain ⟨name, ic⟩ := entry
    rw [passBy]
    cases ic.callback? s n with
    | none => apply ih
    | some k => apply ih

/-- A container whose definitions ask as the graph says is wired. -/
theorem wired_asking (c : Container (List Name)) {definitions : Catalog (Definition (List Name))}
    (graph : ∀ n d, definitions.get? n = some d → d = .asking n (g.making n) (g.populating n))
    (unready : ∀ n, g.readying n = [])
    (defined : ∀ n d, definitions.contains n = true → g.Needs n d →
      definitions.contains d = true) :
  asking.Wired c definitions g
  where
  dependsOn n d hd := by
    rw [graph n d hd]
    rfl
  making n d hd := by
    rw [graph n d hd]
    intro _
    apply Errand.asks_asking _ (List.Subset.refl _) (List.Subset.refl _)
  populating n d hd := by
    rw [graph n d hd]
    intro i
    apply Errand.asks_asking _ (List.Subset.refl _) (List.Subset.refl _)
  readying n d hd := by
    rw [graph n d hd]
    apply unready n
  defined := defined
  passes s n i own _ := by rw [passBy_asking]
  early n i own := by
    use i
    rw [passBy_asking]

theorem passesOn_asking (definitions : Catalog (Definition (List Name))) :
  asking.PassesOn definitions
  where
  making _ _ _ _ := Errand.passesOn_asking _ _
  populating _ _ _ _ _ _ := Errand.passesOn_asking _ _
  readying _ _ _ _ _ _ := Errand.passesOn_asking _ _

end Crew

/-! ### What holds of a wired container -/

/-- What holds of a container with a wired crew while components are created. -/
structure Kept (definitions : Catalog (Definition κ)) (g : Wiring) (early : Prop)
    (w : Situation κ σ) : Prop where
  filed : w.definitions = definitions
  defined : ∀ n, w.registry.IsInCreation n → definitions.contains n = true
  complete : ∀ n d, w.registry.IsFinished n → g.Needs n d → w.registry.DependsOn n d
  needed : ∀ n d, w.registry.DependsOn n d → g.Needs n d
  holders : early → ∀ n, w.obtained n ≠ [] → w.registry.IsPresent n
  grounded : ¬ early → ∀ n, w.registry.IsFinished n → Acc (fun d n => g.Needs n d) n

variable {crew : Crew κ σ} {c : Container κ} {definitions : Catalog (Definition κ)}
  {early : Prop} {gap : Name → Name → Prop} {w₀ w w' : Situation κ σ} {n d : Name} {i : Ref}

namespace Kept

/-- What holds of a wired container does not depend on early references and disposals. -/
theorem congr (h : Kept definitions g early w)
    (finished : w'.registry.finished = w.registry.finished)
    (guard : w'.registry.guard = w.registry.guard) (graph : w'.registry.graph = w.registry.graph)
    (obtained : w'.obtained = w.obtained) (same : w'.definitions = w.definitions) :
  Kept definitions g early w'
  := by
  have isFinished : ∀ n, w'.registry.IsFinished n ↔ w.registry.IsFinished n := by
    intro n
    apply Registry.isFinished_congr
    rw [finished]
  have isInCreation := fun n => Registry.isInCreation_congr (n := n) guard
  have dependsOn : ∀ n d, w'.registry.DependsOn n d ↔ w.registry.DependsOn n d := by
    intro n d
    rw [Registry.DependsOn, graph]
    rfl
  constructor
  case filed => apply same.trans h.filed
  case defined =>
    intro n hn
    apply h.defined n ((isInCreation n).mp hn)
  case complete =>
    intro n d hn hd
    apply (dependsOn n d).mpr (h.complete n d ((isFinished n).mp hn) hd)
  case needed =>
    intro n d hd
    apply h.needed n d ((dependsOn n d).mp hd)
  case holders =>
    intro he n hn
    rw [obtained] at hn
    apply (h.holders he n hn).imp (isFinished n).mpr (isInCreation n).mpr
  case grounded =>
    intro he n hn
    apply h.grounded he n ((isFinished n).mp hn)

theorem alike (h : Kept definitions g early w) (hw : Alike w w') :
  Kept definitions g early w'
  := by
  apply h.congr hw.finished_eq hw.guard_eq _ hw.obtained_eq
  · obtain ⟨s, q, m, -, -, -, -, hd⟩ := hw
    apply hd
  · obtain ⟨s, q, m, rfl, -⟩ := hw
    rfl

/-- A component that is defined may be in creation. -/
theorem enter (h : Kept definitions g early w) (hn : definitions.contains n = true) :
  Kept definitions g early (w.onRegistry (·.enter n))
  := by
  refine { h with defined := ?_, holders := ?_ }
  · intro m hm
    rcases Guard.mem_entered.mp hm with hm | rfl
    · apply h.defined m hm
    · apply hn
  · intro he m hm
    apply (h.holders he m hm).imp_right
    intro hm
    apply Guard.mem_entered.mpr (.inl hm)

/-- A component may come to depend on what it needs. -/
theorem depending (h : Kept definitions g early w) (hd : g.Needs n d) :
  Kept definitions g early (w.depending d n)
  := by
  refine { h with complete := ?_, needed := ?_ }
  · intro a b ha hab
    apply World.dependsOn_depending.mpr (.inl (h.complete a b ha hab))
  · intro a b hab
    rcases World.dependsOn_depending.mp hab with hab | ⟨rfl, rfl⟩
    · apply h.needed a b hab
    · apply hd

/-- A component may obtain what it likes while it is in creation. -/
theorem noting {f : Ledger σ → Ledger σ} (h : Kept definitions g early w)
    (hc : w.registry.IsInCreation n) (hf : OnlyAt n w (w.noting f)) :
  Kept definitions g early (w.noting f)
  := by
  refine { h with filed := ?_, holders := ?_ }
  · apply hf.definitions.trans h.filed
  · intro he m hm
    by_cases hmn : m = n
    · rw [hmn]
      right
      apply hc
    · rw [hf.obtained m hmn] at hm
      apply h.holders he m hm

/-- A component that is not finished may be offered for early references. -/
theorem publishing {p : Recipe κ} (h : Kept definitions g early w)
    (hn : w.registry.finished.get? n = none) :
  Kept definitions g early (w.publishing n p)
  := by
  rw [World.publishing_eq hn]
  apply Kept.congr h <;> rfl

/-- A component is finished that depends on all that it needs, and whose needs are grounded. -/
theorem installing (h : Kept definitions g early w) {r : Guard}
    (hg : w.registry.guard = r.entered n)
    (complete : ∀ d, g.Needs n d → w.registry.DependsOn n d)
    (grounded : ¬ early → ∀ d, g.Needs n d → w.registry.IsFinished d) :
  Kept definitions g early (w.installing r n i)
  := by
  have only := OnlyAt.installing hg (i := i)
  refine { h with defined := ?_, complete := ?_, holders := ?_, grounded := ?_ }
  · intro m hm
    apply h.defined m ((Registry.isInCreation_of_entered hg).mpr (.inl hm))
  · intro m d hm hd
    rcases World.isFinished_installing.mp hm with rfl | hm
    · apply complete d hd
    · apply h.complete m d hm hd
  · intro he m hm
    by_cases hmn : m = n
    · left
      apply World.isFinished_installing.mpr (.inl hmn)
    · apply (h.holders he m hm).imp _ (only.inCreation m hmn).mpr
      intro hm
      apply World.isFinished_installing.mpr (.inr hm)
  · intro he m hm
    rcases World.isFinished_installing.mp hm with rfl | hm
    · apply Acc.intro
      intro d hd
      apply h.grounded he d (grounded he d hd)
    · apply h.grounded he m hm

/-- What is left when a creation was broken off. -/
theorem abandoning {D : List Name} {r : Guard} (h : Kept definitions g early w)
    (hz : Razed D w w') (hg : w.registry.guard = r.entered n) (he : ¬ early) :
  Kept definitions g early (w'.abandoning r n)
  := by
  constructor
  case filed => apply hz.definitions.trans h.filed
  case defined =>
    intro m hm
    apply h.defined m ((Registry.isInCreation_of_entered hg).mpr (.inl hm))
  case complete =>
    intro m d hm hd
    obtain ⟨hmD, hm⟩ := hz.isFinished_iff.mp hm
    have hd := h.complete m d hm hd
    apply hz.dependsOn_iff.mpr
    use hmD, fun hdD => hmD (hz.mem_of_dependsOn hd hdD)
  case needed =>
    intro m d hd
    apply h.needed m d (hz.dependsOn_iff.mp hd).2.2
  case holders =>
    intro he'
    apply absurd he' he
  case grounded =>
    intro _ m hm
    apply h.grounded he m (hz.isFinished_iff.mp hm).2

/-- There is always room for one more creation, since all that are under way are of components
with different definitions. -/
theorem depth_lt (h : Kept definitions g early w) (hs : Sound c gap w)
    (room : definitions.size < c.settings.maxCreationDepth) :
  w.registry.guard.depth < c.settings.maxCreationDepth
  := by
  apply Nat.lt_of_le_of_lt _ room
  rw [hs.depth]
  have hl : definitions.names.length = definitions.size := List.length_map _
  rw [← hl]
  apply w.registry.guard.inCreation.nodup.length_le_of_subset
  intro n hn
  apply Catalog.contains_iff.mp (h.defined n hn)

end Kept

/-- A component may be asked for: it is defined, every component in creation needs it, directly
or through others, and these are offered if `early` holds, and not offered otherwise. -/
structure Reaching (definitions : Catalog (Definition κ)) (g : Wiring) (early : Prop) (d : Name)
    (w : Situation κ σ) : Prop where
  defined : definitions.contains d = true
  chain : ∀ u, w.registry.IsInCreation u → TransGen g.Needs u d
  shown : ∀ u, w.registry.IsInCreation u → (w.registry.IsOffered u ↔ early)

/-- A component was resolved, for which only components were finished that can be reached from
it. -/
structure Grown (definitions : Catalog (Definition κ)) (g : Wiring) (early : Prop) (d : Name)
    (w w' : Situation κ σ) : Prop where
  kept : Kept definitions g early w'
  grown : ∀ m, w'.registry.IsFinished m → w.registry.IsFinished m ∨ ReflTransGen g.Needs d m

/-- A component could not be resolved, since a cycle can be reached from it. -/
structure Refused (definitions : Catalog (Definition κ)) (g : Wiring) (early : Prop) (d : Name)
    (e : Error) (w : Situation κ σ) : Prop where
  late : ¬ early
  kept : Kept definitions g early w
  cycle : ∃ u, ReflTransGen g.Needs d u ∧ TransGen g.Needs u u ∧ e.root = .currentlyInCreation u

/-- The construction of `n`, which began at the moment `w₀`, is under way, and has met what it
needs of the names of which `met` holds. -/
structure Progress (c : Container κ) (definitions : Catalog (Definition κ)) (g : Wiring)
    (early : Prop) (w₀ : Situation κ σ) (n : Name) (phase : Phase) (met : Name → Prop)
    (w : Situation κ σ) : Prop where
  underway : Underway c w₀ n phase w
  kept : Kept definitions g early w
  grown : ∀ m, w.registry.IsFinished m → w₀.registry.IsFinished m ∨ ReflTransGen g.Needs n m
  met : ∀ d, met d → w.registry.DependsOn n d ∧ (¬ early → w.registry.IsFinished d)

namespace Progress

variable {phase : Phase} {met met' : Name → Prop}

theorem mono (h : Progress c definitions g early w₀ n phase met w)
    (hmet : ∀ d, met' d → met d) :
  Progress c definitions g early w₀ n phase met' w
  := { h with met := fun d hd => h.met d (hmet d hd) }

theorem alike (h : Progress c definitions g early w₀ n phase met w) (hw : Alike w w') :
  Progress c definitions g early w₀ n phase met w'
  where
  underway := h.underway.alike hw
  kept := h.kept.alike hw
  grown m hm := h.grown m (hw.isFinished_iff.mp hm)
  met d hd := by
    obtain ⟨hnd, hf⟩ := h.met d hd
    use hw.dependsOn_iff.mpr hnd
    intro he
    apply hw.isFinished_iff.mpr (hf he)

/-- A creation that was admitted has met nothing yet. -/
theorem begin (hn : definitions.contains n = true) (hs : Sound c gap w₀)
    (hgap : ∀ a b, gap a b → b = n) (hk : Kept definitions g early w₀)
    (absent : ¬ w₀.registry.IsPresent n) (hw : Alike (w₀.onRegistry (·.enter n)) w) :
  Progress c definitions g early w₀ n .preparing (fun _ => False) w
  where
  underway := Underway.begin hs hgap absent hw
  kept := (hk.enter hn).alike hw
  grown _ hm := .inl (hw.isFinished_iff.mp hm)
  met _ := False.elim

/-- The instance of a component without declared dependencies is to be made. -/
theorem begun (h : Progress c definitions g early w₀ n .preparing met w) :
  Progress c definitions g early w₀ n .making met (w.noting (·.begin n))
  where
  underway := h.underway.begun
  kept := h.kept.noting h.underway.isInCreation (OnlyAt.begin w n)
  grown := h.grown
  met := h.met

/-- The component is offered for early references if the container allows circular ones. -/
theorem offering (h : Progress c definitions g early w₀ n .making met w) (raw : Ref) :
  Progress c definitions g early w₀ n c.lastPhase met (w.offering c n raw)
  := by
  have underway := h.underway.offering raw
  rw [World.offering] at underway ⊢
  by_cases ha : c.settings.allowCircularReferences = true
  · rw [if_pos ha] at underway ⊢
    have kept := h.kept.publishing (p := Recipe.earlyReference n raw) h.underway.finished_eq
    rw [World.publishing_eq h.underway.finished_eq] at underway kept ⊢
    use underway, kept, h.grown
    apply h.met
  · rw [if_neg ha] at underway ⊢
    use underway, h.kept, h.grown
    apply h.met

theorem awaiting (h : Progress c definitions g early w₀ n phase met w) {t : Teardown κ}
    (ht : t.name = n) :
  Progress c definitions g early w₀ n phase met (w.awaiting n t)
  where
  underway := h.underway.awaiting ht
  kept := by
    apply Kept.congr h.kept <;> rfl
  grown := h.grown
  met := h.met

theorem arranging (h : Progress c definitions g early w₀ n phase met w) (k? : Option κ)
    (i : Ref) :
  Progress c definitions g early w₀ n phase met (w.arranging n k? i)
  := by
  cases k? with
  | none => apply h
  | some _ => apply h.awaiting rfl

/-- Another component was resolved meanwhile. -/
theorem passed (h : Progress c definitions g early w₀ n phase met w) (hp : Passed c w w')
    (hg : Grown definitions g early d w w') (hd : g.Needs n d) :
  Progress c definitions g early w₀ n phase met w'
  where
  underway := h.underway.passed hp
  kept := hg.kept
  grown m hm := by
    rcases hg.grown m hm with hm | hm
    · apply h.grown m hm
    · right
      apply hm.head hd
  met e he := by
    obtain ⟨hne, hf⟩ := h.met e he
    use hp.spares.kept n e h.underway.isPresent id hne
    intro hearly
    apply hp.spares.isFinished (hf hearly)

/-- A component in creation may ask for what it needs. -/
theorem reaching (h : Progress c definitions g early w₀ n phase met w)
    (plan : Plan crew c definitions g early) (h₀ : Reaching definitions g early n w₀)
    (hshow : phase = .offered ↔ early) (hd : g.Needs n d) :
  Reaching definitions g early d w
  := by
  have inCreation : ∀ u, w.registry.IsInCreation u → w₀.registry.IsInCreation u ∨ u = n :=
    fun u => (Registry.isInCreation_of_entered h.underway.guard).mp
  constructor
  case defined => apply plan.wired.defined n d h₀.defined hd
  case chain =>
    intro u hu
    rcases inCreation u hu with hu | rfl
    · apply (h₀.chain u hu).tail hd
    · apply TransGen.single hd
  case shown =>
    intro u hu
    rcases inCreation u hu with hu | rfl
    · apply (h.underway.spares.offered u hu).trans (h₀.shown u hu)
    · apply h.underway.shown.trans hshow

/-- A request was granted. -/
theorem granted (h : Progress c definitions g early w₀ n phase met w)
    (hw : Reaching definitions g early d w) (hs : w.registry.Stands d i) (hd : g.Needs n d) :
  Progress c definitions g early w₀ n phase (fun m => met m ∨ m = d)
    ((w.depending d n).entering n d (some i))
  where
  underway := h.underway.granted hs
  kept := (h.kept.depending hd).noting h.underway.isInCreation (OnlyAt.entering _ n d (some i))
  grown := h.grown
  met m hm := by
    rcases hm with hm | rfl
    · obtain ⟨hnm, hf⟩ := h.met m hm
      use World.dependsOn_depending.mpr (.inl hnm)
      apply hf
    · use World.dependsOn_depending.mpr (.inr ⟨rfl, rfl⟩)
      intro hearly
      apply hs.isFirm.resolve_right
      intro ho
      apply hearly ((hw.shown m (h.underway.sound.offered m ho)).mp ho)

end Progress

end Componentry
