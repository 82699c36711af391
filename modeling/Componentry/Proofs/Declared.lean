import Componentry.Proofs.Cycles
import Componentry.Proofs.Paths

/-!
# Declared dependencies

The dependencies that definitions declare are created before the component itself.  If callbacks ask
for nothing else, a component of a fresh container resolves exactly if no cycle of declared
dependencies can be reached from it.  Whether a declared dependency leads back is decided by the
links that are recorded when its turn comes: those of the components in creation make one chain, and
no link leads from a component that is finished to one that is not.
-/

namespace Componentry

open Attempt Relation

variable {κ σ α : Type} {crew : Crew κ σ} {c : Container κ}
  {definitions : Catalog (Definition κ)} {gap : Name → Name → Prop} {w₀ w w' : Situation κ σ}
  {n d : Name} {i : Ref} {phase : Phase} {met : Name → Prop}

/-! ### What is declared -/

namespace Catalog

/-- The first component declares that it depends on the second one. -/
def Declares (definitions : Catalog (Definition κ)) (n d : Name) : Prop :=
  ∃ definition, definitions.get? n = some definition ∧ d ∈ definition.dependsOn

/-- The wiring in which a component needs what it declares. -/
def declared (definitions : Catalog (Definition κ)) : Wiring :=
  ⟨fun n => ((definitions.get? n).map Definition.dependsOn).getD [], fun _ => [], fun _ => []⟩

/-- In the wiring of declarations a component needs what it declares. -/
theorem needs_declared_iff :
  definitions.declared.Needs n d ↔ definitions.Declares n d
  := by
  simp only [Wiring.Needs, declared, Declares]
  cases definitions.get? n <;> simp

theorem needs_declared (definitions : Catalog (Definition κ)) :
  definitions.declared.Needs = definitions.Declares
  := by
  funext n d
  apply propext needs_declared_iff

theorem needs_of_mem {definition : Definition κ} (hn : definitions.get? n = some definition)
    (hd : d ∈ definition.dependsOn) :
  definitions.declared.Needs n d
  := needs_declared_iff.mpr ⟨definition, hn, hd⟩

end Catalog

/-- The error tells of a cycle that can be reached from a component: it closes where a component
depends on another one, which leads back, or on itself. -/
inductive Closes (needs : Name → Name → Prop) (n : Name) : Error → Prop
  | circular {v u : Name} (reached : ReflTransGen needs n v) (ne : v ≠ u) (need : needs v u)
      (back : TransGen needs u v) : Closes needs n (.circularDependsOn v u)
  | itself {v : Name} (reached : ReflTransGen needs n v) (need : needs v v) :
      Closes needs n (.currentlyInCreation v)

/-- A cycle that can be reached from a component can be reached from those that need it. -/
theorem Closes.head {needs : Name → Name → Prop} {e : Error} (h : Closes needs d e)
    (need : needs n d) :
  Closes needs n e
  := by
  cases h with
  | circular reached ne closing back => apply Closes.circular (reached.head need) ne closing back
  | itself reached closing => apply Closes.itself (reached.head need) closing

/-- Where an error tells of a cycle that closes, there is a cycle that can be reached. -/
theorem Closes.exists_cycle {needs : Name → Name → Prop} {e : Error} (h : Closes needs n e) :
  ∃ v, ReflTransGen needs n v ∧ TransGen needs v v
  := by
  cases h with
  | circular reached _ closing back => exact ⟨_, reached, back.head closing⟩
  | itself reached closing => exact ⟨_, reached, .single closing⟩

/-- Every component on a list comes after those that it needs. -/
def Wiring.Orders (g : Wiring) (names : List Name) : Prop :=
  ∀ n d, n ∈ names → g.Needs n d → [d, n].Sublist names

/-- A component may be added at the end when all that it needs is there. -/
theorem Wiring.Orders.concat {g : Wiring} {names : List Name} (h : g.Orders names)
    (there : ∀ d, g.Needs n d → d ∈ names) :
  g.Orders (names ++ [n])
  := by
  intro m d hm hd
  rcases List.mem_append.mp hm with hm | hm
  · apply (h m d hm hd).trans
    apply List.sublist_append_left
  · obtain rfl := List.mem_singleton.mp hm
    apply List.Sublist.append (List.singleton_sublist.mpr (there d hd)) (List.Sublist.refl _)

/-- Definitions do no more than declare dependencies, on names that are defined: their callbacks ask
for nothing and do not fail, and neither do interceptors before and after an instance is made ready.
They are so few that they may all be nested. -/
structure Crew.OnlyDeclares (crew : Crew κ σ) (c : Container κ)
    (definitions : Catalog (Definition κ)) : Prop where
  making : ∀ n d, definitions.get? n = some d → (crew.instantiate d.instantiate n).Asks [] []
  populating : ∀ n d, definitions.get? n = some d → crew.Asks d.populate n []
  readying : ∀ n d, definitions.get? n = some d → crew.Asks d.init n []
  passing : ∀ s n i own, s ≠ .earlyReference →
    ∃ j, (crew.passBy s n c.chain.entries i own).1 = .ok j
  closed : ∀ n d, definitions.Declares n d → definitions.contains d = true
  room : definitions.size < c.settings.maxCreationDepth

/-! ### Recorded links -/

namespace Registry

variable {φ δ : Type} {r : Registry φ δ}

/-- One component is found to depend on another exactly if recorded links lead to that one. -/
theorem isDependent_iff :
  r.graph.isDependent d n = true ↔ TransGen r.DependsOn n d
  := Links.reaches_iff.trans Links.path_iff_transGen

end Registry

/-- Recorded links stay while nothing is lost. -/
theorem Sound.transGen_dependsOn (h : Sound c gap w) (hs : Spares nothing w w')
    (p : TransGen w.registry.DependsOn n d) :
  TransGen w'.registry.DependsOn n d
  := by
  refine TransGen.mono ?_ n d p
  intro a b hab
  apply hs.kept a b (h.present a b hab) id hab

/-- From a component that is in preparation no links lead back to it. -/
theorem Underway.not_transGen (h : Underway c w₀ n .preparing w) :
  ¬ TransGen w.registry.DependsOn n n
  := by
  have firm : ∀ d, TransGen w.registry.DependsOn n d → w.registry.IsFirm d := by
    intro d p
    induction p with
    | single hd => apply h.settled _ hd
    | tail _ hd ih => apply h.sound.firm _ _ hd ih
  intro p
  apply h.not_isFirm (firm n p)

/-! ### The preparation of a component -/

/-- A component may be created: it is defined, and every component in creation has come to depend on
it. -/
structure Wanted (definitions : Catalog (Definition κ)) (d : Name) (w : Situation κ σ) : Prop where
  defined : definitions.contains d = true
  absent : ¬ w.registry.IsInCreation d
  chain : ∀ u, w.registry.IsInCreation u → TransGen w.registry.DependsOn u d

/-- A component could not be resolved, since a cycle can be reached from it. -/
structure Rejected (definitions : Catalog (Definition κ)) (n : Name) (e : Error)
    (w : Situation κ σ) : Prop where
  kept : Kept definitions definitions.declared False w
  closes : Closes definitions.declared.Needs n e.root

/-- What could not be resolved is passed on by the component that declares it. -/
theorem Rejected.declared {e : Error} (h : Rejected definitions d e w)
    (hd : definitions.declared.Needs n d) :
  Rejected definitions n (.creation n e []) w
  where
  kept := h.kept
  closes := by
    rw [Error.root_creation]
    apply h.closes.head hd

/-- A component was resolved, and what is finished is in order. -/
structure Supplied (definitions : Catalog (Definition κ)) (d : Name) (w w' : Situation κ σ) :
    Prop where
  grown : Grown definitions definitions.declared False d w w'
  orders : definitions.declared.Orders w'.registry.finished.names

/-- The construction of `n` is being prepared, and has met the names of which `met` holds. -/
structure Preparing (c : Container κ) (definitions : Catalog (Definition κ))
    (w₀ : Situation κ σ) (n : Name) (met : Name → Prop) (w : Situation κ σ) : Prop where
  progress : Progress c definitions definitions.declared False w₀ n .preparing met w
  orders : definitions.declared.Orders w.registry.finished.names
  chain : ∀ u, w.registry.IsInCreation u → u ≠ n → TransGen w.registry.DependsOn u n

namespace Preparing

/-- A construction that has met some names has met fewer. -/
theorem mono {met' : Name → Prop} (h : Preparing c definitions w₀ n met w)
    (hmet : ∀ d, met' d → met d) :
  Preparing c definitions w₀ n met' w
  := { h with progress := h.progress.mono hmet }

/-- A construction that has just begun has met no name. -/
theorem begin (hs : Sound c gap w₀) (hgap : ∀ a b, gap a b → b = n)
    (hk : Kept definitions definitions.declared False w₀)
    (orders : definitions.declared.Orders w₀.registry.finished.names)
    (wanted : Wanted definitions n w₀) (hf : w₀.registry.finished.get? n = none)
    (hw : Alike (w₀.onRegistry (·.enter n)) w) :
  Preparing c definitions w₀ n (fun _ => False) w
  where
  progress := Progress.begin wanted.defined hs hgap hk
    (Registry.not_isPresent_iff.mpr ⟨hf, wanted.absent⟩) hw
  orders := by
    rw [hw.finished_eq]
    apply orders
  chain u hu hun := by
    have hu : w₀.registry.IsInCreation u := by
      apply ((Registry.isInCreation_of_entered hw.guard_eq).mp hu).resolve_right hun
    refine TransGen.mono ?_ u n (wanted.chain u hu)
    intro a b
    apply hw.dependsOn_iff.mpr

/-- A declared dependency that does not lead back is not in creation, unless it is the component
itself. -/
theorem not_isInCreation (h : Preparing c definitions w₀ n met w) (hd : d ≠ n)
    (back : ¬ TransGen w.registry.DependsOn d n) :
  ¬ w.registry.IsInCreation d
  := by
  intro hc
  apply back (h.chain d hc hd)

/-- A declared dependency that leads back closes a cycle. -/
theorem rejected (h : Preparing c definitions w₀ n met w) (hd : definitions.declared.Needs n d)
    (back : TransGen w.registry.DependsOn d n) :
  Rejected definitions n (.circularDependsOn n d) w
  where
  kept := h.progress.kept
  closes := by
    have ne : n ≠ d := by
      rintro rfl
      apply h.progress.underway.not_transGen back
    apply Closes.circular .refl ne hd
    apply TransGen.mono h.progress.kept.needed d n back

/-- A declared dependency is recorded before it is created. -/
theorem wanted (h : Preparing c definitions w₀ n met w) (hd : definitions.contains d = true)
    (absent : ¬ w.registry.IsInCreation d) :
  Wanted definitions d (w.depending d n)
  where
  defined := hd
  absent := absent
  chain u hu := by
    have link : (w.depending d n).registry.DependsOn n d :=
      World.dependsOn_depending.mpr (.inr ⟨rfl, rfl⟩)
    by_cases hun : u = n
    · rw [hun]
      apply TransGen.single link
    · apply TransGen.tail _ link
      refine TransGen.mono ?_ u n (h.chain u hu hun)
      intro a b hab
      apply World.dependsOn_depending.mpr (.inl hab)

/-- A declared dependency was created. -/
theorem declared (h : Preparing c definitions w₀ n met w) (hd : definitions.declared.Needs n d)
    (absent : ¬ w.registry.IsInCreation d) (hp : Passed c (w.depending d n) w')
    (hs : w'.registry.Stands d i) (supplied : Supplied definitions d (w.depending d n) w') :
  Preparing c definitions w₀ n (fun m => met m ∨ m = d) w'
  := by
  have sound := h.progress.underway.declaring d
  have isInCreation : ∀ u, w'.registry.IsInCreation u ↔ w.registry.IsInCreation u :=
    fun u => Registry.isInCreation_congr hp.guard
  have present : (w.depending d n).registry.IsPresent n := h.progress.underway.isPresent
  constructor
  case orders => apply supplied.orders
  case chain =>
    intro u hu hun
    apply sound.transGen_dependsOn hp.spares
    refine TransGen.mono ?_ u n (h.chain u ((isInCreation u).mp hu) hun)
    intro a b hab
    apply World.dependsOn_depending.mpr (.inl hab)
  case progress =>
    constructor
    case underway => apply h.progress.underway.declared hp hs.isFirm
    case kept => apply supplied.grown.kept
    case grown =>
      intro m hm
      rcases supplied.grown.grown m hm with hm | hm
      · apply h.progress.grown m hm
      · right
        apply hm.head hd
    case met =>
      rintro m (hm | rfl)
      · obtain ⟨hnm, hf⟩ := h.progress.met m hm
        use hp.spares.kept n m present id (World.dependsOn_depending.mpr (.inl hnm))
        intro he
        apply hp.spares.isFinished (hf he)
      · use hp.spares.kept n m present id (World.dependsOn_depending.mpr (.inr ⟨rfl, rfl⟩))
        intro _
        apply hs.isFirm.resolve_right
        intro ho
        apply absent ((isInCreation m).mp (hp.sound.offered m ho))

end Preparing

/-- Creating a name comes out as the declared dependencies say, whenever at most `k` creations may
still be nested. -/
def Procures (crew : Crew κ σ) (c : Container κ) (definitions : Catalog (Definition κ)) (k : Nat) :
    Prop :=
  ∀ (gap : Name → Name → Prop) (w : Situation κ σ) (d : Name),
    c.settings.maxCreationDepth ≤ w.registry.guard.depth + k → Sound c gap w →
    (∀ a b, gap a b → b = d) → Kept definitions definitions.declared False w →
    definitions.declared.Orders w.registry.finished.names → Wanted definitions d w →
    Meets (crew.host c) w (c.resolveAlone d) (fun _ => Supplied definitions d w)
      (Rejected definitions d)

/-- A component that is being prepared is refused to itself. -/
theorem Preparing.meets_itself (crew : Crew κ σ)
    (room : definitions.size < c.settings.maxCreationDepth)
    (h : Preparing c definitions w₀ n met w) (hn : definitions.declared.Needs n n)
    {S : Ref → Situation κ σ → Prop} :
  Meets (crew.host c) (w.depending n n) (c.resolveAlone n) S (Rejected definitions n)
  := by
  have underway := h.progress.underway
  have kept := h.progress.kept.depending hn
  have sound := underway.declaring n
  have inCreation : (w.depending n n).registry.IsInCreation n := underway.isInCreation
  have unoffered : ¬ (w.depending n n).registry.IsOffered n :=
    fun ho => underway.not_isFirm (.inr ho)
  apply sound.meets_resolveAlone
  case stands =>
    intro i hi
    apply absurd hi.isFirm underway.not_isFirm
  case made =>
    intro raw i own ho
    apply absurd ho unoffered
  case failed =>
    intro raw e own w' ho
    apply absurd ho unoffered
  case missing =>
    intro hm
    have defined := kept.defined n inCreation
    rw [← kept.filed, Catalog.contains, hm] at defined
    cases defined
  case create =>
    intro definition _ hf _
    apply sound.meets_create hf
    · intro deep
      apply absurd (kept.depth_lt sound room) (Nat.not_lt_of_le deep)
    · intro _
      use kept
      apply Closes.itself .refl hn
    · intro _ hc
      apply absurd inCreation hc

namespace Procures

variable {k : Nat}

section Prepare

variable (hk : Procures crew c definitions k)
  (plain : crew.OnlyDeclares c definitions)
  (hd : c.settings.maxCreationDepth ≤ w₀.registry.guard.depth + 1 + k) (h₀ : Sound c gap w₀)
  (hgap : ∀ a b, gap a b → b = n)

include hk plain hd h₀ hgap

/-- A declared dependency that does not lead back is created, unless it leads to a cycle. -/
theorem meets_dependency (need : definitions.declared.Needs n d)
    (h : Preparing c definitions w₀ n met w) (back : ¬ TransGen w.registry.DependsOn d n) :
  Meets (crew.host c) (w.depending d n) (c.resolveAlone d)
    (fun _ => Preparing c definitions w₀ n fun m => met m ∨ m = d)
    (fun e w' => Broken c w₀ n w' ∧ Rejected definitions n (.creation n e []) w')
  := by
  have underway := h.progress.underway
  have depth : c.settings.maxCreationDepth ≤ (w.depending d n).registry.guard.depth + k := by
    change _ ≤ w.registry.guard.depth + k
    rw [underway.guard]
    apply hd
  have sound := underway.declaring d
  have gap : ∀ a b : Name, a = n ∧ b = d → b = d := fun _ _ => And.right
  have comes : Meets (crew.host c) (w.depending d n) (c.resolveAlone d)
      (fun _ w' => ¬ w.registry.IsInCreation d ∧ Supplied definitions d (w.depending d n) w')
      (Rejected definitions d) := by
    by_cases hdn : d = n
    · subst hdn
      apply h.meets_itself crew plain.room need
    · have absent := h.not_isInCreation hdn back
      have wanted := h.wanted (plain.closed n d (Catalog.needs_declared_iff.mp need)) absent
      apply (hk _ (w.depending d n) d depth sound gap (h.progress.kept.depending need) h.orders
        wanted).mono _ fun _ _ => id
      intro _ w' supplied
      use absent
  apply ((resolves crew c k _ (w.depending d n) d depth sound gap).and comes).mono
  · rintro i w' ⟨⟨hp, hs⟩, absent, supplied⟩
    apply h.declared need absent hp hs supplied
  · rintro e w' ⟨failed, rejected⟩
    use underway.undeclared h₀ hgap failed
    apply rejected.declared need

/-- The declared dependencies of a component are created, unless one of them leads to a cycle. -/
theorem meets_createDependencies (names : List Name)
    (needs : ∀ d ∈ names, definitions.declared.Needs n d)
    (h : Preparing c definitions w₀ n met w) :
  Meets (crew.host c) w (c.createDependencies n names)
    (fun _ => Preparing c definitions w₀ n fun m => met m ∨ m ∈ names)
    (fun e w' => Broken c w₀ n w' ∧ Rejected definitions n e w')
  := by
  induction names generalizing w met with
  | nil =>
    apply meets_pure
    apply h.mono
    rintro m (hm | hm)
    · apply hm
    · cases hm
  | cons d names ih =>
    have need := needs d List.mem_cons_self
    rw [Container.createDependencies]
    apply meets_bind
    apply meets_reads
    split
    · rename_i back
      apply meets_bind
      apply meets_throw
      use h.progress.underway.broken
      apply h.rejected need (Registry.isDependent_iff.mp back)
    · rename_i back
      apply meets_bind
      apply meets_edit
      apply meets_bind
      apply meets_map
      apply meets_mapError
      apply (hk.meets_dependency plain hd h₀ hgap need h
        (mt Registry.isDependent_iff.mpr back)).mono _ fun _ _ => id
      intro i w' h
      apply (ih (fun m hm => needs m (List.mem_cons_of_mem d hm)) h).mono _ fun _ _ => id
      intro _ w'' h
      apply h.mono
      intro m hm
      rw [or_assoc, ← List.mem_cons]
      apply hm

end Prepare

end Procures

/-! ### The construction of a component -/

/-- The construction of `n` has met all that it declares, and no one has asked for it. -/
structure Finishing (c : Container κ) (definitions : Catalog (Definition κ))
    (w₀ : Situation κ σ) (n : Name) (phase : Phase) (w : Situation κ σ) : Prop where
  progress : Progress c definitions definitions.declared False w₀ n phase
    (definitions.declared.Needs n) w
  orders : definitions.declared.Orders w.registry.finished.names
  unseen : w.registry.early.get? n = none

namespace Finishing

theorem alike (h : Finishing c definitions w₀ n phase w) (hw : Alike w w') :
  Finishing c definitions w₀ n phase w'
  where
  progress := h.progress.alike hw
  orders := by
    rw [hw.finished_eq]
    apply h.orders
  unseen := by
    obtain ⟨s, q, m, rfl, -⟩ := hw
    apply h.unseen

/-- When a construction has met all that it declares, its instance is about to be made. -/
theorem begun
    (h : Preparing c definitions w₀ n (definitions.declared.Needs n) w) :
  Finishing c definitions w₀ n .making (w.noting (·.begin n))
  where
  progress := h.progress.begun
  orders := h.orders
  unseen := by
    rw [Option.eq_none_iff_forall_ne_some]
    intro i hi
    apply h.progress.underway.not_isFirm
    right
    left
    use i
    apply hi

/-- When the instance is made, the component is offered. -/
theorem offering (h : Finishing c definitions w₀ n .making w) (raw : Ref) :
  Finishing c definitions w₀ n c.lastPhase (w.offering c n raw)
  := by
  have progress := h.progress.offering raw
  rw [World.offering] at progress ⊢
  by_cases ha : c.settings.allowCircularReferences = true
  · rw [if_pos ha] at progress ⊢
    rw [World.publishing_eq h.progress.underway.finished_eq] at progress ⊢
    use progress, h.orders
    apply (Catalog.get?_erase _ _ _).trans (if_pos rfl)
  · rw [if_neg ha] at progress ⊢
    use progress, h.orders, h.unseen

/-- A construction that finishes goes on when a disposal of its own is set up. -/
theorem awaiting (h : Finishing c definitions w₀ n phase w) {t : Teardown κ} (ht : t.name = n) :
  Finishing c definitions w₀ n phase (w.awaiting n t)
  where
  progress := h.progress.awaiting ht
  orders := h.orders
  unseen := h.unseen

/-- A construction that finishes goes on when the hook is set up. -/
theorem arranging (h : Finishing c definitions w₀ n phase w) (k? : Option κ) (i : Ref) :
  Finishing c definitions w₀ n phase (w.arranging n k? i)
  := by
  cases k? with
  | none => apply h
  | some _ => apply h.awaiting rfl

/-- An errand that asks for nothing does not fail. -/
theorem meets_errand (crew : Crew κ σ) {F : Error → Situation κ σ → Prop} (e : Errand κ σ α)
    (he : e.Asks [] []) (h : Finishing c definitions w₀ n phase w) :
  Meets (crew.host c) w (e.run c n) (fun _ => Finishing c definitions w₀ n phase) F
  := by
  refine Errand.meets_run (fun e w => e.Asks [] [] ∧ Finishing c definitions w₀ n phase w)
    ?done ?consult ?revise ?get ?getOptional ?onDestroy e ⟨he, h⟩
  case done =>
    rintro outcome w ⟨⟨-, a, rfl⟩, h⟩
    apply h
  case consult =>
    rintro next w ⟨he, h⟩
    use he _
  case revise =>
    rintro f next w ⟨he, h⟩
    use he
    apply h.alike (Alike.noting w _)
  case get =>
    rintro d next w ⟨⟨⟨⟩, -⟩, -⟩
  case getOptional =>
    rintro d next w ⟨⟨⟩, -⟩
  case onDestroy =>
    rintro k next w ⟨he, h⟩
    use he
    apply h.awaiting rfl

/-- A callback that asks for nothing leaves the construction as it is. -/
theorem meets_wireWith {F : Error → Situation κ σ → Prop} {k? : Option κ}
    (he : crew.Asks k? n []) (h : Finishing c definitions w₀ n phase w) (i : Ref) :
  Meets (crew.host c) w (Container.wireWith (crew.behaviour c) k? n i)
    (fun _ => Finishing c definitions w₀ n phase) F
  := by
  cases k? with
  | none =>
    apply meets_pure
    apply h
  | some callback => apply h.meets_errand crew _ (he i)

/-- The interceptors before and after the instance is made ready leave the construction as it is. -/
theorem meets_intercept {F : Error → Situation κ σ → Prop} {s : Stage}
    (plain : crew.OnlyDeclares c definitions) (hs : s ≠ .earlyReference)
    (h : Finishing c definitions w₀ n phase w) (i : Ref) :
  Meets (crew.host c) w (c.intercept (crew.behaviour c) s n i)
    (fun _ => Finishing c definitions w₀ n phase) F
  := by
  apply Componentry.meets_intercept
  intro outcome own ho
  obtain ⟨j, hj⟩ := plain.passing s n i w.memory.scratch.own hs
  rw [ho] at hj
  obtain rfl : outcome = .ok j := hj
  apply h.alike (Alike.noting w own)

/-- The instance that is exposed is the one that came out last, since no one has seen another. -/
theorem meets_settle (crew : Crew κ σ) {S : Ref → Situation κ σ → Prop}
    {F : Error → Situation κ σ → Prop} (h : Finishing c definitions w₀ n phase w)
    (raw exposed : Ref) (settled : S exposed w) :
  Meets (crew.host c) w
    (if c.settings.allowCircularReferences then Container.settle n raw exposed else pure exposed)
    S F
  := by
  have finished := h.progress.underway.finished_eq
  split
  · rw [Container.settle]
    apply meets_bind
    rcases w.registry.sight_cases n false with ⟨i, hi, hs⟩ | ⟨p, ⟨⟩, -⟩ | ⟨-, -, -, hs⟩
    · rcases hi with hi | hi
      · cases finished.symm.trans hi
      · cases h.unseen.symm.trans hi
    · apply meets_lookup_settled hs
      apply meets_pure settled
  · apply meets_pure settled

end Finishing

namespace Procures

variable {k : Nat}

/-- A construction succeeds when all that it declares was created, or a cycle was found. -/
theorem meets_construct (hk : Procures crew c definitions k)
    (plain : crew.OnlyDeclares c definitions)
    (hd : c.settings.maxCreationDepth ≤ w₀.registry.guard.depth + 1 + k) (h₀ : Sound c gap w₀)
    (hgap : ∀ a b, gap a b → b = n) {definition : Definition κ}
    (hn : definitions.get? n = some definition)
    (h : Preparing c definitions w₀ n (fun _ => False) w) :
  Meets (crew.host c) w (c.construct (crew.behaviour c) n definition)
    (fun _ => Finishing c definitions w₀ n c.lastPhase)
    (fun e w' => Broken c w₀ n w' ∧ Rejected definitions n e w')
  := by
  apply Componentry.meets_construct
  apply (hk.meets_createDependencies plain hd h₀ hgap definition.dependsOn
    (fun d => Catalog.needs_of_mem hn) h).mono _ fun _ _ => id
  intro _ w h
  have h : Preparing c definitions w₀ n (definitions.declared.Needs n) w := by
    apply h.mono
    intro d need
    right
    obtain ⟨definition', hn', hd⟩ := Catalog.needs_declared_iff.mp need
    cases hn.symm.trans hn'
    apply hd
  apply meets_bind
  apply meets_note
  apply ((Finishing.begun h).meets_errand crew _ (plain.making n definition hn)).mono _
    fun _ _ => id
  intro raw w h
  use h.progress.underway.isCurrentlyInCreation
  apply ((h.offering raw).meets_wireWith (plain.populating n definition hn) raw).mono _
    fun _ _ => id
  intro _ w h
  apply (h.meets_intercept plain (by rintro ⟨⟩) raw).mono _ fun _ _ => id
  intro i w h
  apply (h.meets_wireWith (plain.readying n definition hn) i).mono _ fun _ _ => id
  intro _ w h
  apply (h.meets_intercept plain (by rintro ⟨⟩) i).mono _ fun _ _ => id
  intro i w h
  apply h.meets_settle crew raw i
  apply h.arranging

/-- A creation comes out as the declarations say, if those that are nested deeper do. -/
theorem meets_create (hk : ∀ j < k, Procures crew c definitions j)
    (plain : crew.OnlyDeclares c definitions)
    (hd : c.settings.maxCreationDepth ≤ w.registry.guard.depth + k) (hs : Sound c gap w)
    (hgap : ∀ a b, gap a b → b = n) (h : Kept definitions definitions.declared False w)
    (orders : definitions.declared.Orders w.registry.finished.names)
    (wanted : Wanted definitions n w) {definition : Definition κ}
    (hn : definitions.get? n = some definition) (hf : w.registry.finished.get? n = none) :
  Meets (crew.host c) w (Attempt.create n (.component n definition))
    (fun _ => Supplied definitions n w) (Rejected definitions n)
  := by
  apply hs.meets_create (S := fun _ => Supplied definitions n w) hf
  · intro deep
    apply absurd (h.depth_lt hs plain.room) (Nat.not_lt_of_le deep)
  · intro hc
    apply absurd hc wanted.absent
  · intro hlt _ v hv
    obtain ⟨j, rfl⟩ : ∃ j, k = j + 1 := Nat.exists_eq_add_one_of_ne_zero (by omega)
    have hd : c.settings.maxCreationDepth ≤ w.registry.guard.depth + 1 + j := by omega
    apply ((hk j (Nat.lt_succ_self j)).meets_construct plain hd hs hgap hn
      (Preparing.begin hs hgap h orders wanted hf hv)).mono
    · intro i v h
      have underway := h.progress.underway
      use underway.finished_eq, underway.guard
      intro w' hw'
      have kept := h.progress.kept.installing (i := i) underway.guard
        (fun d hd => (h.progress.met d hd).1) fun he d hd => (h.progress.met d hd).2 he
      constructor
      case grown =>
        use kept.alike hw'
        intro m hm
        rcases World.isFinished_installing.mp (hw'.isFinished_iff.mp hm) with rfl | hm
        · right
          apply ReflTransGen.refl
        · apply h.progress.grown m hm
      case orders =>
        have names : w'.registry.finished.names = v.registry.finished.names ++ [n] := by
          rw [hw'.finished_eq, World.names_installing underway.finished_eq]
        rw [names]
        apply h.orders.concat
        intro d need
        apply Catalog.mem_names_iff.mpr
        apply (h.progress.met d need).2 id
    · rintro e v ⟨broken, rejected⟩
      use broken.guard, broken.sound.fits
      intro D v' w' causes _ _ hz hw'
      use (rejected.kept.abandoning hz broken.guard id).alike hw'
      rw [Error.root_withRelated]
      apply rejected.closes

/-- Creating a name comes out as the declarations say, if it does so with less room for nesting. -/
theorem of_lt (hk : ∀ j < k, Procures crew c definitions j)
    (plain : crew.OnlyDeclares c definitions) :
  Procures crew c definitions k
  := by
  intro gap w d hd hs hgap h orders wanted
  have unoffered : ¬ w.registry.IsOffered d := fun ho => wanted.absent (hs.offered d ho)
  apply hs.meets_resolveAlone
  case stands =>
    intro i _
    use ⟨h, fun _ => .inl⟩
  case made =>
    intro raw i own ho
    apply absurd ho unoffered
  case failed =>
    intro raw e own w' ho
    apply absurd ho unoffered
  case missing =>
    intro hm
    have defined := wanted.defined
    rw [← h.filed, Catalog.contains, hm] at defined
    cases defined
  case create =>
    intro definition hdef hf _
    rw [h.filed] at hdef
    apply meets_create hk plain hd hs hgap h orders wanted hdef hf

end Procures

/-- Creating a name comes out as the declared dependencies say. -/
theorem procures (plain : crew.OnlyDeclares c definitions) (k : Nat) :
  Procures crew c definitions k
  := by
  induction k using Nat.strongRecOn with
  | _ k ih => apply Procures.of_lt ih plain

/-! ### Calls for components that declare dependencies -/

/-- A call for a component of an idle container comes out as the declarations say. -/
theorem Idle.meets_get_declared (plain : crew.OnlyDeclares c definitions) (h : Idle c w)
    (hk : Kept definitions definitions.declared False w)
    (orders : definitions.declared.Orders w.registry.finished.names)
    (hn : definitions.contains n = true) :
  Meets (crew.host c) w ((Call.get n).perform c)
    (fun i? w' => (∃ i, i? = some i ∧ w'.registry.finished.get? n = some i) ∧ Passed c w w' ∧
      Supplied definitions n w w')
    (fun e w' => Passed c w w' ∧ Rejected definitions n e w')
  := by
  have hd := Nat.le_add_left c.settings.maxCreationDepth w.registry.guard.depth
  have wanted : Wanted definitions n w := ⟨hn, h.idle n, fun u hu => absurd hu (h.idle u)⟩
  apply meets_map
  apply meets_resolve_none
  apply (((resolves crew c _).at_noGap hd h.sound).and
    (procures plain _ noGap w n hd h.sound (fun _ _ => False.elim) hk orders wanted)).mono
  · rintro i w' ⟨⟨hp, hs⟩, supplied⟩
    use ⟨i, rfl, (h.passed hp).finished_of_stands hs⟩, hp
  · rintro e w' ⟨hp, rejected⟩
    use hp

/-- Of definitions that only declare dependencies, a component of a fresh container resolves exactly
if no cycle of declared dependencies can be reached from it.  Then the components that are finished
are those that can be reached, each listed after its dependencies, and the dependents of a component
are those of them that declare it.  Otherwise the error tells where such a cycle closes, no
component is finished from which a cycle can be reached, and no link has an end at a component that
is not finished. -/
theorem declared_resolves_iff_acyclic (crew : Crew κ σ) (c : Container κ)
    (definitions : Catalog (Definition κ)) (plain : crew.OnlyDeclares c definitions)
    (hc : c.settings.exemptNames = []) (s : σ) (hn : definitions.contains n = true) :
  ∃ outcome w', (∀ o v, (Call.get n).Ends crew c (c.opened definitions s) o v ↔
      o = .ok outcome ∧ v = w') ∧
    ((∃ i?, outcome = .ok i?) ↔
      ¬ ∃ u, ReflTransGen definitions.Declares n u ∧ TransGen definitions.Declares u u) ∧
    (∀ i?, outcome = .ok i? → (∃ i, i? = some i ∧ w'.registry.finished.get? n = some i) ∧
      (∀ m, m ∈ w'.registry.finished.names ↔ ReflTransGen definitions.Declares n m) ∧
      (∀ m d, m ∈ w'.registry.finished.names → definitions.Declares m d →
        [d, m].Sublist w'.registry.finished.names) ∧
      (∀ m d, m ∈ w'.registry.graph.dependentsOf d ↔
        m ∈ w'.registry.finished.names ∧ definitions.Declares m d)) ∧
    (∀ e, outcome = .error e → Closes definitions.Declares n e.root ∧
      (∀ m u, ReflTransGen definitions.Declares m u → TransGen definitions.Declares u u →
        m ∉ w'.registry.finished.names) ∧
      (∀ a b, w'.registry.graph.dependents.has a b = true ∨
        w'.registry.graph.dependencies.has a b = true ∨
        w'.registry.graph.contained.has a b = true →
        a ∈ w'.registry.finished.names ∧ b ∈ w'.registry.finished.names))
  := by
  have h := c.idle_opened hc definitions s
  have orders : definitions.declared.Orders (c.opened definitions s).registry.finished.names := by
    rintro m d ⟨⟩
  obtain ⟨outcome, w', ho, run⟩ :=
    (h.meets_get_declared plain (Kept.opened c definitions definitions.declared False s) orders
      hn).runs
  have listed : ∀ m, m ∈ w'.registry.finished.names ↔ w'.registry.IsFinished m :=
    fun m => Catalog.mem_names_iff
  rw [← Catalog.needs_declared]
  use outcome, w', run
  cases outcome with
  | ok i? =>
    obtain ⟨⟨i, rfl, hi⟩, hp, grown, orders⟩ := ho
    have idle := h.passed hp
    refine ⟨iff_of_true ⟨some i, rfl⟩ ?_, ?_, ?_⟩
    · apply Wiring.not_cyclic_of_acc
      apply grown.kept.grounded id n ⟨i, hi⟩
    · rintro _ ⟨⟩
      refine ⟨⟨i, rfl, hi⟩, ?_, orders, ?_⟩
      -- nothing was finished before
      · intro m
        apply (listed m).trans
        apply (grown.isFinished_iff h hp ⟨i, hi⟩).trans
        apply or_iff_right
        rintro ⟨j, ⟨⟩⟩
      · intro m d
        rw [listed]
        apply mem_dependentsOf.trans
        apply grown.kept.dependsOn_iff idle
    · rintro e ⟨⟩
  | error e =>
    obtain ⟨hp, rejected⟩ := ho
    have tidy := (h.passed hp).tidy
    refine ⟨iff_of_false ?_ ?_, ?_, ?_⟩
    · rintro ⟨i?, ⟨⟩⟩
    · apply not_not_intro rejected.closes.exists_cycle
    · rintro i? ⟨⟩
    · rintro _ ⟨⟩
      use rejected.closes
      simp only [listed]
      constructor
      · intro m u hu cycle hm
        apply Wiring.not_cyclic_of_acc (rejected.kept.grounded id m hm) ⟨u, hu, cycle⟩
      · rintro a b (hab | hab | hab)
        · apply tidy.dependents a b hab
        · apply tidy.dependencies a b hab
        · apply absurd hab (tidy.contained a b)

/-- A component that declares dependencies and asks for nothing. -/
def Definition.declaring (n : Name) (dependsOn : List Name) : Definition (List Name) :=
  { asking n [] [] with dependsOn := dependsOn }

/-- The crew that asks for names does no more than declare dependencies, if the definitions do no
more than that. -/
theorem Crew.onlyDeclares_asking {c : Container (List Name)}
    {definitions : Catalog (Definition (List Name))}
    (declaring : ∀ n d, definitions.get? n = some d → ∃ names, d = .declaring n names)
    (closed : ∀ n d, definitions.Declares n d → definitions.contains d = true)
    (room : definitions.size < c.settings.maxCreationDepth) :
  asking.OnlyDeclares c definitions
  where
  making n d hd := by
    obtain ⟨names, rfl⟩ := declaring n d hd
    intro k
    exact ⟨rfl, ⟨k⟩, rfl⟩
  populating n d hd := by
    obtain ⟨names, rfl⟩ := declaring n d hd
    intro i
    exact ⟨rfl, (), rfl⟩
  readying n d hd := by
    obtain ⟨names, rfl⟩ := declaring n d hd
    rfl
  passing s n i own _ := by
    use i
    rw [passBy_asking]
  closed := closed
  room := room

/-- A container for some more components. -/
def Container.roomy : Container (List Name) := ⟨⟨true, 8, [], false⟩, ∅⟩

namespace Catalog

/-- A component, one that declares it, one that declares both of these, and two that declare each
other, of which one declares the second component as well. -/
def mesh : Catalog (Definition (List Name)) :=
  ofList [("a", .declaring "a" []), ("b", .declaring "b" ["a"]), ("c", .declaring "c" ["a", "b"]),
    ("d", .declaring "d" ["b", "e"]), ("e", .declaring "e" ["d"])]

/-- The declarations of the mesh are these. -/
theorem mem_of_declares_mesh (h : mesh.Declares n d) :
  (n, d) ∈ [("b", "a"), ("c", "a"), ("c", "b"), ("d", "b"), ("d", "e"), ("e", "d")]
  := by
  obtain ⟨definition, hn, hd⟩ := h
  have edges : ∀ e ∈ mesh.entries, ∀ d ∈ e.2.dependsOn,
      (e.1, d) ∈ [("b", "a"), ("c", "a"), ("c", "b"), ("d", "b"), ("d", "e"), ("e", "d")] := by
    decide
  apply edges (n, definition) (mem_entries_of_get? hn) d hd

theorem onlyDeclares_mesh :
  Crew.asking.OnlyDeclares .roomy mesh
  := by
  apply Crew.onlyDeclares_asking
  · intro n definition hn
    have hm : (n, definition) ∈ [("a", Definition.declaring "a" []), ("b", .declaring "b" ["a"]),
        ("c", .declaring "c" ["a", "b"]), ("d", .declaring "d" ["b", "e"]),
        ("e", .declaring "e" ["d"])] := mem_entries_of_get? hn
    simp only [List.mem_cons, List.not_mem_nil, or_false, Prod.mk.injEq] at hm
    rcases hm with ⟨rfl, rfl⟩ | ⟨rfl, rfl⟩ | ⟨rfl, rfl⟩ | ⟨rfl, rfl⟩ | ⟨rfl, rfl⟩
    all_goals exact ⟨_, rfl⟩
  · intro n d hd
    have ends : ∀ e ∈ [("b", "a"), ("c", "a"), ("c", "b"), ("d", "b"), ("d", "e"), ("e", "d")],
        mesh.contains e.2 = true := by
      decide
    apply ends (n, d) (mem_of_declares_mesh hd)
  · decide

/-- No cycle can be reached from the third component. -/
theorem acyclic_mesh :
  ¬ ∃ u, ReflTransGen mesh.Declares "c" u ∧ TransGen mesh.Declares u u
  := by
  have a : Acc (fun d n => mesh.Declares n d) "a" := by
    constructor
    intro d hd
    simpa using mem_of_declares_mesh hd
  have b : Acc (fun d n => mesh.Declares n d) "b" := by
    constructor
    intro d hd
    obtain rfl : d = "a" := by simpa using mem_of_declares_mesh hd
    apply a
  have c : Acc (fun d n => mesh.Declares n d) "c" := by
    constructor
    intro d hd
    obtain rfl | rfl : d = "a" ∨ d = "b" := by simpa using mem_of_declares_mesh hd
    · apply a
    · apply b
  rw [← needs_declared] at c ⊢
  apply Wiring.not_cyclic_of_acc c

end Catalog

/-- The third component of the mesh is created after those that it declares.  The fourth one cannot
be created, and neither it nor the fifth one is left. -/
theorem declared_resolves_iff_acyclic_mesh :
  (∃ i w', (Call.get "c").Ends Crew.asking .roomy (Container.roomy.opened .mesh 0)
      (.ok (.ok (some i))) w' ∧
    ["b", "c"].Sublist w'.registry.finished.names ∧ "c" ∈ w'.registry.graph.dependentsOf "b") ∧
  ∃ e w', (Call.get "d").Ends Crew.asking .roomy (Container.roomy.opened .mesh 0)
      (.ok (.error e)) w' ∧
    Closes Catalog.mesh.Declares "d" e.root ∧ "d" ∉ w'.registry.finished.names ∧
    "e" ∉ w'.registry.finished.names
  := by
  constructor
  · obtain ⟨outcome, w', run, granted, succeeded, -⟩ := declared_resolves_iff_acyclic Crew.asking
      .roomy .mesh Catalog.onlyDeclares_mesh rfl 0 (n := "c") rfl
    obtain ⟨i?, rfl⟩ := granted.mpr Catalog.acyclic_mesh
    obtain ⟨⟨i, rfl, hi⟩, reached, listed, linked⟩ := succeeded i? rfl
    have cb : Catalog.mesh.Declares "c" "b" := ⟨_, rfl, by decide⟩
    have hc := (reached "c").mpr .refl
    use i, w', (run _ _).mpr ⟨rfl, rfl⟩, listed "c" "b" hc cb
    apply (linked "c" "b").mpr ⟨hc, cb⟩
  · obtain ⟨outcome, w', run, granted, -, failed⟩ := declared_resolves_iff_acyclic Crew.asking
      .roomy .mesh Catalog.onlyDeclares_mesh rfl 0 (n := "d") rfl
    have de : Catalog.mesh.Declares "d" "e" := ⟨_, rfl, by decide⟩
    have ed : Catalog.mesh.Declares "e" "d" := ⟨_, rfl, by decide⟩
    have cycle : TransGen Catalog.mesh.Declares "d" "d" := (TransGen.single de).tail ed
    cases outcome with
    | ok i? => apply absurd ⟨"d", .refl, cycle⟩ (granted.mp ⟨i?, rfl⟩)
    | error e =>
      obtain ⟨closes, unfinished, -⟩ := failed e rfl
      use e, w', (run _ _).mpr ⟨rfl, rfl⟩, closes, unfinished "d" "d" .refl cycle
      apply unfinished "e" "d" (.single ed) cycle

end Componentry
