import Componentry.Proofs.Duty

/-!
# Resolving a name at any moment

The main result, `copes`, says what resolving a name does to a container that is sound, however deep
it happens in the creation of other components: it ends, the container is sound afterwards, and what
was there before is spared.  If it succeeds, the instance that comes back stands.  If it fails, only
those components are lost that have declared the name as a dependency, directly or through others,
and wait for it.  If callbacks may panic, it may come to that as well; then `Wreck` says what the
panic leaves.  `resolves` is the case of a crew, which does not panic.

The proof is by induction on the number of creations that may still be nested.  A construction is
followed from phase to phase; `Underway` is what holds of it while it is under way.
-/

namespace Componentry

open Attempt Relation

variable {κ σ α : Type} {c : Container κ} {crew : Crew κ σ} {gap gap' : Name → Name → Prop}
  {lost : Name → Prop} {w₀ w w' u v : Situation κ σ} {n d : Name} {i : Ref}

/-! ### What is lost with a component -/

/-- The component `m` is lost if `d` cannot be created: `d` is missing, and `m` waits for it. -/
def Doomed (d : Name) (w : Situation κ σ) (m : Name) : Prop :=
  ¬ w.registry.IsPresent d ∧ ReflTransGen w.registry.graph.Pulls d m

namespace Sound

/-- What can be reached later on from a component that was missing is lost with `d`, or was
missing as well. -/
theorem doomed_of_reached (h : Sound c gap w) (hgap : ∀ a b, gap a b → b = d)
    (hd : ¬ w.registry.IsPresent d) (hs : Spares lost w w') (h' : Sound c gap' w') {x m : Name}
    (hx : ¬ w.registry.IsPresent x) (p : ReflTransGen w'.registry.graph.Pulls x m)
    (hm : w.registry.IsPresent m) :
  Doomed d w m
  := by
  induction p with
  | refl => apply absurd hm hx
  | @tail a b _ hab ih =>
    have hba : w.registry.DependsOn b a := hs.old b a hm (h'.pulls_iff.mp hab)
    use hd
    rcases h.target b a hba with ha | ha
    · apply (ih ha).2.tail (h.pulls_iff.mpr hba)
    · rw [hgap b a ha] at hba
      apply ReflTransGen.single (h.pulls_iff.mpr hba)

/-- What is lost with a component is held by none: it waits for its dependencies still. -/
theorem not_isFirm_of_doomed (h : Sound c gap w) {m : Name} (hm : Doomed d w m) :
  ¬ w.registry.IsFirm m
  := by
  obtain ⟨hd, p⟩ := hm
  induction p with
  | refl =>
    intro hf
    apply hd (h.isPresent_of_isFirm hf)
  | tail _ hab ih =>
    intro hf
    apply ih (h.firm _ _ (h.pulls_iff.mp hab) hf)

/-- Without gaps nothing waits for a component that is missing. -/
theorem not_doomed (h : Sound c noGap w) {m : Name} (hm : w.registry.IsPresent m) :
  ¬ Doomed d w m
  := by
  rintro ⟨hd, p⟩
  rcases p.cases_head with rfl | ⟨b, hdb, -⟩
  · apply hd hm
  · apply hd
    apply (h.target b d (h.pulls_iff.mp hdb)).resolve_right id

end Sound

/-- Nothing was lost between two moments, and the same components are in creation. -/
structure Passed (c : Container κ) (w w' : Situation κ σ) : Prop where
  sound : Sound c noGap w'
  spares : Spares nothing w w'
  guard : w'.registry.guard = w.registry.guard

/-- A name could not be resolved, and what waits for it may be lost. -/
structure Failed (c : Container κ) (gap : Name → Name → Prop) (d : Name) (w w' : Situation κ σ) :
    Prop where
  sound : Sound c gap w'
  spares : Spares (Doomed d w) w w'
  guard : w'.registry.guard = w.registry.guard

theorem Passed.refl (h : Sound c noGap w) :
  Passed c w w
  := ⟨h, Spares.refl _ w, rfl⟩

/-- Nothing is lost in two parts of a run one after the other. -/
theorem Passed.trans {w'' : Situation κ σ} (h : Passed c w w') (h' : Passed c w' w'') :
  Passed c w w''
  where
  sound := h'.sound
  spares := h.spares.trans h'.spares fun _ _ => id
  guard := h'.guard.trans h.guard

theorem Passed.alike {w'' : Situation κ σ} (h : Passed c w w') (h' : Alike w' w'') :
  Passed c w w''
  where
  sound := h'.sound h.sound
  spares := h'.spares h.spares
  guard := h'.guard_eq.trans h.guard

theorem Failed.refl (h : Sound c gap w) (d : Name) :
  Failed c gap d w w
  := ⟨h, Spares.refl _ w, rfl⟩

/-- A failure loses nothing, if there were no gaps. -/
theorem Failed.passed (h : Failed c noGap d w w') (hw : Sound c noGap w) :
  Passed c w w'
  where
  sound := h.sound
  spares := h.spares.mono fun _ hm hl => hw.not_doomed hm hl
  guard := h.guard

/-! ### A construction under way -/

/-- How far the construction of a component has come. -/
inductive Phase where
  /-- Its declared dependencies are created. -/
  | preparing
  /-- Its instance is being made, or has been made. -/
  | making
  /-- It is offered for early references. -/
  | offered

/-- The creation of `n` has begun at the moment `w₀`, and its construction is under way. -/
structure Underway (c : Container κ) (w₀ : Situation κ σ) (n : Name) (phase : Phase)
    (w : Situation κ σ) : Prop where
  sound : Sound c noGap w
  spares : Spares nothing w₀ w
  absent : ¬ w₀.registry.IsPresent n
  guard : w.registry.guard = w₀.registry.guard.entered n
  settled : ∀ d, w.registry.DependsOn n d → w.registry.IsFirm d
  shown : w.registry.IsOffered n ↔ phase = .offered
  held : phase ≠ .preparing → ∀ d i, (d, i) ∈ w.obtained n →
    w.registry.DependsOn n d ∧ w.registry.Stands d i

namespace Underway

variable {phase : Phase}

/-- A creation that was admitted is under way. -/
theorem begin (h : Sound c gap w₀) (hgap : ∀ a b, gap a b → b = n)
    (hn : ¬ w₀.registry.IsPresent n) (hw : Alike (w₀.onRegistry (·.enter n)) w) :
  Underway c w₀ n .preparing w
  where
  sound := hw.sound (h.enter hgap hn)
  spares := hw.spares ((Spares.refl nothing w₀).onlyAt hn (OnlyAt.enter n w₀))
  absent := hn
  guard := hw.guard_eq
  settled d hd := absurd (h.present n d (hw.dependsOn_iff.mp hd)) hn
  shown := by
    rw [hw.isOffered_iff]
    constructor
    · intro ho
      apply absurd (h.offered n ho) fun hc => hn (.inr hc)
    · rintro ⟨⟩
  held hp := absurd rfl hp

theorem isInCreation (h : Underway c w₀ n phase w) :
  w.registry.IsInCreation n
  := (Registry.isInCreation_of_entered h.guard).mpr (.inr rfl)

theorem isPresent (h : Underway c w₀ n phase w) :
  w.registry.IsPresent n
  := .inr h.isInCreation

theorem finished_eq (h : Underway c w₀ n phase w) :
  w.registry.finished.get? n = none
  := h.sound.apart n h.isInCreation

theorem not_mem (h : Underway c w₀ n phase w) :
  n ∉ w₀.registry.guard.inCreation
  := fun hn => h.absent (.inr hn)

/-- What is under way does not depend on what callbacks have of their own. -/
theorem alike (h : Underway c w₀ n phase w) (hw : Alike w w') :
  Underway c w₀ n phase w'
  where
  sound := hw.sound h.sound
  spares := hw.spares h.spares
  absent := h.absent
  guard := hw.guard_eq.trans h.guard
  settled d hd := hw.isFirm_iff.mpr (h.settled d (hw.dependsOn_iff.mp hd))
  shown := hw.isOffered_iff.trans h.shown
  held hp d i hi := by
    rw [hw.obtained_eq] at hi
    rw [hw.dependsOn_iff, hw.stands_iff]
    apply h.held hp d i hi

/-- What happens elsewhere does not disturb a construction, as long as nothing is lost. -/
theorem passed (h : Underway c w₀ n phase w) (hw : Passed c w w') :
  Underway c w₀ n phase w'
  where
  sound := hw.sound
  spares := h.spares.trans hw.spares fun _ _ => id
  absent := h.absent
  guard := hw.guard.trans h.guard
  settled d hd := hw.spares.isFirm h.sound (h.settled d (hw.spares.old n d h.isPresent hd))
  shown := (hw.spares.offered n h.isInCreation).trans h.shown
  held hp d i hi := by
    rw [hw.spares.obtained n h.isPresent] at hi
    obtain ⟨hd, hs⟩ := h.held hp d i hi
    use hw.spares.kept n d h.isPresent id hd
    apply hw.spares.stands h.sound hs

/-- A component under way may come to depend on another one that others may hold. -/
theorem depending (h : Underway c w₀ n phase w) (hd : w.registry.IsFirm d) :
  Underway c w₀ n phase (w.depending d n)
  where
  sound := by
    apply h.sound.depending (fun _ _ => id) h.isPresent fun _ => hd
    left
    apply h.sound.isPresent_of_isFirm hd
  spares := h.spares.onlyAt h.absent (OnlyAt.depending w d n)
  absent := h.absent
  guard := h.guard
  settled e he := by
    rcases World.dependsOn_depending.mp he with he | ⟨-, rfl⟩
    · apply h.settled e he
    · apply hd
  shown := h.shown
  held hp e i hi := by
    obtain ⟨he, hs⟩ := h.held hp e i hi
    use World.dependsOn_depending.mpr (.inl he)
    apply hs

/-- When the instance is to be made, nothing has been obtained for it yet. -/
theorem begun (h : Underway c w₀ n .preparing w) :
  Underway c w₀ n .making (w.noting (·.begin n))
  where
  sound := h.sound.noting h.isInCreation (OnlyAt.begin w n)
  spares := h.spares.onlyAt h.absent (OnlyAt.begin w n)
  absent := h.absent
  guard := h.guard
  settled := h.settled
  shown := by
    apply h.shown.trans
    constructor <;> rintro ⟨⟩
  held _ d i hi := by
    rw [World.obtained_begin] at hi
    cases hi

/-- What a component under way obtains stands, and is on record as one of its dependencies. -/
theorem entering {answer : Option Ref} (h : Underway c w₀ n phase w)
    (ha : ∀ i, answer = some i → w.registry.DependsOn n d ∧ w.registry.Stands d i) :
  Underway c w₀ n phase (w.entering n d answer)
  where
  sound := h.sound.noting h.isInCreation (OnlyAt.entering w n d answer)
  spares := h.spares.onlyAt h.absent (OnlyAt.entering w n d answer)
  absent := h.absent
  guard := h.guard
  settled := h.settled
  shown := h.shown
  held hp e i hi := by
    rcases World.mem_obtained_entering.mp hi with hi | ⟨j, hj, he⟩
    · apply h.held hp e i hi
    · obtain ⟨rfl, rfl⟩ := Prod.mk.inj he
      apply ha i hj

/-- A component in creation obtains an instance that stands. -/
theorem granted (h : Underway c w₀ n phase w) (hs : w.registry.Stands d i) :
  Underway c w₀ n phase ((w.depending d n).entering n d (some i))
  := by
  apply (h.depending hs.isFirm).entering
  rintro _ ⟨⟩
  use World.dependsOn_depending.mpr (.inr ⟨rfl, rfl⟩)
  apply hs

/-- After its instance was made, a component may be offered for early references. -/
theorem publishing (h : Underway c w₀ n .making w) (raw : Ref) :
  Underway c w₀ n .offered (w.publishing n (.earlyReference n raw))
  := by
  have ho : ¬ w.registry.IsOffered n := by
    rw [h.shown]
    rintro ⟨⟩
  have sound : Sound c noGap (w.publishing n (.earlyReference n raw)) :=
    h.sound.publishing h.isInCreation ho h.settled
  have spares := h.spares.onlyAt h.absent
    (OnlyAt.publishing (p := Recipe.earlyReference n raw) h.finished_eq)
  have firm : ∀ d, w.registry.IsFirm d →
      (w.publishing n (.earlyReference n raw)).registry.IsFirm d := by
    intro d hd
    rw [Registry.IsFirm, World.isOffered_publishing h.finished_eq,
      World.publishing_eq h.finished_eq]
    apply hd.imp_right .inr
  have shown : (w.publishing n (.earlyReference n raw)).registry.IsOffered n :=
    (World.isOffered_publishing h.finished_eq).mpr (.inl rfl)
  have stands : ∀ d i, w.registry.Stands d i →
      (w.publishing n (.earlyReference n raw)).registry.Stands d i := by
    intro d i hs
    by_cases hd : d = n
    · rw [hd] at hs
      rcases hs with hs | hs
      · rw [h.finished_eq] at hs
        cases hs
      · apply absurd (.inl ⟨i, hs⟩) ho
    · have only := OnlyAt.publishing (p := Recipe.earlyReference n raw) h.finished_eq
      apply (Registry.stands_congr (only.finished d hd) (only.early d hd)).mpr hs
  rw [World.publishing_eq h.finished_eq] at *
  constructor
  case sound => apply sound
  case spares => apply spares
  case absent => apply h.absent
  case guard => apply h.guard
  case settled =>
    intro d hd
    apply firm d (h.settled d hd)
  case shown => simp only [shown]
  case held =>
    intro _ d i hi
    obtain ⟨hd, hs⟩ := h.held (by rintro ⟨⟩) d i hi
    use hd
    apply stands d i hs

/-- A disposal may be registered for a component under way. -/
theorem awaiting (h : Underway c w₀ n phase w) {t : Teardown κ} (ht : t.name = n) :
  Underway c w₀ n phase (w.awaiting n t)
  where
  sound := h.sound.awaiting h.isPresent ht
  spares := h.spares.onlyAt h.absent (OnlyAt.awaiting w n t)
  absent := h.absent
  guard := h.guard
  settled := h.settled
  shown := h.shown
  held := h.held

/-- Nobody holds a component whose dependencies are still being created. -/
theorem not_isFirm (h : Underway c w₀ n .preparing w) :
  ¬ w.registry.IsFirm n
  := by
  rintro (hf | ho)
  · apply Registry.not_isFinished_iff.mpr h.finished_eq hf
  · cases h.shown.mp ho

/-- A declared dependency is recorded before there is anything of it. -/
theorem declaring (h : Underway c w₀ n .preparing w) (d : Name) :
  Sound c (fun a b => a = n ∧ b = d) (w.depending d n)
  := by
  apply h.sound.depending (fun _ _ => False.elim) h.isPresent
  · intro hn
    apply absurd hn h.not_isFirm
  · right
    use rfl

/-- A declared dependency was created, and the preparations go on. -/
theorem declared (h : Underway c w₀ n .preparing w) (hp : Passed c (w.depending d n) w')
    (hd : w'.registry.IsFirm d) :
  Underway c w₀ n .preparing w'
  where
  sound := hp.sound
  spares := (h.spares.onlyAt h.absent (OnlyAt.depending w d n)).trans hp.spares fun _ _ => id
  absent := h.absent
  guard := hp.guard.trans h.guard
  settled e he := by
    rcases World.dependsOn_depending.mp (hp.spares.old n e h.isPresent he) with he | ⟨-, rfl⟩
    · apply hp.spares.isFirm (h.declaring d) (h.settled e he)
    · apply hd
  shown := (hp.spares.offered n h.isInCreation).trans h.shown
  held hp := absurd rfl hp

/-- A construction that has come to its end leaves the component finished. -/
theorem installing (h : Underway c w₀ n phase w) (hp : phase ≠ .preparing)
    (early : ∀ j, w.registry.early.get? n = some j → i = j) :
  Passed c w₀ (w.installing w₀.registry.guard n i)
  where
  sound := h.sound.installing h.guard h.not_mem h.settled (h.held hp) early
  spares := h.spares.onlyAt h.absent (OnlyAt.installing h.guard)
  guard := rfl

end Underway

/-- The construction of `n`, which began at the moment `w₀`, has failed.  Links may lead from a
declared dependency that is missing to `n`. -/
structure Broken (c : Container κ) (w₀ : Situation κ σ) (n : Name) (w : Situation κ σ) : Prop where
  sound : Sound c (fun a _ => a = n) w
  spares : Spares (Doomed n w₀) w₀ w
  absent : ¬ w₀.registry.IsPresent n
  guard : w.registry.guard = w₀.registry.guard.entered n

/-- A construction may fail in each of its phases, and nothing is lost by that alone. -/
theorem Underway.broken {phase : Phase} (h : Underway c w₀ n phase w) :
  Broken c w₀ n w
  where
  sound := h.sound.mono fun _ _ _ => False.elim
  spares := h.spares.mono fun _ _ => False.elim
  absent := h.absent
  guard := h.guard

/-- A construction is broken off when a declared dependency cannot be created.  What waits for
that one waits for this component, too. -/
theorem Underway.undeclared (h₀ : Sound c gap w₀) (hgap : ∀ a b, gap a b → b = n)
    (h : Underway c w₀ n .preparing w)
    (hf : Failed c (fun a b => a = n ∧ b = d) d (w.depending d n) w') :
  Broken c w₀ n w'
  := by
  have hs := h.spares.onlyAt h.absent (OnlyAt.depending w d n)
  constructor
  case sound => apply hf.sound.mono fun _ _ _ hab => .inr hab.1
  case spares =>
    apply (hs.mono fun _ _ => False.elim).trans hf.spares
    intro m hm hl
    apply h₀.doomed_of_reached hgap h.absent hs (h.declaring d) _ hl.2 hm
    intro hd
    apply hl.1 (hs.isPresent hd)
  case absent => apply h.absent
  case guard => apply hf.guard.trans h.guard

/-- When what there is of a component has been destroyed, its creation has failed. -/
theorem Broken.abandoning {D : List Name} (h₀ : Sound c gap w₀) (hgap : ∀ a b, gap a b → b = n)
    (h : Broken c w₀ n w) (hn : n ∈ D)
    (hr : ∀ a ∈ D, ReflTransGen w.registry.graph.Pulls n a) (hz : Razed D w w') :
  Failed c gap n w₀ (w'.abandoning w₀.registry.guard n)
  := by
  have hg : w'.registry.guard = w₀.registry.guard.entered n := hz.registry.guard.trans h.guard
  constructor
  case sound =>
    apply (hz.sound h.sound).abandoning hg
    · intro hc
      apply h.absent (.inr hc)
    · intro ho
      apply (hz.isOffered_iff.mp ho).1 hn
    · rw [hz.disposals, if_pos hn]
    · intro a b hab
      obtain ⟨ha, hb, -⟩ := hz.dependsOn_iff.mp hab
      constructor
      · rintro rfl
        apply ha hn
      · rintro rfl
        apply hb hn
    · rintro a b hab rfl
      apply absurd hn (hz.dependsOn_iff.mp hab).1
  case spares =>
    apply Spares.onlyAt _ h.absent (OnlyAt.abandoning hg)
    apply hz.spares h.spares
    intro m hm hD
    have hd := h₀.doomed_of_reached hgap h.absent h.spares h.sound h.absent (hr m hD) hm
    use hd, h₀.not_isFirm_of_doomed hd
  case guard => rfl

/-! ### A creation that is broken off -/

/-- The container with other producers of early references. -/
def World.supplying (w : Situation κ σ) (producers : Catalog (Recipe κ)) : Situation κ σ :=
  w.onRegistry fun r => { r with producers := producers }

/-- Between the two moments creations were broken off, and nothing else has happened. -/
structure Unwound (u v : Situation κ σ) : Prop where
  finished : v.registry.finished = u.registry.finished
  graph : v.registry.graph = u.registry.graph
  disposals : v.registry.disposals = u.registry.disposals
  inDestruction : v.registry.inDestruction = u.registry.inDestruction
  memory : v.memory = u.memory

theorem Unwound.refl (w : Situation κ σ) :
  Unwound w w
  := ⟨rfl, rfl, rfl, rfl, rfl⟩

/-- A panic has broken out at the moment `u`, and at the moment `v` it has unwound all that began
after the moment `w`.  But for a producer that was taken out, the container was sound at `u`, and
nothing was lost.  The creations that were broken off are not offered any more. -/
structure Wreck (c : Container κ) (w u v : Situation κ σ) : Prop where
  whole : ∃ producers, Sound c noGap (u.supplying producers) ∧
    Spares nothing w (u.supplying producers)
  guard : v.registry.guard = w.registry.guard
  offered : ∀ n, v.registry.IsOffered n → w.registry.IsInCreation n
  unwound : Unwound u v

namespace Wreck

/-- A panic that breaks out here. -/
theorem here (h : Sound c noGap w) :
  Wreck c w w w
  where
  whole := ⟨w.registry.producers, h, Spares.refl nothing w⟩
  guard := rfl
  offered := h.offered
  unwound := Unwound.refl w

/-- A panic that breaks out while an early reference is made. -/
theorem producing (h : Sound c noGap w) (d : Name) (own : σ) :
  Wreck c w ((w.producing d).noting (·.withOwn own)) ((w.producing d).noting (·.withOwn own))
  where
  whole := by
    use w.registry.producers
    constructor
    · apply (Alike.noting w own).sound h
    · apply (Alike.noting w own).spares (Spares.refl nothing w)
  guard := rfl
  offered n hn := by
    apply h.offered n
    apply hn.imp_right
    rintro ⟨p, hp⟩
    use p, Catalog.of_get?_erase hp
  unwound := Unwound.refl _

/-- What was spared before is spared as well. -/
theorem spares (h : Wreck c w u v) (hs : Spares nothing w₀ w) :
  ∃ producers, Sound c noGap (u.supplying producers) ∧ Spares nothing w₀ (u.supplying producers)
  := by
  obtain ⟨producers, sound, spares⟩ := h.whole
  refine ⟨producers, sound, ?_⟩
  apply hs.trans spares fun _ _ => id

/-- Nothing was lost before. -/
theorem after (h : Wreck c w u v) (hp : Passed c w₀ w) :
  Wreck c w₀ u v
  where
  whole := h.spares hp.spares
  guard := h.guard.trans hp.guard
  offered n hn := (Registry.isInCreation_congr hp.guard).mp (h.offered n hn)
  unwound := h.unwound

/-- The creation of `n`, which had begun at `w₀`, is broken off. -/
theorem abandon (h : Wreck c w u v) (hs : Spares nothing w₀ w)
    (exempt : w₀.registry.guard.exempt = ∅) (hn : n ∉ w₀.registry.guard.inCreation)
    (hg : w.registry.guard = w₀.registry.guard.entered n) (collects : Bool) :
  Wreck c w₀ u (v.onRegistry (·.abandon n collects))
  := by
  obtain ⟨suppressed, hl⟩ := Registry.leave_of_entered (h.guard.trans hg) exempt hn collects
  have ha : v.onRegistry (·.abandon n collects)
      = ⟨{ (v.abandoning w₀.registry.guard n).registry with suppressed := suppressed },
        v.memory⟩ := by
    simp only [World.onRegistry, Registry.abandon, hl]
    rfl
  rw [ha]
  constructor
  case whole => apply h.spares hs
  case guard => rfl
  case offered =>
    intro m hm
    obtain ⟨hmn, hm⟩ := World.isOffered_abandoning.mp hm
    apply ((Registry.isInCreation_of_entered hg).mp (h.offered m hm)).resolve_right hmn
  case unwound => exact { h.unwound with }

end Wreck

/-- A panic has unwound what serves the creation of `n`, which is broken off next. -/
def Sinking (c : Container κ) (w₀ : Situation κ σ) (n : Name) (u v : Situation κ σ) : Prop :=
  ∀ collects, Wreck c w₀ u (v.onRegistry (·.abandon n collects))

/-- A panic breaks a construction off in each of its phases. -/
theorem Underway.sinking {phase : Phase} (h : Underway c w₀ n phase w) (hw : Wreck c w u v) :
  Sinking c w₀ n u v
  := by
  have exempt := h.sound.exempt
  rw [h.guard] at exempt
  apply hw.abandon h.spares exempt h.not_mem h.guard

/-- A panic in the creation of a declared dependency. -/
theorem Underway.sinking_declaring (h : Underway c w₀ n .preparing w)
    (hw : Wreck c (w.depending d n) u v) :
  Sinking c w₀ n u v
  := by
  have exempt := h.sound.exempt
  rw [h.guard] at exempt
  apply hw.abandon (h.spares.onlyAt h.absent (OnlyAt.depending w d n)) exempt h.not_mem h.guard

/-! ### The induction -/

/-- Resolving a name comes out as it should, whenever at most `k` creations may still be nested.
Only links that lead from this name may lead from a component that is missing.  If there is a risk,
it may panic as well. -/
def Copes (b : Behaviour κ (Ledger σ)) (c : Container κ) (risk : Prop) (k : Nat) : Prop :=
  ∀ (gap : Name → Name → Prop) (w : Situation κ σ) (d : Name),
    c.settings.maxCreationDepth ≤ w.registry.guard.depth + k → Sound c gap w →
    (∀ a b, gap a b → b = d) →
    Faces (c.host b) w (c.resolveAlone d)
      (fun i w' => Passed c w w' ∧ w'.registry.Stands d i) (fun _ w' => Failed c gap d w w')
      (fun u v => risk ∧ Wreck c w u v)

namespace Copes

variable {b : Behaviour κ (Ledger σ)} {risk : Prop} {k : Nat} {phase : Phase}

/-- Without gaps nothing is lost, whether the name can be resolved or not. -/
theorem at_noGap (hk : Copes b c risk k)
    (hd : c.settings.maxCreationDepth ≤ w.registry.guard.depth + k) (h : Sound c noGap w) :
  Faces (c.host b) w (c.resolveAlone d)
    (fun i w' => Passed c w w' ∧ w'.registry.Stands d i) (fun _ w' => Passed c w w')
    (fun u v => risk ∧ Wreck c w u v)
  := by
  apply (hk noGap w d hd h fun _ _ => False.elim).mono (fun _ _ => id) _ fun _ _ => id
  intro _ w' hf
  apply hf.passed h

/-- While a construction is under way, one creation fewer may be nested. -/
theorem at_underway (hk : Copes b c risk k)
    (hd : c.settings.maxCreationDepth ≤ w₀.registry.guard.depth + 1 + k)
    (h : Underway c w₀ n phase w) :
  Faces (c.host b) w (c.resolveAlone d)
    (fun i w' => Underway c w₀ n phase ((w'.depending d n).entering n d (some i)))
    (fun _ w' => Underway c w₀ n phase w') (fun u v => risk ∧ Sinking c w₀ n u v)
  := by
  have hd : c.settings.maxCreationDepth ≤ w.registry.guard.depth + k := by
    rw [h.guard]
    apply hd
  apply (hk.at_noGap hd h.sound).mono
  · intro i w' hw
    obtain ⟨hp, hs⟩ := hw
    apply (h.passed hp).granted hs
  · intro _ w' hp
    apply h.passed hp
  · rintro u v ⟨hr, hw⟩
    use hr, h.sinking hw

/-- A construction under way stays so, whatever its callbacks do. -/
theorem served (hk : Copes b c risk k)
    (hd : c.settings.maxCreationDepth ≤ w₀.registry.guard.depth + 1 + k) :
  Served (c.host b) c n risk (Underway c w₀ n phase) (fun u v => risk ∧ Sinking c w₀ n u v)
  where
  revised w own h := h.alike (Alike.noting w own)
  panicked hr w h := ⟨hr, h.sinking (Wreck.here h.sound)⟩
  requested d w h := faces_request (hk.at_underway hd h)
  requestedOptional d w h := by
    apply faces_resolveOptional
    · apply h.entering
      rintro _ ⟨⟩
    · apply faces_resolve_some
      apply (hk.at_underway hd h).mono (fun _ _ => id) _ fun _ _ => id
      intro e w' h
      apply (h.alike (Alike.suppress w' e)).entering
      rintro _ ⟨⟩
  awaited k w h := h.awaiting rfl

/-- The declared dependencies are created one after the other, until one of them fails. -/
theorem faces_createDependencies (hk : Copes b c risk k)
    (hd : c.settings.maxCreationDepth ≤ w₀.registry.guard.depth + 1 + k) (h₀ : Sound c gap w₀)
    (hgap : ∀ a b, gap a b → b = n) (names : List Name) (h : Underway c w₀ n .preparing w) :
  Faces (c.host b) w (c.createDependencies n names)
    (fun _ => Underway c w₀ n .preparing) (fun _ => Broken c w₀ n)
    (fun u v => risk ∧ Sinking c w₀ n u v)
  := by
  induction names generalizing w with
  | nil =>
    apply Meets.faces
    apply meets_pure
    apply h
  | cons d names ih =>
    rw [Container.createDependencies]
    apply faces_bind
    apply Meets.faces
    apply meets_reads
    split
    · apply Meets.faces
      apply meets_bind
      apply meets_throw h.broken
    · apply faces_bind
      apply Meets.faces
      apply meets_edit
      apply faces_bind
      apply faces_map
      apply faces_mapError
      have hd' : c.settings.maxCreationDepth ≤ (w.depending d n).registry.guard.depth + k := by
        change _ ≤ w.registry.guard.depth + k
        rw [h.guard]
        apply hd
      apply (hk _ (w.depending d n) d hd' (h.declaring d) fun _ _ hab => hab.2).mono
      · intro i w' hw
        obtain ⟨hp, hs⟩ := hw
        apply ih (h.declared hp hs.isFirm)
      · intro e w' hf
        apply h.undeclared h₀ hgap hf
      · rintro u v ⟨hr, hw⟩
        use hr, h.sinking_declaring hw

end Copes

/-- The phase in which a construction ends. -/
def Container.lastPhase (c : Container κ) : Phase :=
  if c.settings.allowCircularReferences then .offered else .making

namespace Underway

variable {phase : Phase}

/-- The component is offered for early references if the container allows circular ones. -/
theorem offering (h : Underway c w₀ n .making w) (raw : Ref) :
  Underway c w₀ n c.lastPhase (w.offering c n raw)
  := by
  rw [Container.lastPhase, World.offering]
  split
  · apply h.publishing raw
  · apply h

theorem arranging (h : Underway c w₀ n phase w) (k? : Option κ) (i : Ref) :
  Underway c w₀ n phase (w.arranging n k? i)
  := by
  cases k? with
  | none => apply h
  | some _ => apply h.awaiting rfl

theorem isCurrentlyInCreation (h : Underway c w₀ n phase w) :
  w.registry.guard.isCurrentlyInCreation n = true
  := by
  have hx : ¬ w.registry.guard.exempt.contains n = true := by
    rw [h.sound.exempt, Roster.contains_iff]
    apply Roster.notMem_empty
  have hc : w.registry.guard.isEntered n = true := Roster.contains_iff.mpr h.isInCreation
  rw [Guard.isCurrentlyInCreation, hc, Bool.and_true, Bool.not_eq_true']
  apply eq_false_of_ne_true hx

end Underway

/-- The construction of `n` has succeeded with `i`, which is the early reference to `n`, if there
is one. -/
def Complete (c : Container κ) (w₀ : Situation κ σ) (n : Name) (i : Ref) (w : Situation κ σ) :
    Prop :=
  Underway c w₀ n c.lastPhase w ∧ ∀ j, w.registry.early.get? n = some j → i = j

theorem Container.lastPhase_ne (c : Container κ) :
  c.lastPhase ≠ .preparing
  := by
  rw [lastPhase]
  split <;> rintro ⟨⟩

/-- Components are offered exactly where circular references are allowed. -/
theorem Container.lastPhase_eq_offered_iff :
  c.lastPhase = .offered ↔ c.settings.allowCircularReferences = true
  := by
  rw [lastPhase]
  by_cases ha : c.settings.allowCircularReferences = true
  · simp [ha]
  · simp [ha]

/-- The construction succeeds with the instance that is exposed, unless an interceptor has put it
in the place of the raw one after others got hold of that. -/
theorem Underway.meets_settle {host : Host (Recipe κ) (Teardown κ) (Site κ (Ledger σ))}
    {S : Ref → Situation κ σ → Prop} {F : Error → Situation κ σ → Prop}
    (h : Underway c w₀ n c.lastPhase w) {raw exposed : Ref}
    (complete : ∀ i, Complete c w₀ n i w → S i w)
    (mismatch : exposed ≠ raw → F (.earlyReferenceMismatch n) w) :
  Meets host w
    (if c.settings.allowCircularReferences then Container.settle n raw exposed else pure exposed)
    S F
  := by
  by_cases ha : c.settings.allowCircularReferences = true
  · rw [if_pos ha]
    apply Componentry.meets_settle h.isInCreation h.finished_eq _ _ mismatch
    · intro he
      apply complete
      use h
      rw [he]
      rintro j ⟨⟩
    · intro i hi
      apply complete
      use h
      rw [hi]
      rintro j ⟨⟩
      rfl
  · rw [if_neg ha]
    apply meets_pure
    apply complete
    use h
    intro j hj
    apply absurd (Container.lastPhase_eq_offered_iff.mp (h.shown.mp (.inl ⟨j, hj⟩))) ha

theorem Complete.arranging (h : Complete c w₀ n i w) (k? : Option κ) (j : Ref) :
  Complete c w₀ n i (w.arranging n k? j)
  := by
  use h.1.arranging k? j
  cases k? with
  | none => apply h.2
  | some _ => apply h.2

namespace Copes

variable {b : Behaviour κ (Ledger σ)} {risk : Prop} {k : Nat}

/-- A construction completes or breaks, if resolving copes with one creation less. -/
theorem faces_construct (hb : b.Dutiful c risk) (hk : Copes b c risk k)
    (hd : c.settings.maxCreationDepth ≤ w₀.registry.guard.depth + 1 + k) (h₀ : Sound c gap w₀)
    (hgap : ∀ a b, gap a b → b = n) (definition : Definition κ)
    (h : Underway c w₀ n .preparing w) :
  Faces (c.host b) w (c.construct b n definition)
    (fun i => Complete c w₀ n i) (fun _ => Broken c w₀ n)
    (fun u v => risk ∧ Sinking c w₀ n u v)
  := by
  have broken : ∀ (phase : Phase) (_ : Error) (w : Situation κ σ), Underway c w₀ n phase w →
      Broken c w₀ n w := fun _ _ _ h => h.broken
  apply Componentry.faces_construct (hk.faces_createDependencies hd h₀ hgap _ h)
  case instantiate =>
    intro w h
    apply (hb.instantiate _ n _ _ w (hk.served hd) h.begun).mono (fun _ _ => id) (broken .making)
      fun _ _ => id
  case inCreation =>
    intro raw w h
    apply h.isCurrentlyInCreation
  case populate =>
    intro raw w h
    apply (hb.faces_wireWith (hk.served hd) (h.offering raw) _ raw).mono (fun _ _ => id)
      (broken c.lastPhase) fun _ _ => id
  case beforeInit =>
    intro raw w h
    apply (hb.faces_intercept (hk.served hd).toSteady h _ raw).mono (fun _ _ => id)
      (broken c.lastPhase) fun _ _ => id
  case init =>
    intro raw i w h
    apply (hb.faces_wireWith (hk.served hd) h _ i).mono (fun _ _ => id) (broken c.lastPhase)
      fun _ _ => id
  case afterInit =>
    intro raw i w h
    apply (hb.faces_intercept (hk.served hd).toSteady h _ i).mono (fun _ _ => id)
      (broken c.lastPhase) fun _ _ => id
  case settle =>
    intro raw i w h
    apply Meets.faces
    apply h.meets_settle
    · intro i hi
      apply hi.arranging
    · intro _
      apply h.broken

/-- A creation installs the component, or destroys what there is of it. -/
theorem faces_create (hb : b.Dutiful c risk) (hk : ∀ j < k, Copes b c risk j)
    (hd : c.settings.maxCreationDepth ≤ w.registry.guard.depth + k) (h : Sound c gap w)
    (hgap : ∀ a b, gap a b → b = n) (hn : w.registry.finished.get? n = none)
    (definition : Definition κ) :
  Faces (c.host b) w (Attempt.create n (.component n definition))
    (fun m w' => Passed c w w' ∧ w'.registry.Stands n m.ref) (fun _ w' => Failed c gap n w w')
    (fun u v => risk ∧ Wreck c w u v)
  := by
  obtain ⟨dispose, hear, keeps⟩ := hb.keeps
  apply h.faces_create (S := fun i w' => Passed c w w' ∧ w'.registry.Stands n i) keeps hn
  · intro _
    apply Failed.refl h
  · intro _
    apply Failed.refl h
  · intro hlt hc v hv
    have absent : ¬ w.registry.IsPresent n := Registry.not_isPresent_iff.mpr ⟨hn, hc⟩
    obtain ⟨j, rfl⟩ : ∃ j, k = j + 1 := Nat.exists_eq_add_one_of_ne_zero (by omega)
    have hd : c.settings.maxCreationDepth ≤ w.registry.guard.depth + 1 + j := by omega
    apply ((hk j (Nat.lt_succ_self j)).faces_construct hb hd h hgap definition
      (Underway.begin h hgap absent hv)).mono
    · intro i v hv
      obtain ⟨hv, early⟩ := hv
      use hv.finished_eq, hv.guard
      intro w' hw'
      use (hv.installing c.lastPhase_ne early).alike hw'
      apply hw'.stands_iff.mpr
      left
      rw [World.finished_installing, if_pos rfl]
    · intro e v hv
      use hv.guard, hv.sound.fits
      intro D v' w' causes hD hr hz hw'
      have hf := hv.abandoning h hgap hD hr hz
      use hw'.sound hf.sound, hw'.spares hf.spares, hw'.guard_eq
    · rintro u v ⟨hr, hw⟩ collects
      exact ⟨hr, hw collects⟩

/-- Resolving a name copes with `k` nested creations if it copes with fewer. -/
theorem of_lt (hb : b.Dutiful c risk) (hk : ∀ j < k, Copes b c risk j) :
  Copes b c risk k
  := by
  intro gap w d hd h hgap
  have closed : w.registry.IsFirm d → Sound c noGap w := by
    intro hf
    apply h.mono
    intro a b hab hg
    rw [hgap a b hg]
    left
    apply h.isPresent_of_isFirm hf
  apply h.faces_resolveAlone
  case stands =>
    intro i hi
    use Passed.refl (closed hi.isFirm)
  case produce =>
    intro raw hc he hp
    have ho : w.registry.IsOffered d := .inr ⟨_, hp⟩
    have closed := closed (.inr ho)
    -- an interceptor leaves the container as it finds it, with the producer taken out
    have steady : Steady risk (fun w' => ∃ own, w' = (w.producing d).noting (·.withOwn own))
        (fun u v => risk ∧ Wreck c w u v) := by
      constructor
      case revised =>
        rintro _ own' ⟨own, rfl⟩
        use own'
        rfl
      case panicked =>
        rintro hr _ ⟨own, rfl⟩
        exact ⟨hr, Wreck.producing closed d own⟩
    apply (hb.faces_intercept steady ⟨w.memory.scratch.own, rfl⟩ _ raw).mono _ _ fun _ _ => id
    · rintro i _ ⟨own, rfl⟩
      have hw := (Passed.refl closed).alike (Alike.noting w own)
      constructor
      · use hw.sound.memoizing ho he, hw.spares.memoizing ho he
        apply hw.guard
      · right
        apply Catalog.get?_insert_self
    · rintro e _ ⟨own, rfl⟩
      have hw := (Alike.noting w own).trans
        (Alike.restoring (w := w.noting (·.withOwn own)) hc (h.apart d hc) hp)
      use hw.sound h, hw.spares (Spares.refl _ w), hw.guard_eq
  case missing =>
    intro _
    apply Failed.refl h
  case create =>
    intro definition _ hf _
    apply faces_create hb hk hd h hgap hf

end Copes

/-- Resolving a name comes out as it should, if callbacks keep to the contexts of creations. -/
theorem copes {b : Behaviour κ (Ledger σ)} {risk : Prop} (hb : b.Dutiful c risk) (k : Nat) :
  Copes b c risk k
  := by
  induction k using Nat.strongRecOn with
  | _ k ih => apply Copes.of_lt hb ih

/-! ### Crews -/

/-- Resolving a name comes out as it should for a crew, which does not panic. -/
def Resolves (crew : Crew κ σ) (c : Container κ) (k : Nat) : Prop :=
  ∀ (gap : Name → Name → Prop) (w : Situation κ σ) (d : Name),
    c.settings.maxCreationDepth ≤ w.registry.guard.depth + k → Sound c gap w →
    (∀ a b, gap a b → b = d) →
    Meets (crew.host c) w (c.resolveAlone d)
      (fun i w' => Passed c w w' ∧ w'.registry.Stands d i) (fun _ w' => Failed c gap d w w')

namespace Resolves

variable {k : Nat} {phase : Phase}

theorem at_noGap (hk : Resolves crew c k)
    (hd : c.settings.maxCreationDepth ≤ w.registry.guard.depth + k) (h : Sound c noGap w) :
  Meets (crew.host c) w (c.resolveAlone d)
    (fun i w' => Passed c w w' ∧ w'.registry.Stands d i) (fun _ w' => Passed c w w')
  := by
  apply (hk noGap w d hd h fun _ _ => False.elim).mono fun _ _ => id
  intro _ w' hf
  apply hf.passed h

/-- While a construction is under way, one creation fewer may be nested. -/
theorem at_underway (hk : Resolves crew c k)
    (hd : c.settings.maxCreationDepth ≤ w₀.registry.guard.depth + 1 + k)
    (h : Underway c w₀ n phase w) :
  Meets (crew.host c) w (c.resolveAlone d)
    (fun i w' => Passed c w w' ∧ w'.registry.Stands d i) (fun _ w' => Passed c w w')
  := by
  apply hk.at_noGap _ h.sound
  rw [h.guard]
  apply hd

end Resolves

/-- Every crew resolves names as it should, whatever number of creations may be nested. -/
theorem resolves (crew : Crew κ σ) (c : Container κ) (k : Nat) :
  Resolves crew c k
  := by
  intro gap w d hd h hgap
  apply Faces.meets
  apply (copes (crew.dutiful c) k gap w d hd h hgap).mono (fun _ _ => id) (fun _ _ => id)
  intro u v hw
  apply hw.1

end Componentry
