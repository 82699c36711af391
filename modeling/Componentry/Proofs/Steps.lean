import Componentry.Proofs.Soundness

/-!
# Single changes of a container

Each change that a creation makes, on its own or on behalf of a callback, is followed up here:
what it takes for the change to keep a container sound, and that it concerns one component only.
The changes of which soundness does not speak are summed up by `Alike`.
-/

namespace Componentry

variable {κ σ : Type} {c : Container κ} {gap gap' : Name → Name → Prop} {lost : Name → Prop}
  {w w' w'' : Situation κ σ} {n d : Name} {i : Ref}

/-! ### Changes of which soundness does not speak -/

/-- The two moments differ at most in the failures set aside, in the order of the producers, and
in the memory of the callbacks. -/
def Alike (w w' : Situation κ σ) : Prop :=
  ∃ suppressed producers memory,
    w' = ⟨{ w.registry with suppressed := suppressed, producers := producers }, memory⟩ ∧
    (∀ n, producers.get? n = w.registry.producers.get? n) ∧
    w'.obtained = w.obtained ∧ w'.disposed = w.disposed ∧ w'.definitions = w.definitions

namespace Alike

/-- Neither what is set aside nor what callbacks have of their own matters. -/
theorem intro (w : Situation κ σ) (suppressed : Option (List Error)) (own : σ) :
  Alike w ⟨{ w.registry with suppressed := suppressed }, (w.noting (·.withOwn own)).memory⟩
  := by
  use suppressed, w.registry.producers, (w.noting (·.withOwn own)).memory, rfl
  use fun _ => rfl, rfl, rfl
  rfl

theorem noting (w : Situation κ σ) (own : σ) :
  Alike w (w.noting (·.withOwn own))
  := Alike.intro w w.registry.suppressed own

theorem suppress (w : Situation κ σ) (e : Error) :
  Alike w (w.onRegistry (·.suppress e))
  := Alike.intro w (w.registry.suppress e).suppressed w.memory.scratch.own

theorem trans (h : Alike w w') (h' : Alike w' w'') :
  Alike w w''
  := by
  obtain ⟨s, q, m, rfl, hq, ho, hr, hd⟩ := h
  obtain ⟨s', q', m', rfl, hq', ho', hr', hd'⟩ := h'
  use s', q', m', rfl
  use fun n => (hq' n).trans (hq n), ho'.trans ho, hr'.trans hr
  apply hd'.trans hd

/-- The same components are offered. -/
theorem isOffered_iff (h : Alike w w') :
  w'.registry.IsOffered n ↔ w.registry.IsOffered n
  := by
  obtain ⟨s, q, m, rfl, hq, -⟩ := h
  apply Registry.isOffered_congr
  · rfl
  · apply hq

theorem guard_eq (h : Alike w w') :
  w'.registry.guard = w.registry.guard
  := by
  obtain ⟨s, q, m, rfl, -⟩ := h
  rfl

theorem finished_eq (h : Alike w w') :
  w'.registry.finished = w.registry.finished
  := by
  obtain ⟨s, q, m, rfl, -⟩ := h
  rfl

theorem isFinished_iff (h : Alike w w') :
  w'.registry.IsFinished n ↔ w.registry.IsFinished n
  := by
  apply Registry.isFinished_congr
  rw [h.finished_eq]

theorem stands_iff (h : Alike w w') :
  w'.registry.Stands n i ↔ w.registry.Stands n i
  := by
  obtain ⟨s, q, m, rfl, -⟩ := h
  rfl

theorem dependsOn_iff (h : Alike w w') :
  w'.registry.DependsOn n d ↔ w.registry.DependsOn n d
  := by
  obtain ⟨s, q, m, rfl, -⟩ := h
  rfl

theorem obtained_eq (h : Alike w w') :
  w'.obtained = w.obtained
  := by
  obtain ⟨s, q, m, -, -, ho, -⟩ := h
  apply ho

theorem isFirm_iff (h : Alike w w') :
  w'.registry.IsFirm n ↔ w.registry.IsFirm n
  := or_congr h.isFinished_iff h.isOffered_iff

/-- A container that is alike is as sound. -/
theorem sound (h : Alike w w') (hs : Sound c gap w) :
  Sound c gap w'
  := by
  have offered := fun n => h.isOffered_iff (n := n)
  obtain ⟨s, q, m, rfl, hq, ho, -, -⟩ := h
  refine { hs with offered := ?_, producer := ?_, firm := ?_, held := ?_ }
  · intro n hn
    apply hs.offered n ((offered n).mp hn)
  · intro n p hp
    apply hs.producer n p
    rw [← hq]
    apply hp
  · intro n d hd hn
    apply (hs.firm n d hd (hn.imp_right (offered n).mp)).imp_right (offered d).mpr
  · rw [ho]
    apply hs.held

/-- What was spared is spared in a container that is alike. -/
theorem spares (h : Alike w' w'') (hs : Spares lost w w') :
  Spares lost w w''
  := by
  have offered := fun n => h.isOffered_iff (n := n)
  obtain ⟨s, q, m, rfl, hq, ho, hr, hd⟩ := h
  refine { hs with offered := ?_, obtained := ?_, disposed := ?_, definitions := ?_ }
  · intro n hn
    apply (offered n).trans (hs.offered n hn)
  · rw [ho]
    apply hs.obtained
  · rw [hr]
    apply hs.disposed
  · rw [hd]
    apply hs.definitions

end Alike

/-! ### Entering and leaving the guard -/

namespace Guard

/-- The guard after a name was entered. -/
def entered (g : Guard) (n : Name) : Guard :=
  { g with inCreation := g.inCreation.insert n, depth := g.depth + 1 }

theorem mem_entered {g : Guard} {n m : Name} :
  m ∈ (g.entered n).inCreation ↔ m ∈ g.inCreation ∨ m = n
  := Roster.mem_insert

/-- Without exempt names, a creation is refused if too many are nested, or if the name is in
creation already. -/
theorem enter_cases {g : Guard} (he : g.exempt = ∅) (n : Name) :
  (g.limit ≤ g.depth ∧ g.enter n = .error (.depthExceeded g.depth)) ∨
  (n ∈ g.inCreation ∧ g.enter n = .error (.currentlyInCreation n)) ∨
  (g.depth < g.limit ∧ n ∉ g.inCreation ∧ g.enter n = .ok (g.entered n))
  := by
  have hx : n ∉ g.exempt := by
    rw [he]
    apply Roster.notMem_empty
  by_cases hd : g.limit ≤ g.depth
  · left
    use hd
    rw [enter, if_pos hd]
  · right
    rw [enter, if_neg hd, if_neg hx]
    by_cases hn : n ∈ g.inCreation
    · left
      use hn
      rw [if_pos hn]
    · right
      use Nat.lt_of_not_le hd, hn
      rw [if_neg hn]
      rfl

/-- A name that was entered leaves the guard as it was. -/
theorem leave_entered {g : Guard} (he : g.exempt = ∅) (hn : n ∉ g.inCreation) :
  (g.entered n).leave n = (g, none)
  := by
  have hx : n ∉ (g.entered n).exempt := by
    change n ∉ g.exempt
    rw [he]
    apply Roster.notMem_empty
  rw [leave, if_neg hx, if_pos (mem_entered.mpr (.inr rfl))]
  obtain ⟨inCreation, exempt, depth, limit⟩ := g
  have hr : (inCreation.insert n).erase n = inCreation := by
    apply Roster.ext
    rw [Roster.toList_erase, Roster.toList_insert, if_neg hn, List.erase_append_right _ hn]
    simp
  simp only [entered, hr, Nat.add_sub_cancel]

end Guard

namespace Registry

variable {φ δ : Type}

/-- The components in creation are those of the guard before, and the one that was entered. -/
theorem isInCreation_of_entered {r : Registry φ δ} {g : Guard} {n m : Name}
    (hg : r.guard = g.entered n) :
  r.IsInCreation m ↔ m ∈ g.inCreation ∨ m = n
  := by
  rw [IsInCreation, hg, Guard.mem_entered]

/-- The registry after a name was entered. -/
def enter (r : Registry φ δ) (n : Name) : Registry φ δ := { r with guard := r.guard.entered n }

/-- A request to create a component that is not finished, without exempt names. -/
theorem beginCreation_cases {r : Registry φ δ} {n : Name} (he : r.guard.exempt = ∅)
    (hp : r.inDestruction = false) (hn : r.finished.get? n = none) :
  (r.guard.limit ≤ r.guard.depth ∧
    r.beginCreation n = .refused (.depthExceeded r.guard.depth)) ∨
  (r.IsInCreation n ∧ r.beginCreation n = .refused (.currentlyInCreation n)) ∨
  (r.guard.depth < r.guard.limit ∧ ¬ r.IsInCreation n ∧ ∃ collects suppressed,
    r.beginCreation n = .admitted collects { r.enter n with suppressed := suppressed })
  := by
  have hp : ¬ r.inDestruction = true := by
    rw [hp]
    apply Bool.false_ne_true
  simp only [beginCreation, hn]
  rw [if_neg hp]
  rcases Guard.enter_cases he n with ⟨hd, h⟩ | ⟨hc, h⟩ | ⟨hd, hc, h⟩
  · left
    rw [h]
    use hd
  · right
    left
    rw [h]
    use hc
  · right
    right
    rw [h]
    use hd, hc
    cases hs : r.suppressed with
    | none =>
      use true, some []
      rfl
    | some causes =>
      use false, some causes
      simp only [enter, hs]

/-- The registry when the creation of a component has ended. -/
theorem leave_of_entered {r : Registry φ δ} {g : Guard} {n : Name} (hg : r.guard = g.entered n)
    (he : g.exempt = ∅) (hn : n ∉ g.inCreation) (collects : Bool) :
  ∃ suppressed, r.leave n collects = ({ r with guard := g, suppressed := suppressed }, none)
  := by
  rw [leave, hg, Guard.leave_entered he hn]
  use if collects then none else r.suppressed

end Registry

theorem OnlyAt.refl (n : Name) (w : Situation κ σ) :
  OnlyAt n w w
  where
  inCreation _ _ := Iff.rfl
  finished _ _ := rfl
  early _ _ := rfl
  producers _ _ := rfl
  disposals _ _ := rfl
  dependsOn _ _ _ := Iff.rfl
  obtained _ _ := rfl
  disposed := rfl
  definitions := rfl

/-- A creation that begins concerns its component only. -/
theorem OnlyAt.enter (n : Name) (w : Situation κ σ) :
  OnlyAt n w (w.onRegistry (·.enter n))
  := by
  refine { OnlyAt.refl n w with inCreation := ?_ }
  intro m hm
  apply Guard.mem_entered.trans
  apply or_iff_left hm

namespace Sound

/-- Only components in creation are offered. -/
theorem not_isOffered (h : Sound c gap w) (hn : ¬ w.registry.IsInCreation n) :
  ¬ w.registry.IsOffered n
  := fun ho => hn (h.offered n ho)

/-- A creation begins, which fills the gap at its component. -/
theorem enter (h : Sound c gap w) (hgap : ∀ a b, gap a b → b = n)
    (hn : ¬ w.registry.IsPresent n) :
  Sound c noGap (w.onRegistry (·.enter n))
  := by
  have hn := Registry.not_isPresent_iff.mp hn
  have present : ∀ m, w.registry.IsPresent m → (w.registry.enter n).IsPresent m := by
    intro m hm
    apply hm.imp_right
    intro hm
    apply Guard.mem_entered.mpr (.inl hm)
  refine { h with
    depth := ?_, apart := ?_, offered := ?_, teardown := ?_, present := ?_, target := ?_ }
  · change w.registry.guard.depth + 1 = (w.registry.guard.inCreation.insert n).toList.length
    have hc : n ∉ w.registry.guard.inCreation := hn.2
    rw [Roster.toList_insert, if_neg hc, List.length_append, h.depth]
    rfl
  · intro m hm
    rcases Guard.mem_entered.mp hm with hm | rfl
    · apply h.apart m hm
    · apply hn.1
  · intro m hm
    apply Guard.mem_entered.mpr (.inl (h.offered m hm))
  · intro m t ht
    apply (h.teardown m t ht).imp_right (present m)
  · intro a b hab
    apply present a (h.present a b hab)
  · intro a b hab
    left
    rcases h.target a b hab with hb | hb
    · apply present b hb
    · right
      apply Guard.mem_entered.mpr (.inr (hgap a b hb))

end Sound

/-! ### A link is recorded -/

namespace Graph

/-- A dependency that is recorded is the only dependent that is new. -/
theorem has_dependents_depend {g : Graph} {d n a b : Name} :
  (g.depend d n).dependents.has a b = true ↔ g.dependents.has a b = true ∨ (a = d ∧ b = n)
  := by
  rw [depend]
  split
  · rename_i h
    constructor
    · apply Or.inl
    · rintro (hab | ⟨rfl, rfl⟩)
      · apply hab
      · apply h
  · apply Links.has_add

/-- A dependency that is recorded is the only one that is new, if it was not on record for one
direction only. -/
theorem has_dependencies_depend {g : Graph} {d n a b : Name}
    (h : g.dependents.has d n = true → g.dependencies.has n d = true) :
  (g.depend d n).dependencies.has a b = true
    ↔ g.dependencies.has a b = true ∨ (a = n ∧ b = d)
  := by
  rw [depend]
  split
  · rename_i hd
    constructor
    · apply Or.inl
    · rintro (hab | ⟨rfl, rfl⟩)
      · apply hab
      · apply h hd
  · apply Links.has_add

theorem contained_depend (g : Graph) (d n : Name) :
  (g.depend d n).contained = g.contained
  := by
  rw [depend]
  split <;> rfl

end Graph

/-- The container when `n` has been recorded to depend on `d`. -/
def World.depending (w : Situation κ σ) (d n : Name) : Situation κ σ :=
  w.onRegistry fun r => (r.edit (.depend d n)).1

/-- The dependency that is recorded is the only one that is new. -/
theorem World.dependsOn_depending {a b : Name} :
  (w.depending d n).registry.DependsOn a b ↔ w.registry.DependsOn a b ∨ (a = n ∧ b = d)
  := by
  rw [and_comm]
  apply Graph.has_dependents_depend

/-- A dependency that is recorded concerns the component that depends only. -/
theorem OnlyAt.depending (w : Situation κ σ) (d n : Name) :
  OnlyAt n w (w.depending d n)
  := by
  refine { OnlyAt.refl n w with dependsOn := ?_ }
  intro a b ha
  rw [World.dependsOn_depending]
  apply or_iff_left
  rintro ⟨han, -⟩
  apply ha han

/-- A component may come to depend on another one.  If it is firm, then that one has to be. -/
theorem Sound.depending (h : Sound c gap w) (hgap : ∀ a b, gap a b → gap' a b)
    (hn : w.registry.IsPresent n) (hf : w.registry.IsFirm n → w.registry.IsFirm d)
    (hd : w.registry.IsPresent d ∨ gap' n d) :
  Sound c gap' (w.depending d n)
  := by
  refine { h with
    bare := ?_, inverse := ?_, present := ?_, firm := ?_, target := ?_, held := ?_ }
  · intro a b
    change ¬ (w.registry.graph.depend d n).contained.has a b = true
    rw [Graph.contained_depend]
    apply h.bare
  · intro a b
    rw [World.dependsOn_depending, h.inverse]
    symm
    apply Graph.has_dependencies_depend
    apply (h.inverse n d).mp
  · intro a b hab
    rcases World.dependsOn_depending.mp hab with hab | ⟨rfl, rfl⟩
    · apply h.present a b hab
    · apply hn
  · intro a b hab ha
    rcases World.dependsOn_depending.mp hab with hab | ⟨rfl, rfl⟩
    · apply h.firm a b hab ha
    · apply hf ha
  · intro a b hab
    rcases World.dependsOn_depending.mp hab with hab | ⟨rfl, rfl⟩
    · apply (h.target a b hab).imp_right (hgap a b)
    · apply hd
  · intro a b i ha hb
    obtain ⟨hab, hb⟩ := h.held a b i ha hb
    use World.dependsOn_depending.mpr (.inl hab)
    apply hb

/-! ### A component is offered -/

/-- The container when a producer of early references is offered. -/
def World.publishing (w : Situation κ σ) (n : Name) (p : Recipe κ) : Situation κ σ :=
  w.onRegistry fun r => (r.edit (.publish n p)).1

/-- For a component that is not finished the producer takes the place of the early reference. -/
theorem World.publishing_eq {p : Recipe κ} (hn : w.registry.finished.get? n = none) :
  w.publishing n p = w.onRegistry fun r =>
    { r with producers := r.producers.insert n p, early := r.early.erase n }
  := by
  have hc : ¬ w.registry.finished.contains n = true := by
    rw [Catalog.contains, hn]
    apply Bool.false_ne_true
  simp only [World.publishing, World.onRegistry, Registry.edit, Registry.publish, if_neg hc]

theorem OnlyAt.publishing {p : Recipe κ} (hn : w.registry.finished.get? n = none) :
  OnlyAt n w (w.publishing n p)
  := by
  rw [World.publishing_eq hn]
  refine { OnlyAt.refl n w with early := ?_, producers := ?_ }
  · intro m hm
    apply Catalog.get?_erase_of_ne hm
  · intro m hm
    apply Catalog.get?_insert_of_ne hm

/-- A component for which a producer is published is offered, and the others are as before. -/
theorem World.isOffered_publishing {p : Recipe κ} (hn : w.registry.finished.get? n = none)
    {m : Name} :
  (w.publishing n p).registry.IsOffered m ↔ m = n ∨ w.registry.IsOffered m
  := by
  rw [World.publishing_eq hn]
  simp only [World.onRegistry, Registry.IsOffered, Catalog.get?_erase, Catalog.get?_insert]
  by_cases hm : m = n
  · simp [hm]
  · simp [hm]

/-- A component in creation may be offered, once all that it depends on is firm. -/
theorem Sound.publishing {raw : Ref} (h : Sound c gap w) (hc : w.registry.IsInCreation n)
    (ho : ¬ w.registry.IsOffered n)
    (settled : ∀ d, w.registry.DependsOn n d → w.registry.IsFirm d) :
  Sound c gap (w.publishing n (.earlyReference n raw))
  := by
  have hn := h.apart n hc
  have offered := fun m => World.isOffered_publishing (p := Recipe.earlyReference n raw) hn (m := m)
  rw [World.publishing_eq hn] at offered ⊢
  refine { h with offered := ?_, producer := ?_, firm := ?_, held := ?_ }
  · intro m hm
    rcases (offered m).mp hm with rfl | hm
    · apply hc
    · apply h.offered m hm
  · intro m p hp
    rcases Catalog.of_get?_insert hp with ⟨rfl, rfl⟩ | hp
    · use raw
    · apply h.producer m p hp
  · intro a b hab ha
    have hb : w.registry.IsFirm b := by
      rcases ha with ha | ha
      · apply h.firm a b hab (.inl ha)
      · rcases (offered a).mp ha with rfl | ha
        · apply settled b hab
        · apply h.firm a b hab (.inr ha)
    apply hb.imp_right
    intro hb
    apply (offered b).mpr (.inr hb)
  · intro a b i ha hb
    obtain ⟨hab, hs⟩ := h.held a b i ha hb
    use hab
    apply hs.imp_right
    intro he
    apply (Catalog.get?_erase_of_ne _).trans he
    rintro rfl
    apply ho (.inl ⟨i, he⟩)

/-! ### An early reference is made -/

/-- The container when an early reference has been made and is kept. -/
def World.memoizing (w : Situation κ σ) (n : Name) (i : Ref) : Situation κ σ :=
  w.onRegistry fun r => ({ r with producers := r.producers.erase n } : Registry _ _).memoize n i

/-- A component is offered as before when its early reference is made. -/
theorem World.isOffered_memoizing (ho : w.registry.IsOffered n) {m : Name} :
  (w.memoizing n i).registry.IsOffered m ↔ w.registry.IsOffered m
  := by
  by_cases hm : m = n
  · rw [hm]
    apply iff_of_true _ ho
    left
    use i
    apply Catalog.get?_insert_self
  · apply Registry.isOffered_congr
    · apply Catalog.get?_insert_of_ne hm
    · apply Catalog.get?_erase_of_ne hm

/-- Early references stay when another one is made. -/
theorem World.early_memoizing (he : w.registry.early.get? n = none) {m : Name} {j : Ref}
    (hj : w.registry.early.get? m = some j) :
  (w.memoizing n i).registry.early.get? m = some j
  := by
  apply (Catalog.get?_insert_of_ne _).trans hj
  rintro rfl
  rw [he] at hj
  cases hj

/-- A component that is offered may have its early reference made. -/
theorem Sound.memoizing (h : Sound c gap w) (ho : w.registry.IsOffered n)
    (he : w.registry.early.get? n = none) :
  Sound c gap (w.memoizing n i)
  := by
  have offered := fun m => World.isOffered_memoizing ho (i := i) (m := m)
  refine { h with offered := ?_, producer := ?_, firm := ?_, held := ?_ }
  · intro m hm
    apply h.offered m ((offered m).mp hm)
  · intro m p hp
    apply h.producer m p (Catalog.of_get?_erase hp)
  · intro a b hab ha
    apply (h.firm a b hab (ha.imp_right (offered a).mp)).imp_right (offered b).mpr
  · intro a b j ha hb
    obtain ⟨hab, hs⟩ := h.held a b j ha hb
    use hab
    apply hs.imp_right (World.early_memoizing he)

/-- Making an early reference of a component that is offered loses nothing. -/
theorem Spares.memoizing (h : Spares lost w w') (ho : w'.registry.IsOffered n)
    (he : w'.registry.early.get? n = none) :
  Spares lost w (w'.memoizing n i)
  := by
  refine { h with early := ?_, offered := ?_ }
  · intro m j hm hj
    apply World.early_memoizing he (h.early m j hm hj)
  · intro m hm
    apply (World.isOffered_memoizing ho).trans (h.offered m hm)

/-- Nothing has changed when a producer that failed is put back. -/
theorem Alike.restoring {p : Recipe κ} (hc : w.registry.IsInCreation n)
    (hn : w.registry.finished.get? n = none) (hp : w.registry.producers.get? n = some p) :
  Alike w (w.onRegistry fun r =>
    ({ r with producers := r.producers.erase n } : Registry _ _).restore n p)
  := by
  have hr : w.onRegistry (fun r =>
      ({ r with producers := r.producers.erase n } : Registry _ _).restore n p)
      = ⟨{ w.registry with producers := (w.registry.producers.erase n).insert n p }, w.memory⟩ := by
    have hg : w.registry.guard.isEntered n = true := Roster.contains_iff.mpr hc
    simp only [World.onRegistry, Registry.restore, hg, Catalog.contains, hn, Catalog.get?_erase,
      if_true, Option.isSome_none, Bool.not_false, Bool.and_self]
  use w.registry.suppressed, (w.registry.producers.erase n).insert n p, w.memory, hr
  rw [hr]
  constructor
  · intro m
    rw [Catalog.get?_insert, Catalog.get?_erase]
    by_cases hm : m = n
    · rw [hm, if_pos rfl, hp]
    · rw [if_neg hm, if_neg hm]
  · use rfl, rfl
    rfl

/-! ### A disposal is set up -/

/-- The container when the disposal of a component is set up. -/
def World.awaiting (w : Situation κ σ) (n : Name) (t : Teardown κ) : Situation κ σ :=
  w.onRegistry fun r => (r.edit (.onDestroy n t)).1

theorem OnlyAt.awaiting (w : Situation κ σ) (n : Name) (t : Teardown κ) :
  OnlyAt n w (w.awaiting n t)
  := by
  refine { OnlyAt.refl n w with disposals := ?_ }
  intro m hm
  apply Catalog.get?_insert_of_ne hm

/-- A disposal may be registered for a component that is there. -/
theorem Sound.awaiting {t : Teardown κ} (h : Sound c gap w) (hn : w.registry.IsPresent n)
    (ht : t.name = n) :
  Sound c gap (w.awaiting n t)
  := by
  refine { h with teardown := ?_ }
  intro m t' ht'
  rcases Catalog.of_get?_insert ht' with ⟨rfl, rfl⟩ | ht'
  · use ht, hn
  · apply h.teardown m t' ht'

/-! ### The ledger -/

theorem OnlyAt.begin (w : Situation κ σ) (n : Name) :
  OnlyAt n w (w.noting (·.begin n))
  := by
  refine { OnlyAt.refl n w with obtained := ?_ }
  intro m hm
  apply if_neg hm

/-- At the beginning of a construction nothing has been obtained for the component. -/
theorem World.obtained_begin (w : Situation κ σ) (n : Name) :
  (w.noting (·.begin n)).obtained n = []
  := if_pos rfl

/-- What a component obtains while it is not finished is no matter of soundness. -/
theorem Sound.noting {f : Ledger σ → Ledger σ} (h : Sound c gap w)
    (hc : w.registry.IsInCreation n) (hf : OnlyAt n w (w.noting f)) :
  Sound c gap (w.noting f)
  := by
  refine { h with held := ?_ }
  intro a b i ha hb
  rw [hf.obtained a] at hb
  · apply h.held a b i ha hb
  · rintro rfl
    apply absurd ha (Registry.not_isFinished_iff.mpr (h.apart a hc))

/-- The container when a component has obtained an instance, or none. -/
def World.entering (w : Situation κ σ) (n d : Name) (answer : Option Ref) : Situation κ σ :=
  w.noting (·.enter n d answer)

theorem OnlyAt.entering (w : Situation κ σ) (n d : Name) (answer : Option Ref) :
  OnlyAt n w (w.entering n d answer)
  := by
  cases answer with
  | none => apply OnlyAt.refl
  | some i =>
    refine { OnlyAt.refl n w with obtained := ?_ }
    intro m hm
    apply if_neg hm

/-- What is entered was obtained before, or is the answer. -/
theorem World.mem_obtained_entering {answer : Option Ref} {e : Name × Ref} :
  e ∈ (w.entering n d answer).obtained n ↔ e ∈ w.obtained n ∨ ∃ i, answer = some i ∧ e = (d, i)
  := by
  cases answer with
  | none => simp [World.entering, World.noting, World.obtained, Ledger.enter]
  | some i => simp [World.entering, World.noting, World.obtained, Ledger.enter]

/-! ### A creation ends -/

/-- The container when a creation has ended, with the guard as it was before, and with an
instance. -/
def World.installing (w : Situation κ σ) (g : Guard) (n : Name) (i : Ref) : Situation κ σ :=
  w.onRegistry fun r => ({ r with guard := g } : Registry _ _).install n i

/-- The container when a creation has been broken off, with the guard as it was before. -/
def World.abandoning (w : Situation κ σ) (g : Guard) (n : Name) : Situation κ σ :=
  w.onRegistry fun r => ({ r with guard := g } : Registry _ _).dropEarly n

section Ending

variable {g : Guard}

/-- A component whose creation was broken off is not offered any more. -/
theorem World.isOffered_abandoning {m : Name} :
  (w.abandoning g n).registry.IsOffered m ↔ m ≠ n ∧ w.registry.IsOffered m
  := by
  simp only [World.abandoning, World.onRegistry, Registry.dropEarly, Registry.IsOffered,
    Catalog.get?_erase]
  by_cases hm : m = n
  · simp [hm]
  · simp [hm]

/-- A component that is finished is not offered any more. -/
theorem World.isOffered_installing {m : Name} :
  (w.installing g n i).registry.IsOffered m ↔ m ≠ n ∧ w.registry.IsOffered m
  := World.isOffered_abandoning

theorem World.finished_installing {m : Name} :
  (w.installing g n i).registry.finished.get? m
    = if m = n then some i else w.registry.finished.get? m
  := Catalog.get?_insert _ _ _ _

/-- The component that is installed is the only one that has become finished. -/
theorem World.isFinished_installing {m : Name} :
  (w.installing g n i).registry.IsFinished m ↔ m = n ∨ w.registry.IsFinished m
  := by
  rw [Registry.IsFinished, World.finished_installing]
  by_cases hm : m = n
  · simp [hm]
  · simp [hm, Registry.IsFinished]

/-- What is installed comes last among the finished components. -/
theorem World.names_installing (hn : w.registry.finished.get? n = none) :
  (w.installing g n i).registry.finished.names = w.registry.finished.names ++ [n]
  := by
  have absent : n ∉ w.registry.finished.names := by
    rw [Catalog.mem_names_iff]
    apply Registry.not_isFinished_iff.mpr hn
  apply (Catalog.names_insert _ _ _).trans (if_neg absent)

/-- A creation that is broken off concerns its component only. -/
theorem OnlyAt.abandoning (hg : w.registry.guard = g.entered n) :
  OnlyAt n w (w.abandoning g n)
  := by
  refine { OnlyAt.refl n w with inCreation := ?_, early := ?_, producers := ?_ }
  · intro m hm
    rw [Registry.isInCreation_of_entered hg, or_iff_left hm]
    rfl
  · intro m hm
    apply Catalog.get?_erase_of_ne hm
  · intro m hm
    apply Catalog.get?_erase_of_ne hm

/-- A creation that ends concerns its component only. -/
theorem OnlyAt.installing (hg : w.registry.guard = g.entered n) :
  OnlyAt n w (w.installing g n i)
  := by
  refine { OnlyAt.abandoning hg with finished := ?_ }
  intro m hm
  apply World.finished_installing.trans
  rw [if_neg hm]

/-- What there is stays when a component is finished. -/
theorem World.isPresent_installing (hg : w.registry.guard = g.entered n) {m : Name}
    (hm : w.registry.IsPresent m) :
  (w.installing g n i).registry.IsPresent m
  := by
  by_cases hmn : m = n
  · left
    apply World.isFinished_installing.mpr (.inl hmn)
  · apply hm.imp _ ((OnlyAt.installing hg).inCreation m hmn).mpr
    intro hm
    apply World.isFinished_installing.mpr (.inr hm)

/-- What others hold, they hold when a component is finished. -/
theorem World.isFirm_installing {m : Name} (hm : w.registry.IsFirm m) :
  (w.installing g n i).registry.IsFirm m
  := by
  by_cases hmn : m = n
  · left
    apply World.isFinished_installing.mpr (.inl hmn)
  · rcases hm with hm | hm
    · left
      apply World.isFinished_installing.mpr (.inr hm)
    · right
      apply World.isOffered_installing.mpr ⟨hmn, hm⟩

/-- An early reference is finished as what it was. -/
theorem World.stands_installing (hg : w.registry.guard = g.entered n)
    (hn : w.registry.finished.get? n = none)
    (early : ∀ j, w.registry.early.get? n = some j → i = j) {m : Name} {j : Ref}
    (hm : w.registry.Stands m j) :
  (w.installing g n i).registry.Stands m j
  := by
  by_cases hmn : m = n
  · left
    rw [World.finished_installing, if_pos hmn]
    rw [hmn] at hm
    rcases hm with hm | hm
    · rw [hn] at hm
      cases hm
    · rw [early j hm]
  · have only := OnlyAt.installing hg (i := i)
    apply (Registry.stands_congr (only.finished m hmn) (only.early m hmn)).mpr hm

/-- The guard of a container before the creation of a component that is under way. -/
theorem Sound.depth_of_entered (h : Sound c gap w) (hg : w.registry.guard = g.entered n)
    (hn : n ∉ g.inCreation) :
  g.depth = g.inCreation.toList.length
  := by
  have hd := h.depth
  rw [hg] at hd
  simp only [Guard.entered, Roster.toList_insert, if_neg hn, List.length_append] at hd
  apply Nat.succ.inj hd

/-- A creation ends with an instance, once all that the component depends on is firm.  Whoever
holds an early reference to it holds this instance. -/
theorem Sound.installing (h : Sound c gap w) (hg : w.registry.guard = g.entered n)
    (hn : n ∉ g.inCreation) (settled : ∀ d, w.registry.DependsOn n d → w.registry.IsFirm d)
    (held : ∀ d j, (d, j) ∈ w.obtained n → w.registry.DependsOn n d ∧ w.registry.Stands d j)
    (early : ∀ j, w.registry.early.get? n = some j → i = j) :
  Sound c gap (w.installing g n i)
  := by
  have hc : w.registry.IsInCreation n := (Registry.isInCreation_of_entered hg).mpr (.inr rfl)
  have only := OnlyAt.installing hg (i := i)
  have limit := h.limit
  have exempt := h.exempt
  rw [hg] at limit exempt
  refine { h with
    limit, exempt, depth := h.depth_of_entered hg hn
    apart := ?_, offered := ?_, producer := ?_, teardown := ?_, present := ?_, firm := ?_
    target := ?_, held := ?_ }
  · intro m hm
    have hmn : m ≠ n := by
      rintro rfl
      apply hn hm
    rw [only.finished m hmn]
    apply h.apart m ((only.inCreation m hmn).mp hm)
  · intro m hm
    obtain ⟨hmn, hm⟩ := World.isOffered_installing.mp hm
    apply (only.inCreation m hmn).mpr (h.offered m hm)
  · intro m p hp
    apply h.producer m p (Catalog.of_get?_erase hp)
  · intro m t ht
    apply (h.teardown m t ht).imp_right (World.isPresent_installing hg)
  · intro a b hab
    apply World.isPresent_installing hg (h.present a b hab)
  -- what others hold depends on firm components only, and so does the one that is finished now
  · intro a b hab ha
    apply World.isFirm_installing
    by_cases han : a = n
    · rw [han] at hab
      apply settled b hab
    · apply h.firm a b hab
      rcases ha with ha | ha
      · left
        apply (World.isFinished_installing.mp ha).resolve_left han
      · right
        apply (World.isOffered_installing.mp ha).2
  · intro a b hab
    apply (h.target a b hab).imp_left (World.isPresent_installing hg)
  · intro a b j ha hb
    have hab : w.registry.DependsOn a b ∧ w.registry.Stands b j := by
      by_cases han : a = n
      · rw [han] at hb ⊢
        apply held b j hb
      · apply h.held a b j ((World.isFinished_installing.mp ha).resolve_left han) hb
    use hab.1
    apply World.stands_installing hg (h.apart n hc) early hab.2

/-- A creation is broken off, after its component was struck. -/
theorem Sound.abandoning (h : Sound c gap w) (hg : w.registry.guard = g.entered n)
    (hn : n ∉ g.inCreation) (ho : ¬ w.registry.IsOffered n)
    (hd : w.registry.disposals.get? n = none)
    (hl : ∀ a b, w.registry.DependsOn a b → a ≠ n ∧ b ≠ n)
    (hgap : ∀ a b, w.registry.DependsOn a b → gap a b → gap' a b) :
  Sound c gap' (w.abandoning g n)
  := by
  have only := OnlyAt.abandoning hg
  have offered : ∀ m, (w.abandoning g n).registry.IsOffered m ↔ w.registry.IsOffered m := by
    intro m
    apply World.isOffered_abandoning.trans
    apply and_iff_right_of_imp
    rintro hm rfl
    apply ho hm
  have present : ∀ m, m ≠ n → w.registry.IsPresent m →
      (w.abandoning g n).registry.IsPresent m := by
    intro m hmn hm
    apply hm.imp_right (only.inCreation m hmn).mpr
  have limit := h.limit
  have exempt := h.exempt
  rw [hg] at limit exempt
  refine { h with
    limit, exempt, depth := h.depth_of_entered hg hn
    apart := ?_, offered := ?_, producer := ?_, teardown := ?_, present := ?_, firm := ?_
    target := ?_, held := ?_ }
  · intro m hm
    have hmn : m ≠ n := by
      rintro rfl
      apply hn hm
    apply h.apart m ((only.inCreation m hmn).mp hm)
  · intro m hm
    obtain ⟨hmn, hm⟩ := World.isOffered_abandoning.mp hm
    apply (only.inCreation m hmn).mpr (h.offered m hm)
  · intro m p hp
    apply h.producer m p (Catalog.of_get?_erase hp)
  -- no disposal is left of the component
  · intro m t ht
    apply (h.teardown m t ht).imp_right (present m _)
    rintro rfl
    have ht : w.registry.disposals.get? m = some t := ht
    rw [hd] at ht
    cases ht
  · intro a b hab
    apply present a (hl a b hab).1 (h.present a b hab)
  · intro a b hab ha
    apply (h.firm a b hab (ha.imp_right (offered a).mp)).imp_right (offered b).mpr
  · intro a b hab
    apply (h.target a b hab).imp (present b (hl a b hab).2) (hgap a b hab)
  · intro a b j ha hb
    obtain ⟨hab, hs⟩ := h.held a b j ha hb
    use hab
    apply hs.imp_right
    intro he
    apply (only.early b (hl a b hab).2).trans he

end Ending

end Componentry
