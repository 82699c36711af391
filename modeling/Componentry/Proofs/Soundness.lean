import Componentry.Proofs.Errand

/-!
# Soundness of a container at every moment

`Sound` is what holds of a container with a crew whenever one of its callbacks is running, also
deep inside nested creations.  Its core is that links lead from components that are there to
components that are there, and that whoever is firm, which is to be finished or to be offered as
an early reference, depends on firm components only.

`Spares` compares two moments: what was there at the first one is as it was at the second one,
as far as it is not lost.  A change that concerns one component alone is described by `OnlyAt`;
it spares everything else.
-/

namespace Componentry

open Relation

/-! ### Parts of the registry -/

namespace Registry

variable {φ δ : Type} {r r' : Registry φ δ} {n : Name} {i : Ref}

/-- The component is finished. -/
def IsFinished (r : Registry φ δ) (n : Name) : Prop := ∃ i, r.finished.get? n = some i

/-- The component is in creation. -/
def IsInCreation (r : Registry φ δ) (n : Name) : Prop := n ∈ r.guard.inCreation

/-- There is an early reference to the component, or a producer that makes one. -/
def IsOffered (r : Registry φ δ) (n : Name) : Prop :=
  (∃ i, r.early.get? n = some i) ∨ ∃ p, r.producers.get? n = some p

/-- The component is finished or in creation. -/
def IsPresent (r : Registry φ δ) (n : Name) : Prop := r.IsFinished n ∨ r.IsInCreation n

/-- Others may hold the component: it is finished or offered. -/
def IsFirm (r : Registry φ δ) (n : Name) : Prop := r.IsFinished n ∨ r.IsOffered n

/-- The instance is the finished one of the component, or the early reference to it. -/
def Stands (r : Registry φ δ) (n : Name) (i : Ref) : Prop :=
  r.finished.get? n = some i ∨ r.early.get? n = some i

/-- The first component is recorded to depend on the second one. -/
def DependsOn (r : Registry φ δ) (n d : Name) : Prop := r.graph.dependents.has d n = true

theorem isFinished_congr (finished : r'.finished.get? n = r.finished.get? n) :
  r'.IsFinished n ↔ r.IsFinished n
  := by
  simp only [IsFinished, finished]

theorem isInCreation_congr (guard : r'.guard = r.guard) :
  r'.IsInCreation n ↔ r.IsInCreation n
  := by
  simp only [IsInCreation, guard]

theorem isOffered_congr (early : r'.early.get? n = r.early.get? n)
    (producers : r'.producers.get? n = r.producers.get? n) :
  r'.IsOffered n ↔ r.IsOffered n
  := by
  simp only [IsOffered, early, producers]

theorem stands_congr (finished : r'.finished.get? n = r.finished.get? n)
    (early : r'.early.get? n = r.early.get? n) :
  r'.Stands n i ↔ r.Stands n i
  := by
  simp only [Stands, finished, early]

theorem not_isFinished_iff :
  ¬ r.IsFinished n ↔ r.finished.get? n = none
  := not_exists.trans Option.eq_none_iff_forall_ne_some.symm

/-- A component is missing if it is neither finished nor in creation. -/
theorem not_isPresent_iff :
  ¬ r.IsPresent n ↔ r.finished.get? n = none ∧ ¬ r.IsInCreation n
  := not_or.trans (and_congr_left' not_isFinished_iff)

/-- An instance that stands is held by others, or may be. -/
theorem Stands.isFirm (h : r.Stands n i) :
  r.IsFirm n
  := by
  rcases h with h | h
  · left
    use i
  · right
    left
    use i

end Registry

/-- The component of which a disposal disposes. -/
def Teardown.name {κ : Type} : Teardown κ → Name
  | hook n _ _ | callback n _ => n

variable {κ σ : Type}

/-- What holds of a container whenever a callback is running.  Links may lead from components
that are missing, where `gap` allows it. -/
structure Sound (c : Container κ) (gap : Name → Name → Prop) (w : Situation κ σ) : Prop where
  exempt : w.registry.guard.exempt = ∅
  limit : w.registry.guard.limit = c.settings.maxCreationDepth
  depth : w.registry.guard.depth = w.registry.guard.inCreation.toList.length
  peaceful : w.registry.inDestruction = false
  apart : ∀ n, w.registry.IsInCreation n → w.registry.finished.get? n = none
  offered : ∀ n, w.registry.IsOffered n → w.registry.IsInCreation n
  producer : ∀ n p, w.registry.producers.get? n = some p → ∃ raw, p = .earlyReference n raw
  teardown : ∀ n t, w.registry.disposals.get? n = some t → t.name = n ∧ w.registry.IsPresent n
  bare : ∀ a b, ¬ w.registry.graph.contained.has a b = true
  inverse : ∀ n d, w.registry.DependsOn n d ↔ w.registry.graph.dependencies.has n d = true
  present : ∀ n d, w.registry.DependsOn n d → w.registry.IsPresent n
  firm : ∀ n d, w.registry.DependsOn n d → w.registry.IsFirm n → w.registry.IsFirm d
  target : ∀ n d, w.registry.DependsOn n d → w.registry.IsPresent d ∨ gap n d
  held : ∀ n d i, w.registry.IsFinished n → (d, i) ∈ w.obtained n →
    w.registry.DependsOn n d ∧ w.registry.Stands d i

/-- No link leads from a component that is missing. -/
def noGap : Name → Name → Prop := fun _ _ => False

namespace Sound

variable {c : Container κ} {gap gap' : Name → Name → Prop} {w w' : Situation κ σ} {n d : Name}

/-- Gaps that are closed may be left out. -/
theorem mono (h : Sound c gap w)
    (hgap : ∀ n d, w.registry.DependsOn n d → gap n d → w.registry.IsPresent d ∨ gap' n d) :
  Sound c gap' w
  := by
  refine { h with target := ?_ }
  intro n d hd
  rcases h.target n d hd with hp | hg
  · left
    apply hp
  · apply hgap n d hd hg

/-- Others hold no component that is missing. -/
theorem isPresent_of_isFirm (h : Sound c gap w) (hn : w.registry.IsFirm n) :
  w.registry.IsPresent n
  := by
  rcases hn with hn | hn
  · left
    apply hn
  · right
    apply h.offered n hn

/-- What a component pulls are those that depend on it. -/
theorem pulls_iff (h : Sound c gap w) {a b : Name} :
  w.registry.graph.Pulls a b ↔ w.registry.DependsOn b a
  := or_iff_left (h.bare a b)

end Sound

/-! ### Two moments -/

/-- What was there at the first moment is as it was at the second one, unless it is lost; and no
component that was there has come to depend on others meanwhile. -/
structure Spares (lost : Name → Prop) (w w' : Situation κ σ) : Prop where
  inCreation : ∀ n, w.registry.IsInCreation n → w'.registry.IsInCreation n
  finished : ∀ n i, w.registry.finished.get? n = some i → w'.registry.finished.get? n = some i
  early : ∀ n i, w.registry.IsInCreation n → w.registry.early.get? n = some i →
    w'.registry.early.get? n = some i
  offered : ∀ n, w.registry.IsInCreation n →
    (w'.registry.IsOffered n ↔ w.registry.IsOffered n)
  disposal : ∀ n, w.registry.IsPresent n → ¬ lost n →
    w'.registry.disposals.get? n = w.registry.disposals.get? n
  kept : ∀ n d, w.registry.IsPresent n → ¬ lost n → w.registry.DependsOn n d →
    w'.registry.DependsOn n d
  old : ∀ n d, w.registry.IsPresent n → w'.registry.DependsOn n d → w.registry.DependsOn n d
  obtained : ∀ n, w.registry.IsPresent n → w'.obtained n = w.obtained n
  disposed : ∃ ran, w'.disposed = w.disposed ++ ran ∧ ∀ n ∈ ran, ¬ w.registry.IsFinished n
  definitions : w'.definitions = w.definitions

/-- Nothing is lost. -/
def nothing : Name → Prop := fun _ => False

namespace Spares

variable {c : Container κ} {gap : Name → Name → Prop} {lost lost' : Name → Prop}
  {w w' w'' : Situation κ σ} {n d : Name} {i : Ref}

theorem refl (lost : Name → Prop) (w : Situation κ σ) :
  Spares lost w w
  where
  inCreation _ := id
  finished _ _ := id
  early _ _ _ := id
  offered _ _ := Iff.rfl
  disposal _ _ _ := rfl
  kept _ _ _ _ := id
  old _ _ _ := id
  obtained _ _ := rfl
  disposed := ⟨[], by simp⟩
  definitions := rfl

/-- A finished component stays finished. -/
theorem isFinished (h : Spares lost w w') (hn : w.registry.IsFinished n) :
  w'.registry.IsFinished n
  := by
  obtain ⟨i, hi⟩ := hn
  use i, h.finished n i hi

theorem isPresent (h : Spares lost w w') (hn : w.registry.IsPresent n) :
  w'.registry.IsPresent n
  := hn.imp h.isFinished (h.inCreation n)

/-- Others may hold a component as before. -/
theorem isFirm (h : Spares lost w w') (hs : Sound c gap w) (hn : w.registry.IsFirm n) :
  w'.registry.IsFirm n
  := by
  rcases hn with hn | hn
  · left
    apply h.isFinished hn
  · right
    apply (h.offered n (hs.offered n hn)).mpr hn

/-- An instance that others have got stands as before. -/
theorem stands (h : Spares lost w w') (hs : Sound c gap w) (hn : w.registry.Stands n i) :
  w'.registry.Stands n i
  := by
  rcases hn with hn | hn
  · left
    apply h.finished n i hn
  · right
    apply h.early n i (hs.offered n (.inl ⟨i, hn⟩)) hn

/-- What is spared in two parts of a run one after the other is spared, and what is lost in the
second part and was there before counts as lost. -/
theorem trans (h : Spares lost w w') (h' : Spares lost' w' w'')
    (hlost : ∀ n, w.registry.IsPresent n → lost' n → lost n) :
  Spares lost w w''
  where
  inCreation n hn := h'.inCreation n (h.inCreation n hn)
  finished n i hi := h'.finished n i (h.finished n i hi)
  early n i hn hi := h'.early n i (h.inCreation n hn) (h.early n i hn hi)
  offered n hn := (h'.offered n (h.inCreation n hn)).trans (h.offered n hn)
  disposal n hn hl := by
    rw [h'.disposal n (h.isPresent hn) (fun hl' => hl (hlost n hn hl')), h.disposal n hn hl]
  kept n d hn hl hd := by
    apply h'.kept n d (h.isPresent hn) (fun hl' => hl (hlost n hn hl'))
    apply h.kept n d hn hl hd
  old n d hn hd := h.old n d hn (h'.old n d (h.isPresent hn) hd)
  obtained n hn := (h'.obtained n (h.isPresent hn)).trans (h.obtained n hn)
  disposed := by
    obtain ⟨ran, hd, hr⟩ := h.disposed
    obtain ⟨ran', hd', hr'⟩ := h'.disposed
    use ran ++ ran'
    constructor
    · rw [hd', hd, List.append_assoc]
    · intro n hn hf
      rcases List.mem_append.mp hn with hn | hn
      · apply hr n hn hf
      · apply hr' n hn (h.isFinished hf)
  definitions := h'.definitions.trans h.definitions

/-- Only what was there at the first moment can be lost. -/
theorem mono (h : Spares lost w w') (hlost : ∀ n, w.registry.IsPresent n → lost n → lost' n) :
  Spares lost' w w'
  := (refl lost' w).trans h hlost

end Spares

/-- The second moment differs from the first one at most in what concerns `n`, and in the memory
of the callbacks. -/
structure OnlyAt (n : Name) (w w' : Situation κ σ) : Prop where
  inCreation : ∀ m, m ≠ n → (w'.registry.IsInCreation m ↔ w.registry.IsInCreation m)
  finished : ∀ m, m ≠ n → w'.registry.finished.get? m = w.registry.finished.get? m
  early : ∀ m, m ≠ n → w'.registry.early.get? m = w.registry.early.get? m
  producers : ∀ m, m ≠ n → w'.registry.producers.get? m = w.registry.producers.get? m
  disposals : ∀ m, m ≠ n → w'.registry.disposals.get? m = w.registry.disposals.get? m
  dependsOn : ∀ m d, m ≠ n → (w'.registry.DependsOn m d ↔ w.registry.DependsOn m d)
  obtained : ∀ m, m ≠ n → w'.obtained m = w.obtained m
  disposed : w'.disposed = w.disposed
  definitions : w'.definitions = w.definitions

/-- What concerns a component that was not there spares everything that was. -/
theorem Spares.onlyAt {lost : Name → Prop} {w w' w'' : Situation κ σ} {n : Name}
    (h : Spares lost w w') (hn : ¬ w.registry.IsPresent n) (h' : OnlyAt n w' w'') :
  Spares lost w w''
  := by
  have ne : ∀ m, w.registry.IsPresent m → m ≠ n := by
    rintro m hm rfl
    apply hn hm
  constructor
  case inCreation =>
    intro m hm
    apply (h'.inCreation m (ne m (.inr hm))).mpr
    apply h.inCreation m hm
  case finished =>
    intro m i hm
    rw [h'.finished m (ne m (.inl ⟨i, hm⟩))]
    apply h.finished m i hm
  case early =>
    intro m i hm hi
    rw [h'.early m (ne m (.inr hm))]
    apply h.early m i hm hi
  case offered =>
    intro m hm
    have hmn := ne m (.inr hm)
    apply (Registry.isOffered_congr (h'.early m hmn) (h'.producers m hmn)).trans (h.offered m hm)
  case disposal =>
    intro m hm hl
    rw [h'.disposals m (ne m hm)]
    apply h.disposal m hm hl
  case kept =>
    intro m d hm hl hd
    apply (h'.dependsOn m d (ne m hm)).mpr
    apply h.kept m d hm hl hd
  case old =>
    intro m d hm hd
    apply h.old m d hm
    apply (h'.dependsOn m d (ne m hm)).mp hd
  case obtained =>
    intro m hm
    rw [h'.obtained m (ne m hm)]
    apply h.obtained m hm
  case disposed =>
    rw [h'.disposed]
    apply h.disposed
  case definitions =>
    rw [h'.definitions]
    apply h.definitions

end Componentry
