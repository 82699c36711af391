import Componentry.Proofs.Steps

/-!
# What a destruction leaves of a container

A destruction strikes components together with all that depend on them.  `Razed` says so of two
moments of a container with a crew; soundness survives it, since no link is left that leads from
a component that was struck.  The disposals of a crew end in every case, so that a crew can
destroy whatever there is.
-/

namespace Componentry

variable {κ σ : Type} {c : Container κ} {gap : Name → Name → Prop} {lost : Name → Prop}
  {w w' w'' : Situation κ σ} {n : Name} {i : Ref}

/-- The components in `D` are struck, and with them all that depend on them.  Disposals have run
for some of them, and have changed nothing else but the memory of the callbacks. -/
structure Razed (D : List Name) (w w' : Situation κ σ) : Prop where
  registry : w.registry.Struck D w'.registry
  closed : ∀ a ∈ D, ∀ b, w.registry.graph.Pulls a b → b ∈ D
  obtained : w'.obtained = w.obtained
  disposed : ∃ ran, w'.disposed = w.disposed ++ ran ∧ ∀ n ∈ ran, n ∈ D
  definitions : w'.definitions = w.definitions

namespace Razed

variable {D : List Name}

/-- Of the bindings those are left whose components were not struck. -/
theorem finished (h : Razed D w w') :
  w'.registry.finished.get? n = if n ∈ D then none else w.registry.finished.get? n
  := by
  rw [h.registry.finished, Catalog.get?_without]

/-- Of the early references those are left whose components were not struck. -/
theorem early (h : Razed D w w') :
  w'.registry.early.get? n = if n ∈ D then none else w.registry.early.get? n
  := by
  rw [h.registry.early, Catalog.get?_without]

/-- Of the producers those are left whose components were not struck. -/
theorem producers (h : Razed D w w') :
  w'.registry.producers.get? n = if n ∈ D then none else w.registry.producers.get? n
  := by
  rw [h.registry.producers, Catalog.get?_without]

/-- Of the disposals those are left whose components were not struck. -/
theorem disposals (h : Razed D w w') :
  w'.registry.disposals.get? n = if n ∈ D then none else w.registry.disposals.get? n
  := by
  rw [h.registry.disposals, Catalog.get?_without]

/-- The components in creation are the same. -/
theorem isInCreation_iff (h : Razed D w w') :
  w'.registry.IsInCreation n ↔ w.registry.IsInCreation n
  := Registry.isInCreation_congr h.registry.guard

theorem isFinished_iff (h : Razed D w w') :
  w'.registry.IsFinished n ↔ n ∉ D ∧ w.registry.IsFinished n
  := by
  simp only [Registry.IsFinished, h.finished]
  by_cases hn : n ∈ D
  · simp [hn]
  · simp [hn]

theorem isOffered_iff (h : Razed D w w') :
  w'.registry.IsOffered n ↔ n ∉ D ∧ w.registry.IsOffered n
  := by
  simp only [Registry.IsOffered, h.early, h.producers]
  by_cases hn : n ∈ D
  · simp [hn]
  · simp [hn]

theorem isFirm_iff (h : Razed D w w') :
  w'.registry.IsFirm n ↔ n ∉ D ∧ w.registry.IsFirm n
  := by
  rw [Registry.IsFirm, h.isFinished_iff, h.isOffered_iff, ← and_or_left]
  rfl

theorem stands_iff (h : Razed D w w') :
  w'.registry.Stands n i ↔ n ∉ D ∧ w.registry.Stands n i
  := by
  simp only [Registry.Stands, h.finished, h.early]
  by_cases hn : n ∈ D
  · simp [hn]
  · simp [hn]

/-- A component that is present and was not struck is present still. -/
theorem isPresent (h : Razed D w w') (hD : n ∉ D) (hn : w.registry.IsPresent n) :
  w'.registry.IsPresent n
  := by
  apply hn.imp _ h.isInCreation_iff.mpr
  intro hn
  apply h.isFinished_iff.mpr ⟨hD, hn⟩

/-- Of the dependencies those are left of which no end was struck. -/
theorem dependsOn_iff (h : Razed D w w') {a b : Name} :
  w'.registry.DependsOn a b ↔ a ∉ D ∧ b ∉ D ∧ w.registry.DependsOn a b
  := by
  apply h.registry.dependents.has_iff.trans
  rw [and_left_comm]
  rfl

/-- What depends on a component that is struck is struck. -/
theorem mem_of_dependsOn (h : Razed D w w') {a b : Name} (ha : w.registry.DependsOn a b)
    (hb : b ∈ D) :
  a ∈ D
  := h.closed b hb a (.inl ha)

/-- A container is sound after components were struck together with all that depend on them. -/
theorem sound (h : Razed D w w') (hs : Sound c gap w) :
  Sound c gap w'
  where
  exempt := by
    rw [h.registry.guard]
    apply hs.exempt
  limit := by
    rw [h.registry.guard]
    apply hs.limit
  depth := by
    rw [h.registry.guard]
    apply hs.depth
  peaceful := h.registry.inDestruction.trans hs.peaceful
  apart n hn := by
    rw [h.finished, hs.apart n (h.isInCreation_iff.mp hn), ite_self]
  offered n hn := by
    apply h.isInCreation_iff.mpr
    apply hs.offered n (h.isOffered_iff.mp hn).2
  producer n p hp := by
    rw [h.producers] at hp
    split at hp
    · cases hp
    · apply hs.producer n p hp
  teardown n t ht := by
    rw [h.disposals] at ht
    split at ht
    · cases ht
    · rename_i hn
      apply (hs.teardown n t ht).imp_right (h.isPresent hn)
  bare a b hab := by
    apply hs.bare a b (h.registry.contained.has_iff.mp hab).2.2
  inverse n d := by
    rw [h.dependsOn_iff, h.registry.dependencies.has_iff, hs.inverse]
  present n d hd := by
    obtain ⟨hn, -, hd⟩ := h.dependsOn_iff.mp hd
    apply h.isPresent hn (hs.present n d hd)
  firm n d hd hn := by
    obtain ⟨-, hdD, hd⟩ := h.dependsOn_iff.mp hd
    apply h.isFirm_iff.mpr ⟨hdD, hs.firm n d hd (h.isFirm_iff.mp hn).2⟩
  target n d hd := by
    obtain ⟨-, hdD, hd⟩ := h.dependsOn_iff.mp hd
    apply (hs.target n d hd).imp_left (h.isPresent hdD)
  held n d i hn hi := by
    obtain ⟨hnD, hn⟩ := h.isFinished_iff.mp hn
    rw [h.obtained] at hi
    obtain ⟨hd, hst⟩ := hs.held n d i hn hi
    -- what depends on something struck is struck as well
    have hdD : d ∉ D := fun hdD => hnD (h.mem_of_dependsOn hd hdD)
    use h.dependsOn_iff.mpr ⟨hnD, hdD, hd⟩
    apply h.stands_iff.mpr ⟨hdD, hst⟩

/-- What was there is spared, as far as it is struck only if it may be lost and is not firm. -/
theorem spares (h : Razed D w' w'') (hw : Spares lost w w')
    (hD : ∀ n, w.registry.IsPresent n → n ∈ D → lost n ∧ ¬ w.registry.IsFirm n) :
  Spares lost w w''
  where
  inCreation n hn := h.isInCreation_iff.mpr (hw.inCreation n hn)
  finished n i hn := by
    rw [h.finished, if_neg]
    · apply hw.finished n i hn
    · intro hnD
      apply (hD n (.inl ⟨i, hn⟩) hnD).2 (.inl ⟨i, hn⟩)
  early n i hn hi := by
    rw [h.early, if_neg]
    · apply hw.early n i hn hi
    · intro hnD
      apply (hD n (.inr hn) hnD).2 (.inr (.inl ⟨i, hi⟩))
  offered n hn := by
    rw [h.isOffered_iff, hw.offered n hn]
    apply and_iff_right_of_imp
    intro ho hnD
    apply (hD n (.inr hn) hnD).2 (.inr ho)
  disposal n hn hl := by
    rw [h.disposals, if_neg]
    · apply hw.disposal n hn hl
    · intro hnD
      apply hl (hD n hn hnD).1
  kept n d hn hl hd := by
    have hnD : n ∉ D := fun hnD => hl (hD n hn hnD).1
    have hd := hw.kept n d hn hl hd
    apply h.dependsOn_iff.mpr
    use hnD, fun hdD => hnD (h.mem_of_dependsOn hd hdD)
  old n d hn hd := hw.old n d hn (h.dependsOn_iff.mp hd).2.2
  obtained n hn := by
    rw [h.obtained]
    apply hw.obtained n hn
  disposed := by
    obtain ⟨ran, hr, hf⟩ := hw.disposed
    obtain ⟨ran', hr', hD'⟩ := h.disposed
    use ran ++ ran'
    constructor
    · rw [hr', hr, List.append_assoc]
    · intro n hn hfn
      rcases List.mem_append.mp hn with hn | hn
      · apply hf n hn hfn
      · apply (hD n (.inl hfn) (hD' n hn)).2 (.inl hfn)
  definitions := h.definitions.trans hw.definitions

end Razed

/-! ### A crew destroys components -/

section Crew

open Machine

variable {crew : Crew κ σ}

/-- The disposal of a component has run, which the ledger shows. -/
def Disposed (n : Name) (m m' : Site κ (Ledger σ)) : Prop :=
  m'.definitions = m.definitions ∧ m'.scratch.obtained = m.scratch.obtained ∧
    m'.scratch.disposed = m.scratch.disposed ++ [n]

/-- The program of a disposal, which works on the memory of the callbacks and enters into the ledger
that it has run. -/
def Ledger.disposal (n : Name) (dispose : σ → Except Panic (Except String Unit) × σ) :
    Job κ (Ledger σ) (Except String Unit) :=
  .view fun _ s =>
    let result := dispose s.scratch.own
    .revise (fun s => { s with scratch := s.scratch.dispose n result.2 }) (.ofOutcome result.1)

/-- Disposals work on the memory of the callbacks alone, and so do those who hear notices, none of
whom panics. -/
structure Host.Keeps (host : Host (Recipe κ) (Teardown κ) (Site κ (Ledger σ)))
    (dispose : κ → Name → Option Ref → σ → Except Panic (Except String Unit) × σ)
    (hear : Notice → σ → σ) : Prop where
  hook : ∀ n k i, host.dispose (.hook n k i) = Ledger.disposal n (dispose k n (some i))
  callback : ∀ n k, host.dispose (.callback n k) = Ledger.disposal n (dispose k n none)
  hear : ∀ t m, host.hear t m
    = (none, { m with scratch := m.scratch.withOwn (hear t m.scratch.own) })

/-- The disposals of a crew work on the memory of the callbacks alone. -/
theorem Crew.keeps_host (crew : Crew κ σ) (c : Container κ) :
  (crew.host c).Keeps crew.dispose crew.hear
  := ⟨fun _ _ _ => rfl, fun _ _ => rfl, fun _ _ => rfl⟩

section Keeps

variable {host : Host (Recipe κ) (Teardown κ) (Site κ (Ledger σ))}

/-- A disposal ends, whether it returns, fails or panics, and one of two notices about it is
heard. -/
theorem Ledger.runs_disposal (host : Host (Recipe κ) (Teardown κ) (Site κ (Ledger σ))) (n : Name)
    (dispose : σ → Except Panic (Except String Unit) × σ) (w : Situation κ σ) :
  ∃ own notice, ∀ {α : Type} {ρ : Role} (rest : List (Task (Teardown κ)))
    (resume : Unit → Client _ _ _ (ρ.Result α)) (stack : Stack _ _ _ α ρ),
    Runs host
      (@Machine.running _ _ _ α .disposer (Ledger.disposal n dispose)
        (.disposing n rest resume stack) w) []
      (finishDisposal host notice rest resume stack (w.noting (·.dispose n own)))
  := by
  have run : ∀ {α : Type} {ρ : Role} (rest : List (Task (Teardown κ)))
      (resume : Unit → Client _ _ _ (ρ.Result α)) (stack : Stack _ _ _ α ρ) (m : Machine _ _ _ α),
      Runs host
        (@Machine.running _ _ _ α .disposer (.ofOutcome (dispose w.memory.scratch.own).1)
          (.disposing n rest resume stack)
          (w.noting (·.dispose n (dispose w.memory.scratch.own).2))) [] m →
      Runs host
        (@Machine.running _ _ _ α .disposer (Ledger.disposal n dispose)
          (.disposing n rest resume stack) w) [] m := by
    intro _ _ rest resume stack m h
    apply Runs.silent id
    apply Runs.silent id
    apply h
  use (dispose w.memory.scratch.own).2
  rcases h : (dispose w.memory.scratch.own).1 with p | text | u
  · use .disposalFailed n (.panicked p.reason)
    intro _ _ rest resume stack
    apply run
    rw [h]
    apply Runs.silent id
    apply Runs.silent id
    apply Runs.refl
  · use .disposalFailed n (.failed text)
    intro _ _ rest resume stack
    apply run
    rw [h]
    apply Runs.silent id
    apply Runs.refl
  · use .destroyed n
    intro _ _ rest resume stack
    apply run
    rw [h]
    apply Runs.silent id
    apply Runs.refl

variable {dispose : κ → Name → Option Ref → σ → Except Panic (Except String Unit) × σ}
  {hear : Notice → σ → σ}

/-- The disposal of a component runs to its end, and is entered in the ledger. -/
theorem Host.Keeps.tears_dispose (h : host.Keeps dispose hear) (n : Name) (t : Teardown κ)
    (ht : t.name = n) (w : Situation κ σ) :
  ∃ m, Disposed n w.memory m ∧ Tears host [.dispose n t] [(n, t)] w { w with memory := m }
  := by
  have tears : ∀ dispose', host.dispose t = Ledger.disposal n dispose' →
      ∃ m, Disposed n w.memory m ∧
        Tears host [.dispose n t] [(n, t)] w { w with memory := m } := by
    intro dispose' hd
    obtain ⟨own, notice, runs⟩ := Ledger.runs_disposal host n dispose' w
    use (w.noting (·.dispose n own) |>.announce host notice).2.memory
    constructor
    · simp only [World.announce, h.hear]
      use rfl, rfl
      rfl
    · intro _ _ rest resume stack
      apply Runs.begins
      rw [hd]
      have quiet := h.hear notice (w.noting (·.dispose n own)).memory
      have next := runs rest resume stack
      simp only [finishDisposal, announcing, World.announce, quiet] at next ⊢
      apply next
  cases t with
  | hook m k i =>
    obtain rfl : m = n := ht
    exact tears _ (h.hook m k i)
  | callback m k =>
    obtain rfl : m = n := ht
    exact tears _ (h.callback m k)

/-- Any components can be destroyed, as long as the disposals that are due are their own. -/
theorem Host.Keeps.demolish (h : host.Keeps dispose hear) (names : List Name)
    (w : Situation κ σ) (fit : w.registry.Fits fun n t => t.name = n) :
  ∃ w' lost ran, Demolition host Disposed names w w' lost ran
  := Componentry.demolish h.tears_dispose names w fit

end Keeps

/-- When disposals have run one after the other, the ledger shows them in this order, and nothing
else has changed. -/
theorem Along.disposed {ran : List Name} {m m' : Site κ (Ledger σ)} (h : Along Disposed ran m m') :
  m'.definitions = m.definitions ∧ m'.scratch.obtained = m.scratch.obtained ∧
    m'.scratch.disposed = m.scratch.disposed ++ ran
  := by
  induction h with
  | nil => simp
  | cons h _ ih =>
    obtain ⟨hd, ho, hr⟩ := h
    obtain ⟨hd', ho', hr'⟩ := ih
    use hd'.trans hd, ho'.trans ho
    rw [hr', hr, List.append_assoc]
    rfl

/-- A destruction strikes the components that are lost, and their disposals have run. -/
theorem Demolition.razed {host : Host (Recipe κ) (Teardown κ) (Site κ (Ledger σ))}
    {names lost : List Name} {ran : List (Name × Teardown κ)}
    (h : Demolition host Disposed names w w' lost ran) :
  Razed lost w w'
  where
  registry := h.course.struck
  closed := h.course.closed
  obtained := h.along.disposed.2.1
  disposed := by
    use ran.map Prod.fst, h.along.disposed.2.2
    intro n hn
    apply (h.course.mem_names_ran_iff.mp hn).1
  definitions := h.along.disposed.1

/-- In a sound container every disposal that is due is the one of its own component. -/
theorem Sound.fits (h : Sound c gap w) :
  w.registry.Fits fun n t => t.name = n
  := fun n t ht => (h.teardown n t ht).1

end Crew

end Componentry
