import Componentry.Proofs.Logic

/-!
# What single moves change

Each change of a registry that happens at once is inverted here: what it takes for the change to be
made, and which parts of the registry it leaves as they are.  With these facts an invariant of the
machine is followed through a step without unfolding the registry again.
-/

namespace Componentry

variable {φ δ μ α : Type} {host : Host φ δ μ} {r r' : Registry φ δ} {n : Name}

namespace Registry

/-- The producer of a name that is not finished is taken out of the registry. -/
theorem of_sight_pending {early : Bool} {producer : φ}
    (h : r.sight n early = .pending producer r') :
  r.finished.get? n = none ∧ r.producers.get? n = some producer ∧
    r' = { r with producers := r.producers.erase n }
  := by
  unfold sight at h
  split at h
  · cases h
  · rename_i hn
    use hn
    split at h
    · cases h
    · split at h
      · cases h
      · split at h
        · rename_i hp
          cases h
          use hp
        · cases h

/-- A name is settled by its finished instance, or else by its early reference. -/
theorem of_sight_settled {early : Bool} {i : Ref} (h : r.sight n early = .settled (some i)) :
  r.finished.get? n = some i ∨ r.finished.get? n = none ∧ r.early.get? n = some i
  := by
  unfold sight at h
  split at h
  · cases h
    exact .inl ‹_›
  · rename_i hn
    split at h
    · cases h
    · split at h
      · cases h
        exact .inr ⟨hn, ‹_›⟩
      · split at h <;> cases h

/-- A creation is admitted only of what is not finished, and not during a shutdown.  The guard has
its name then, and failures are set aside: it collects them if none were before. -/
theorem of_admitted {collects : Bool} (h : r.beginCreation n = .admitted collects r') :
  r.finished.get? n = none ∧ r.inDestruction = false ∧
    ∃ guard suppressed, r.guard.enter n = .ok guard ∧ suppressed.isSome = true ∧
      collects = r.suppressed.isNone ∧
      r' = { r with guard := guard, suppressed := suppressed }
  := by
  unfold beginCreation at h
  split at h
  · cases h
  · rename_i hn
    use hn
    split at h
    · cases h
    · rename_i hd
      use eq_false_of_ne_true hd
      split at h
      · cases h
      · rename_i guard he
        split at h
        · rename_i hs
          cases h
          use guard, some [], he, rfl
          rw [hs]
          use rfl
        · rename_i causes hs
          cases h
          use guard, r.suppressed, he
          rw [hs]
          exact ⟨rfl, rfl, rfl⟩

/-- Failures that were set aside before stay, and if there was no place for them there is one now.
-/
theorem suppressed_of_admitted {collects : Bool} (h : r.beginCreation n = .admitted collects r') :
  r'.suppressed = some (r.suppressed.getD [])
  := by
  unfold beginCreation at h
  split at h
  · cases h
  · split at h
    · cases h
    · split at h
      · cases h
      · split at h
        · rename_i none
          cases h
          rw [none]
          rfl
        · rename_i causes some
          cases h
          simp [some]

/-- A request that is answered with an instance at once finds the name bound to it. -/
theorem of_present {i : Ref} (h : r.beginCreation n = .present i) :
  r.finished.get? n = some i
  := by
  unfold beginCreation at h
  split at h
  · cases h
    assumption
  · split at h
    · cases h
    · split at h
      · cases h
      · split at h <;> cases h

/-- A creation is refused only of what is not finished. -/
theorem of_refused {e : Error} (h : r.beginCreation n = .refused e) :
  r.finished.get? n = none
  := by
  unfold beginCreation at h
  split at h
  · cases h
  · assumption

/-- A producer is put back where there is none, or nothing happens. -/
theorem restore_cases (r : Registry φ δ) (n : Name) (p : φ) :
  r.restore n p = r ∨
    r.producers.get? n = none ∧
      r.restore n p = { r with producers := r.producers.insert n p }
  := by
  unfold restore
  split
  · rename_i room
    rw [Bool.and_eq_true, Bool.not_eq_true', Catalog.contains] at room
    exact .inr ⟨Option.isNone_iff_eq_none.mp (Option.isSome_eq_false_iff.mp room.2), rfl⟩
  · exact .inl rfl

/-- To restore a producer changes the producers, and nothing else. -/
theorem restore_eq (r : Registry φ δ) (n : Name) (producer : φ) :
  ∃ producers, r.restore n producer = { r with producers := producers }
  := by
  obtain same | ⟨-, same⟩ := r.restore_cases n producer
  · exact ⟨r.producers, same⟩
  · exact ⟨_, same⟩

/-- The request to bind an instance installs it, and if the name is bound already nothing changes.
-/
theorem edit_bind (r : Registry φ δ) (n : Name) (i : Ref) :
  (r.finished.get? n = none ∧ (r.edit (.bind n i)).1 = r.install n i) ∨
    (r.edit (.bind n i)).1 = r
  := by
  simp only [edit, bind]
  split
  · rename_i hb
    split at hb
    · right
      split at hb
      · cases hb
        rfl
      · cases hb
    · left
      cases hb
      exact ⟨‹_›, rfl⟩
  · right
    rfl

/-- After a request to bind a name it is bound, if not to this instance then to another one. -/
theorem bound_edit_bind (r : Registry φ δ) (n : Name) (i : Ref) :
  ∃ j, (r.edit (.bind n i)).1.finished.get? n = some j
  := by
  cases h : r.finished.get? n with
  | none =>
    use i
    simp only [edit, bind, h]
    apply Catalog.get?_insert_self
  | some j =>
    use j
    obtain ⟨unbound, -⟩ | same := r.edit_bind n i
    · cases unbound.symm.trans h
    · rw [same, h]

/-- Where a name is unbound, its producer is put in the place of what there was early. -/
theorem publish_unfinished (h : r.finished.get? n = none) (p : φ) :
  (r.publish n p).1.producers.get? n = some p ∧ (r.publish n p).1.early.get? n = none
  := by
  have unfinished : r.finished.contains n = false := by rw [Catalog.contains, h, Option.isSome_none]
  simp [publish, unfinished, Catalog.get?_insert_self]

/-- What there is early of a name stays when a producer is published for another one. -/
theorem publish_of_ne {m : Name} (ne : n ≠ m) (p : φ) :
  (r.publish m p).1.producers.get? n = r.producers.get? n ∧
    (r.publish m p).1.early.get? n = r.early.get? n
  := by
  unfold publish
  split
  · exact ⟨rfl, rfl⟩
  · exact ⟨Catalog.get?_insert_of_ne ne, Catalog.get?_erase_of_ne ne⟩

/-- What there is early of a name stays when the producer of another one is restored. -/
theorem restore_of_ne {m : Name} (ne : n ≠ m) (p : φ) :
  (r.restore m p).producers.get? n = r.producers.get? n ∧
    (r.restore m p).early.get? n = r.early.get? n
  := by
  obtain same | ⟨-, same⟩ := r.restore_cases m p
  · rw [same]
    exact ⟨rfl, rfl⟩
  · rw [same]
    exact ⟨Catalog.get?_insert_of_ne ne, rfl⟩

/-- A request leaves the early tiers of a name alone, unless it is to bind, offer or remove it. -/
theorem edit_tiers (r : Registry φ δ) (n : Name) (e : Edit φ δ) :
  ((r.edit e).1.producers.get? n = r.producers.get? n ∧
      (r.edit e).1.early.get? n = r.early.get? n) ∨
    (∃ i, e = .bind n i) ∨ (∃ p, e = .publish n p) ∨ e = .remove n
  := by
  cases e with
  | bind m i =>
    by_cases ne : n = m
    · subst ne
      exact .inr (.inl ⟨i, rfl⟩)
    · left
      obtain ⟨-, installs⟩ | same := r.edit_bind m i
      · rw [installs]
        exact ⟨Catalog.get?_erase_of_ne ne, Catalog.get?_erase_of_ne ne⟩
      · rw [same]
        exact ⟨rfl, rfl⟩
  | publish m p =>
    by_cases ne : n = m
    · subst ne
      exact .inr (.inr (.inl ⟨p, rfl⟩))
    · exact .inl (publish_of_ne ne p)
  | remove m =>
    by_cases ne : n = m
    · subst ne
      exact .inr (.inr (.inr rfl))
    · exact .inl ⟨Catalog.get?_erase_of_ne ne, Catalog.get?_erase_of_ne ne⟩
  | suppress | setExempt | depend | contain | onDestroy => exact .inl ⟨rfl, rfl⟩

end Registry

/-- A notice goes out, and either the machine goes on or a panic comes back. -/
theorem Machine.announcing_of {P : Machine φ δ μ α → Prop} {notice : Notice} {ρ : Role}
    {stack : Stack φ δ μ α ρ} {w : World φ δ μ} {next : World φ δ μ → Machine φ δ μ α}
    (goes : (host.hear notice w.memory).1 = none →
      P (next { w with memory := (host.hear notice w.memory).2 }))
    (panics : ∀ p, (host.hear notice w.memory).1 = some p →
      P (.unwinding p stack { w with memory := (host.hear notice w.memory).2 })) :
  P (announcing host notice stack w next)
  := by
  simp only [announcing, World.announce]
  cases h : (host.hear notice w.memory).1 with
  | none => apply goes h
  | some p => apply panics p h

end Componentry
