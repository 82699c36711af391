import Componentry.Proofs.Strike
import Mathlib.Data.List.Nodup

/-!
# The course of a destruction

A destruction walks through a graph that it takes apart on the way, and may be led back to a
component that is being destroyed.  `Course` tells which way it takes, without what the disposals
do: the dependents of a component are destroyed once it was withdrawn, then its disposal runs,
then what it contains is destroyed once that was released, and at last the component is
forgotten.

Every destruction has a course, since it follows each row of links once.  It strikes the names
that can be reached from those that are to be destroyed, by way of dependents and of contents, and
runs each disposal that is due for one of them once.
-/

namespace Componentry

open Relation

variable {φ δ : Type} {r r' : Registry φ δ}

theorem mem_dependentsOf {g : Graph} {a b : Name} :
  b ∈ g.dependentsOf a ↔ g.dependents.has a b = true
  := by
  rw [Graph.dependentsOf, ← Roster.mem_iff, ← Roster.contains_iff]
  rfl

theorem mem_containedOf {g : Graph} {a b : Name} :
  b ∈ g.containedOf a ↔ g.contained.has a b = true
  := by
  rw [Graph.containedOf, ← Roster.mem_iff, ← Roster.contains_iff]
  rfl

/-- The number of rows of links that a destruction may follow. -/
def Graph.rowCount (g : Graph) : Nat := g.dependents.rows.size + g.contained.rows.size

namespace Registry

/-- The disposal that is due for a component, if there is one. -/
def due (r : Registry φ δ) (n : Name) : List (Name × δ) :=
  ((r.disposals.get? n).map (n, ·)).toList

/-- The components `names` are destroyed one after the other, which leads from the registry `r` to
the registry `r'`.  The names in `lost` are struck, and the disposals in `ran` run in this
order. -/
inductive Course :
    List Name → Registry φ δ → Registry φ δ → List Name → List (Name × δ) → Prop
  | nil (r : Registry φ δ) : Course [] r r [] []
  | cons {n : Name} {names above within rest : List Name} {r r₁ r₂ r₃ : Registry φ δ}
      {ran₁ ran₂ ran₃ : List (Name × δ)}
      (dependents : Course (r.graph.dependentsOf n) (r.withdraw n) r₁ above ran₁)
      (contents : Course (r₁.graph.containedOf n) (r₁.release n) r₂ within ran₂)
      (others : Course names (r₂.forget n) r₃ rest ran₃) :
      Course (n :: names) r r₃ (above ++ (within ++ [n]) ++ rest)
        (ran₁ ++ (r.due n ++ (ran₂ ++ ran₃)))

/-! ### The links after each part of a destruction -/

/-- What is left of the links after some names were struck is what has no end among them. -/
theorem Struck.pulls_iff {D : List Name} (h : r.Struck D r') {a b : Name} :
  r'.graph.Pulls a b ↔ a ∉ D ∧ b ∉ D ∧ r.graph.Pulls a b
  := by
  rw [Graph.Pulls, Graph.Pulls, h.dependents.has_iff, h.contained.has_iff]
  tauto

/-- When a component has been withdrawn, its dependents are not led to from it any more. -/
theorem pulls_withdraw_iff {n a b : Name} :
  (r.withdraw n).graph.Pulls a b
    ↔ (a ≠ n ∧ r.graph.dependents.has a b = true) ∨ r.graph.contained.has a b = true
  := by
  rw [← Links.has_detach]
  rfl

/-- When a component has been released, what it contains is not led to from it any more. -/
theorem pulls_release_iff {n a b : Name} :
  (r.release n).graph.Pulls a b
    ↔ r.graph.dependents.has a b = true ∨ (a ≠ n ∧ r.graph.contained.has a b = true)
  := by
  rw [← Links.has_detach]
  rfl

theorem pulls_of_withdraw {n a b : Name} (h : (r.withdraw n).graph.Pulls a b) :
  r.graph.Pulls a b
  := (pulls_withdraw_iff.mp h).imp And.right id

theorem pulls_of_release {n a b : Name} (h : (r.release n).graph.Pulls a b) :
  r.graph.Pulls a b
  := (pulls_release_iff.mp h).imp id And.right

/-- What is struck around a component is closed, although its own links were taken away before
they were followed. -/
theorem closed_around {n : Name} {D E : List Name} (hs : (r.withdraw n).Struck D r')
    (hn : ∀ b, r.graph.dependents.has n b = true → b ∈ D)
    (hD : ∀ a ∈ D, ∀ b, (r.withdraw n).graph.Pulls a b → b ∈ D)
    (hn' : ∀ b, r'.graph.contained.has n b = true → b ∈ E)
    (hE : ∀ a ∈ E, ∀ b, (r'.release n).graph.Pulls a b → b ∈ E) :
  ∀ a ∈ D ++ (E ++ [n]), ∀ b, r.graph.Pulls a b → b ∈ D ++ (E ++ [n])
  := by
  intro a ha b hab
  simp only [List.mem_append, List.mem_singleton] at ha ⊢
  by_cases hb : b ∈ D
  · left
    apply hb
  -- from here on `b` is no dependent of `n`
  have hw : (r.withdraw n).graph.Pulls a b := by
    apply pulls_withdraw_iff.mpr
    rcases hab with hab | hab
    · left
      use fun han => hb (hn b (han ▸ hab))
    · right
      apply hab
  by_cases haD : a ∈ D
  · apply absurd (hD a haD b hw) hb
  right
  left
  rcases hs.pulls_iff.mpr ⟨haD, hb, hw⟩ with hr | hr
  · have han := ((Links.has_detach _ _ _ _).mp (hs.dependents.has_iff.mp hr).2.2).1
    apply hE a (by tauto) b
    apply pulls_release_iff.mpr
    left
    apply hr
  · by_cases han : a = n
    · apply hn' b (han ▸ hr)
    · apply hE a (by tauto) b
      apply pulls_release_iff.mpr
      right
      use han

/-- What is struck at first and what is struck then are closed together. -/
theorem Struck.closed_append {D E : List Name} (h : r.Struck D r')
    (hD : ∀ a ∈ D, ∀ b, r.graph.Pulls a b → b ∈ D)
    (hE : ∀ a ∈ E, ∀ b, r'.graph.Pulls a b → b ∈ E) :
  ∀ a ∈ D ++ E, ∀ b, r.graph.Pulls a b → b ∈ D ++ E
  := by
  intro a ha b hab
  rw [List.mem_append] at ha ⊢
  by_cases haD : a ∈ D
  · left
    apply hD a haD b hab
  · by_cases hbD : b ∈ D
    · left
      apply hbD
    · right
      apply hE a (ha.resolve_left haD) b
      apply h.pulls_iff.mpr
      use haD, hbD

/-! ### The rows that are left -/

theorem rowCount_withdraw_le (r : Registry φ δ) (n : Name) :
  (r.withdraw n).graph.rowCount ≤ r.graph.rowCount
  := Nat.add_le_add_right (Catalog.size_erase_le _ _) _

theorem rowCount_release_le (r : Registry φ δ) (n : Name) :
  (r.release n).graph.rowCount ≤ r.graph.rowCount
  := Nat.add_le_add_left (Catalog.size_erase_le _ _) _

/-- To forget a component adds no row of links. -/
theorem rowCount_forget_le (r : Registry φ δ) (n : Name) :
  (r.forget n).graph.rowCount ≤ r.graph.rowCount
  := by
  apply Nat.add_le_add
  · apply Nat.le_trans (Catalog.size_filterMap_le _ _)
    apply Catalog.size_erase_le
  · apply Nat.le_trans (Catalog.size_filterMap_le _ _)
    apply Catalog.size_erase_le

/-- Withdrawing a component with dependents takes a row away. -/
theorem rowCount_withdraw_lt {n m : Name} (h : m ∈ r.graph.dependentsOf n) :
  (r.withdraw n).graph.rowCount < r.graph.rowCount
  := by
  apply Nat.add_lt_add_right
  apply Catalog.size_erase_lt
  rw [Catalog.mem_names_iff]
  rw [Graph.dependentsOf, Links.row] at h
  cases hr : r.graph.dependents.rows.get? n with
  | none => simp [hr] at h
  | some row => use row

/-- Releasing what a component contains takes a row away, if there is something. -/
theorem rowCount_release_lt {n m : Name} (h : m ∈ r.graph.containedOf n) :
  (r.release n).graph.rowCount < r.graph.rowCount
  := by
  apply Nat.add_lt_add_left
  apply Catalog.size_erase_lt
  rw [Catalog.mem_names_iff]
  rw [Graph.containedOf, Links.row] at h
  cases hr : r.graph.contained.rows.get? n with
  | none => simp [hr] at h
  | some row => use row

namespace Course

variable {names lost : List Name} {ran : List (Name × δ)}

/-- A destruction adds no row of links. -/
theorem rowCount_le (h : Course names r r' lost ran) :
  r'.graph.rowCount ≤ r.graph.rowCount
  := by
  induction h with
  | nil => apply Nat.le_refl
  | cons _ _ _ above within rest =>
    apply Nat.le_trans rest
    apply Nat.le_trans (rowCount_forget_le _ _)
    apply Nat.le_trans within
    apply Nat.le_trans (rowCount_release_le _ _)
    apply Nat.le_trans above
    apply rowCount_withdraw_le

/-- A course has to be found only for a list that is not empty. -/
theorem exists_of_mem (h : ∀ m ∈ names, ∃ r' lost ran, Course names r r' lost ran) :
  ∃ r' lost ran, Course names r r' lost ran
  := by
  cases names with
  | nil =>
    use r, [], []
    apply Course.nil
  | cons m names => apply h m List.mem_cons_self

end Course

/-- Every destruction has a course.  Each row of links is followed once, which bounds how deep it
goes; the components of one row are destroyed one after the other. -/
theorem exists_course (names : List Name) (r : Registry φ δ) :
  ∃ r' lost ran, Course names r r' lost ran
  := by
  generalize hk : r.graph.rowCount = k
  induction k using Nat.strongRecOn generalizing names r with
  | _ k ih =>
    have smaller : ∀ (names : List Name) (v : Registry φ δ), v.graph.rowCount < k →
        ∃ r' lost ran, Course names v r' lost ran :=
      fun names v hv => ih _ hv names v rfl
    have hr := Nat.le_of_eq hk
    clear hk
    -- the rest of the list meets a registry with no more rows than there are now
    induction names generalizing r with
    | nil =>
      use r, [], []
      apply Course.nil
    | cons n names ihn =>
      obtain ⟨r₁, above, ran₁, dependents⟩ : ∃ r₁ above ran₁,
          Course (r.graph.dependentsOf n) (r.withdraw n) r₁ above ran₁ := by
        apply Course.exists_of_mem
        intro m hm
        apply smaller
        apply Nat.lt_of_lt_of_le (rowCount_withdraw_lt hm) hr
      have hr₁ : r₁.graph.rowCount ≤ k := by
        apply Nat.le_trans dependents.rowCount_le
        apply Nat.le_trans (rowCount_withdraw_le _ _) hr
      obtain ⟨r₂, within, ran₂, contents⟩ : ∃ r₂ within ran₂,
          Course (r₁.graph.containedOf n) (r₁.release n) r₂ within ran₂ := by
        apply Course.exists_of_mem
        intro m hm
        apply smaller
        apply Nat.lt_of_lt_of_le (rowCount_release_lt hm) hr₁
      have hr₂ : (r₂.forget n).graph.rowCount ≤ k := by
        apply Nat.le_trans (rowCount_forget_le _ _)
        apply Nat.le_trans contents.rowCount_le
        apply Nat.le_trans (rowCount_release_le _ _) hr₁
      obtain ⟨r₃, rest, ran₃, others⟩ := ihn (r₂.forget n) hr₂
      exact ⟨_, _, _, Course.cons dependents contents others⟩

namespace Course

variable {names lost : List Name} {ran : List (Name × δ)}

/-! ### What is struck -/

/-- A destruction strikes the names that are lost from the registry, and nothing else. -/
theorem struck (h : Course names r r' lost ran) :
  r.Struck lost r'
  := by
  induction h with
  | nil => apply struck_nil
  | cons _ _ _ above within rest => apply (above.around within).trans rest

/-- The components that are to be destroyed are lost. -/
theorem subset (h : Course names r r' lost ran) :
  ∀ n ∈ names, n ∈ lost
  := by
  induction h with
  | nil => simp
  | cons _ _ _ _ _ rest =>
    intro m hm
    rw [List.mem_append]
    rcases List.mem_cons.mp hm with rfl | hm
    · left
      simp
    · right
      apply rest m hm

/-- What is struck around a component is closed, if this is so for its dependents and for what it
contains. -/
theorem closed_around {n : Name} {above within : List Name} {r r₁ r₂ : Registry φ δ}
    {ran₁ ran₂ : List (Name × δ)}
    (dependents : Course (r.graph.dependentsOf n) (r.withdraw n) r₁ above ran₁)
    (contents : Course (r₁.graph.containedOf n) (r₁.release n) r₂ within ran₂)
    (hD : ∀ a ∈ above, ∀ b, (r.withdraw n).graph.Pulls a b → b ∈ above)
    (hE : ∀ a ∈ within, ∀ b, (r₁.release n).graph.Pulls a b → b ∈ within) :
  ∀ a ∈ above ++ (within ++ [n]), ∀ b, r.graph.Pulls a b → b ∈ above ++ (within ++ [n])
  := by
  apply Registry.closed_around dependents.struck _ hD _ hE
  · intro m hm
    apply dependents.subset m (mem_dependentsOf.mpr hm)
  · intro m hm
    apply contents.subset m (mem_containedOf.mpr hm)

/-- What is pulled by a name that is struck is struck. -/
theorem closed (h : Course names r r' lost ran) :
  ∀ a ∈ lost, ∀ b, r.graph.Pulls a b → b ∈ lost
  := by
  induction h with
  | nil => simp
  | cons dependents contents _ above within rest =>
    apply (dependents.struck.around contents.struck).closed_append _ rest
    apply dependents.closed_around contents above within

/-- What is struck can be reached from the names that are to be destroyed. -/
theorem reached (h : Course names r r' lost ran) :
  ∀ a ∈ lost, ∃ n ∈ names, ReflTransGen r.graph.Pulls n a
  := by
  induction h with
  | nil => simp
  | @cons n names _ _ _ r r₁ r₂ _ _ _ _ dependents contents _ above within rest =>
    have around := dependents.struck.around contents.struck
    intro a ha
    simp only [List.mem_append, List.mem_singleton] at ha
    rcases ha with (ha | ha | rfl) | ha
    · obtain ⟨m, hm, p⟩ := above a ha
      use n, List.mem_cons_self
      apply ReflTransGen.head (b := m)
      · left
        apply mem_dependentsOf.mp hm
      · apply ReflTransGen.mono _ _ _ p
        apply fun _ _ => pulls_of_withdraw
    · obtain ⟨m, hm, p⟩ := within a ha
      use n, List.mem_cons_self
      apply ReflTransGen.head (b := m)
      · right
        apply (dependents.struck.contained.has_iff.mp (mem_containedOf.mp hm)).2.2
      · apply ReflTransGen.mono _ _ _ p
        intro a b hab
        apply pulls_of_withdraw (dependents.struck.pulls_iff.mp (pulls_of_release hab)).2.2
    · use a, List.mem_cons_self
    · obtain ⟨m, hm, p⟩ := rest a ha
      use m, List.mem_cons_of_mem _ hm
      apply ReflTransGen.mono _ _ _ p
      intro a b hab
      apply (around.pulls_iff.mp hab).2.2

/-- The names that are struck are those that can be reached. -/
theorem mem_lost_iff (h : Course names r r' lost ran) {a : Name} :
  a ∈ lost ↔ ∃ n ∈ names, ReflTransGen r.graph.Pulls n a
  := by
  constructor
  · apply h.reached
  · rintro ⟨n, hn, p⟩
    induction p with
    | refl => apply h.subset n hn
    | tail _ hab ih => apply h.closed _ ih _ hab

/-! ### What is run -/

/-- The disposal that is due for a component is the one under its name. -/
theorem mem_due_iff {n m : Name} {d : δ} :
  (m, d) ∈ r.due n ↔ m = n ∧ r.disposals.get? m = some d
  := by
  rw [due, Option.mem_toList, Option.map_eq_some_iff]
  constructor
  · rintro ⟨_, hd, ⟨⟩⟩
    use rfl, hd
  · rintro ⟨rfl, hd⟩
    use d, hd

/-- Disposals run for the names that are struck, as far as they are due. -/
theorem mem_ran_iff (h : Course names r r' lost ran) {m : Name} {d : δ} :
  (m, d) ∈ ran ↔ m ∈ lost ∧ r.disposals.get? m = some d
  := by
  induction h with
  | nil => simp
  | @cons n _ above within rest r r₁ r₂ _ _ _ _ dependents contents _ ih₁ ih₂ ih₃ =>
    have h₁ : (r₁.release n).disposals = (r.disposals.erase n).without above :=
      dependents.struck.disposals
    have h₂ : (r₂.forget n).disposals = (r₁.release n).disposals.without within :=
      contents.struck.disposals
    have h₀ : (r.withdraw n).disposals = r.disposals.erase n := rfl
    simp only [List.mem_append, ih₁, ih₂, ih₃, mem_due_iff, h₀, h₂, h₁, Catalog.get?_without,
      Catalog.get?_erase, List.mem_singleton]
    by_cases hm : m = n
    · simp [hm]
    · by_cases ha : m ∈ above
      · simp [hm, ha]
      · by_cases hw : m ∈ within
        · simp [hm, ha, hw]
        · simp [hm, ha, hw]

/-- The disposals that run are those that were due for the components that are lost. -/
theorem mem_names_ran_iff (h : Course names r r' lost ran) {m : Name} :
  m ∈ ran.map Prod.fst ↔ m ∈ lost ∧ m ∈ r.disposals.names
  := by
  rw [List.mem_map, Catalog.mem_names_iff]
  constructor
  · rintro ⟨⟨m, d⟩, hd, rfl⟩
    obtain ⟨hm, hd⟩ := h.mem_ran_iff.mp hd
    use hm, d
  · rintro ⟨hm, d, hd⟩
    use (m, d), h.mem_ran_iff.mpr ⟨hm, hd⟩

variable {n m : Name} {above within : List Name} {r₁ r₂ : Registry φ δ}

/-- When a component has been withdrawn, no disposal is due for it any more. -/
theorem mem_names_withdraw :
  m ∈ (r.withdraw n).disposals.names ↔ m ≠ n ∧ m ∈ r.disposals.names
  := by
  simp [withdraw, Catalog.names_erase, and_comm]

/-- The disposal of a component does not run while its dependents are destroyed. -/
theorem mem_ran_dependents (dependents : Course names (r.withdraw n) r₁ above ran)
    (hm : m ∈ ran.map Prod.fst) :
  m ∈ above ∧ m ≠ n
  := by
  obtain ⟨ha, hd⟩ := dependents.mem_names_ran_iff.mp hm
  use ha
  apply (mem_names_withdraw.mp hd).1

/-- While what a component contains is destroyed, no disposal runs that ran before. -/
theorem mem_ran_contents (hs : (r.withdraw n).Struck above r₁)
    (contents : Course names (r₁.release n) r₂ within ran) (hm : m ∈ ran.map Prod.fst) :
  m ∈ within ∧ m ∉ above ∧ m ≠ n
  := by
  obtain ⟨hw, hd⟩ := contents.mem_names_ran_iff.mp hm
  use hw
  have hd : m ∈ r₁.disposals.names := hd
  rw [hs.disposals, Catalog.mem_names_without] at hd
  use hd.1
  apply (mem_names_withdraw.mp hd.2).1

/-- No disposal runs for a name that was struck before. -/
theorem notMem_of_mem_ran {D : List Name} (hs : r.Struck D r₁)
    (h : Course names r₁ r₂ lost ran) (hm : m ∈ ran.map Prod.fst) :
  m ∉ D
  := by
  have hd := (h.mem_names_ran_iff.mp hm).2
  rw [hs.disposals, Catalog.mem_names_without] at hd
  apply hd.1

/-- What is due for a component is its own disposal. -/
theorem eq_of_mem_names_due (hm : m ∈ (r.due n).map Prod.fst) :
  m = n
  := by
  obtain ⟨⟨m, d⟩, hd, rfl⟩ := List.mem_map.mp hm
  apply (mem_due_iff.mp hd).1

/-- No component is disposed of twice. -/
theorem nodup_ran (h : Course names r r' lost ran) :
  (ran.map Prod.fst).Nodup
  := by
  induction h with
  | nil => apply List.nodup_nil
  | @cons n _ above within rest r r₁ r₂ _ ran₁ ran₂ ran₃ dependents contents others ih₁ ih₂ ih₃ =>
    have around := dependents.struck.around contents.struck
    have due : ((r.due n).map Prod.fst).Nodup := by
      rw [Registry.due]
      cases r.disposals.get? n <;> simp
    simp only [List.map_append, List.nodup_append]
    refine ⟨ih₁, ⟨due, ⟨ih₂, ih₃, ?_⟩, ?_⟩, ?_⟩
    · rintro m hm _ hm' rfl
      apply notMem_of_mem_ran around others hm'
      simp [(mem_ran_contents dependents.struck contents hm).1]
    · rintro m hm _ hm' rfl
      obtain rfl := eq_of_mem_names_due hm
      rcases List.mem_append.mp hm' with hm' | hm'
      · apply (mem_ran_contents dependents.struck contents hm').2.2 rfl
      · apply notMem_of_mem_ran around others hm'
        simp
    · rintro m hm _ hm' rfl
      obtain ⟨ha, hn⟩ := mem_ran_dependents dependents hm
      simp only [List.mem_append] at hm'
      rcases hm' with hm' | hm' | hm'
      · apply hn (eq_of_mem_names_due hm')
      · apply (mem_ran_contents dependents.struck contents hm').2.1 ha
      · apply notMem_of_mem_ran around others hm'
        simp [ha]

/-- The disposals that run are those that are due for the names that are struck. -/
theorem ran_perm (h : Course names r r' lost ran) :
  ran.Perm (r.disposals.entries.filter fun e => e.1 ∈ lost)
  := by
  rw [List.perm_ext_iff_of_nodup h.nodup_ran.of_map
    (r.disposals.nodup.of_map.filter _)]
  rintro ⟨m, d⟩
  rw [h.mem_ran_iff, List.mem_filter, Catalog.mem_entries_iff, decide_eq_true_iff, and_comm]

end Course

end Registry

end Componentry
