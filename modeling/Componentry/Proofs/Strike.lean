import Componentry.Client
import Mathlib.Logic.Relation
import Mathlib.Tactic.Common

/-!
# What is left when names are struck

A destruction strikes names one after the other, and may come back to a name.  What it leaves
is described without that order: a catalog, a roster or links `without` the names, and a registry
of which `Struck` says that it has lost them in all its parts.  The order of what remains is
kept.
-/

namespace Componentry

/-! ### Catalogs -/

namespace Catalog

variable {α : Type}

/-- A catalog without the names of a list, with the order of the others kept. -/
def without (c : Catalog α) (struck : List Name) : Catalog α :=
  ⟨c.entries.filter fun e => e.1 ∉ struck,
    c.nodup.sublist (List.filter_sublist.map Prod.fst)⟩

theorem without_nil (c : Catalog α) :
  c.without [] = c
  := by
  apply ext_entries
  simp [without]

/-- Striking two lists of names one after the other strikes both. -/
theorem without_without (c : Catalog α) (D E : List Name) :
  (c.without D).without E = c.without (D ++ E)
  := by
  apply ext_entries
  simp only [without, List.filter_filter, List.mem_append, not_or]
  congr 1
  funext e
  rw [Bool.eq_iff_iff]
  simp [and_comm]

/-- Erasing a name is striking it. -/
theorem erase_eq_without (c : Catalog α) (n : Name) :
  c.erase n = c.without [n]
  := by
  apply ext_entries
  simp [erase, without]

/-- Neither the order of what is struck matters, nor how often it is struck. -/
theorem without_congr (c : Catalog α) {D E : List Name} (h : ∀ n, n ∈ D ↔ n ∈ E) :
  c.without D = c.without E
  := by
  apply ext_entries
  simp only [without, h]

/-- Striking a name before others strikes it with them. -/
theorem eq_without_around {c c' c'' : Catalog α} {D E : List Name} {n : Name}
    (h : c' = (c.erase n).without D) (h' : c'' = c'.without E) :
  c'' = c.without (D ++ (E ++ [n]))
  := by
  rw [h', h, erase_eq_without, without_without, without_without]
  apply without_congr
  intro m
  simp only [List.mem_append, List.mem_singleton]
  tauto

/-- The entries of the names that are not struck stay. -/
@[simp]
theorem get?_without (c : Catalog α) (D : List Name) (n : Name) :
  (c.without D).get? n = if n ∈ D then none else c.get? n
  := by
  induction D generalizing c with
  | nil => simp [without_nil]
  | cons m D ih =>
    have h : c.without (m :: D) = (c.erase m).without D := by
      rw [erase_eq_without, without_without]
      rfl
    rw [h, ih, get?_erase]
    by_cases hm : n = m
    · simp [hm]
    · simp [hm]

theorem without_filterMap {β : Type} (c : Catalog α) (f : α → Option β) (D : List Name) :
  (c.filterMap f).without D = (c.without D).filterMap f
  := by
  apply ext_entries
  apply filterMap_filter c (· ∉ D)

@[simp]
theorem mem_names_without {c : Catalog α} {D : List Name} {n : Name} :
  n ∈ (c.without D).names ↔ n ∉ D ∧ n ∈ c.names
  := by
  rw [mem_names_iff, mem_names_iff, get?_without]
  split <;> simp_all

end Catalog

/-! ### Links -/

namespace Roster

/-- A roster without the members of a list, with the order of the others kept. -/
def without (r : Roster) (struck : List Name) : Roster :=
  ⟨r.toList.filter (· ∉ struck), r.nodup.filter _⟩

@[simp]
theorem mem_without {r : Roster} {D : List Name} {n : Name} :
  n ∈ r.without D ↔ n ∉ D ∧ n ∈ r
  := by
  simp [mem_iff, without, and_comm]

@[simp]
theorem without_empty (D : List Name) :
  (∅ : Roster).without D = ∅
  := rfl

theorem without_without (r : Roster) (D E : List Name) :
  (r.without D).without E = r.without (D ++ E)
  := by
  apply ext
  simp only [without, List.filter_filter, List.mem_append, not_or]
  congr 1
  funext n
  rw [Bool.eq_iff_iff]
  simp [and_comm]

theorem erase_eq_without (r : Roster) (n : Name) :
  r.erase n = r.without [n]
  := by
  apply ext
  rw [toList_erase, r.nodup.erase_eq_filter]
  simp only [without, List.mem_singleton]
  congr 1
  funext m
  rw [Bool.eq_iff_iff]
  simp

end Roster

namespace Links

/-- The links, each as the name from which it starts and the one to which it leads. -/
def pairs (l : Links) : List (Name × Name) :=
  l.rows.entries.flatMap fun e => e.2.toList.map (e.1, ·)

/-- The pairs are the links that there are. -/
theorem mem_pairs {l : Links} {a b : Name} :
  (a, b) ∈ l.pairs ↔ l.has a b = true
  := by
  have hrow : l.has a b = true ↔ ∃ r, l.rows.get? a = some r ∧ b ∈ r.toList := by
    rw [has, row, Roster.contains_iff]
    cases l.rows.get? a <;> simp [Roster.mem_iff]
  rw [hrow, pairs, List.mem_flatMap]
  constructor
  · rintro ⟨⟨a', r⟩, he, hb⟩
    obtain ⟨b', hb', ⟨⟩⟩ := List.mem_map.mp hb
    use r, Catalog.mem_entries_iff.mp he
  · rintro ⟨r, hr, hb⟩
    use (a, r), Catalog.mem_entries_of_get? hr
    apply List.mem_map_of_mem hb

/-- Strikes the members of a list from a roster, and the roster with its last member. -/
def strikeAll (struck : List Name) (r : Roster) : Option Roster :=
  if (r.without struck).isEmpty then none else some (r.without struck)

/-- Links without those that have an end in a list of names.  The order of the others is kept,
and no name is left without links. -/
def without (l : Links) (struck : List Name) : Links :=
  ⟨(l.rows.without struck).filterMap (strikeAll struck)⟩

/-- A roster is struck off as soon as nothing is left in it, and that is so in the end. -/
theorem strikeAll_bind (D E : List Name) (r : Roster) :
  (strikeAll D r).bind (strikeAll E) = strikeAll (D ++ E) r
  := by
  unfold strikeAll
  rw [← Roster.without_without]
  by_cases h : (r.without D).isEmpty = true
  · rw [if_pos h, Roster.isEmpty_iff.mp h]
    rfl
  · rw [if_neg h]
    rfl

theorem strike_eq_strikeAll (n : Name) :
  strike n = strikeAll [n]
  := by
  funext r
  rw [strike, strikeAll, Roster.erase_eq_without]

theorem without_without (l : Links) (D E : List Name) :
  (l.without D).without E = l.without (D ++ E)
  := by
  unfold without
  rw [Catalog.without_filterMap, Catalog.without_without, Catalog.filterMap_filterMap]
  congr 2
  funext r
  apply strikeAll_bind

/-- Forgetting a name is striking it. -/
theorem forget_eq_without (l : Links) (n : Name) :
  l.forget n = l.without [n]
  := by
  rw [forget, without, Catalog.erase_eq_without, strike_eq_strikeAll]

/-- The links of a name that is struck later may be detached before. -/
theorem without_detach {D : List Name} {n : Name} (l : Links) (hn : n ∈ D) :
  (l.detach n).without D = l.without D
  := by
  simp only [without, detach, Catalog.erase_eq_without, Catalog.without_without]
  congr 2
  apply Catalog.without_congr
  intro m
  rw [List.mem_append, List.mem_singleton]
  constructor
  · rintro (rfl | hm)
    · apply hn
    · apply hm
  · apply Or.inr

/-- A name that is struck has no links any more, and another one has none to the names struck. -/
theorem row_without (l : Links) (D : List Name) (a : Name) :
  (l.without D).row a = if a ∈ D then ∅ else (l.row a).without D
  := by
  simp only [row, without, Catalog.get?_filterMap, Catalog.get?_without]
  split
  · rfl
  · cases l.rows.get? a with
    | none => rfl
    | some r =>
      simp only [Option.bind_some, Option.getD_some, strikeAll]
      split
      · rename_i h
        rw [Roster.isEmpty_iff.mp h]
        rfl
      · rfl

/-- The links that stay are those of which neither end is struck. -/
theorem has_without (l : Links) (D : List Name) (a b : Name) :
  (l.without D).has a b = true ↔ a ∉ D ∧ b ∉ D ∧ l.has a b = true
  := by
  simp only [has, row_without, Roster.contains_iff]
  split
  · rename_i ha
    simp [ha]
  · rename_i ha
    simp [ha]

/-- The links `l'` are what is left of `l` when every link with an end in `D` is struck, but for
names that are left without links. -/
def Struck (D : List Name) (l l' : Links) : Prop := l'.without [] = l.without D

/-- The links that are left are those of which neither end was struck. -/
theorem Struck.has_iff {D : List Name} {l l' : Links} (h : Struck D l l') {a b : Name} :
  l'.has a b = true ↔ a ∉ D ∧ b ∉ D ∧ l.has a b = true
  := by
  rw [← has_without, ← h, has_without]
  simp

theorem struck_nil (l : Links) :
  Struck [] l l
  := rfl

/-- What is struck one after the other is struck together. -/
theorem Struck.trans {D E : List Name} {l l' l'' : Links} (h : Struck D l l')
    (h' : Struck E l' l'') :
  Struck (D ++ E) l l''
  := by
  calc l''.without []
    _ = l'.without E := h'
    _ = (l'.without []).without E := (l'.without_without [] E).symm
    _ = (l.without D).without E := by rw [h]
    _ = l.without (D ++ E) := l.without_without D E

theorem struck_forget (l : Links) (n : Name) :
  Struck [n] l (l.forget n)
  := by
  rw [Struck, forget_eq_without, without_without]
  rfl

/-- The links of a name that is struck later may be detached before. -/
theorem Struck.of_detach {D : List Name} {l l' : Links} {n : Name} (hn : n ∈ D)
    (h : Struck D (l.detach n) l') :
  Struck D l l'
  := by
  rw [Struck, h, without_detach l hn]

/-- No name is left without links when a name was forgotten. -/
theorem Struck.forget_eq {D : List Name} {l l' : Links} {n : Name} (h : Struck D l (l'.forget n)) :
  l'.forget n = l.without D
  := by
  rw [← h, forget_eq_without, without_without]
  rfl

end Links

/-! ### Registries -/

/-- Destroying the first component carries off the second one: it depends on the first, or is
contained in it. -/
def Graph.Pulls (g : Graph) (a b : Name) : Prop :=
  g.dependents.has a b = true ∨ g.contained.has a b = true

namespace Registry

variable {φ δ : Type}

/-- The registry `r'` is what is left of `r` when the names in `D` are struck from its tiers,
from the disposals that are due, and from the graph. -/
structure Struck (D : List Name) (r r' : Registry φ δ) : Prop where
  finished : r'.finished = r.finished.without D
  producers : r'.producers = r.producers.without D
  early : r'.early = r.early.without D
  disposals : r'.disposals = r.disposals.without D
  dependents : Links.Struck D r.graph.dependents r'.graph.dependents
  dependencies : Links.Struck D r.graph.dependencies r'.graph.dependencies
  contained : Links.Struck D r.graph.contained r'.graph.contained
  guard : r'.guard = r.guard
  suppressed : r'.suppressed = r.suppressed
  inDestruction : r'.inDestruction = r.inDestruction

theorem struck_nil (r : Registry φ δ) :
  Struck [] r r
  where
  finished := (r.finished.without_nil).symm
  producers := (r.producers.without_nil).symm
  early := (r.early.without_nil).symm
  disposals := (r.disposals.without_nil).symm
  dependents := Links.struck_nil _
  dependencies := Links.struck_nil _
  contained := Links.struck_nil _
  guard := rfl
  suppressed := rfl
  inDestruction := rfl

/-- What is struck one after the other is struck together, in all parts of the registry. -/
theorem Struck.trans {D E : List Name} {r r' r'' : Registry φ δ} (h : Struck D r r')
    (h' : Struck E r' r'') :
  Struck (D ++ E) r r''
  where
  finished := by rw [h'.finished, h.finished, Catalog.without_without]
  producers := by rw [h'.producers, h.producers, Catalog.without_without]
  early := by rw [h'.early, h.early, Catalog.without_without]
  disposals := by rw [h'.disposals, h.disposals, Catalog.without_without]
  dependents := h.dependents.trans h'.dependents
  dependencies := h.dependencies.trans h'.dependencies
  contained := h.contained.trans h'.contained
  guard := h'.guard.trans h.guard
  suppressed := h'.suppressed.trans h.suppressed
  inDestruction := h'.inDestruction.trans h.inDestruction

/-- What is struck around a component: its dependents after it was withdrawn, what it contains
after that was released, and at last its own links. -/
theorem Struck.around {D E : List Name} {n : Name} {r r' r'' : Registry φ δ}
    (h : Struck D (r.withdraw n) r') (h' : Struck E (r'.release n) r'') :
  Struck (D ++ (E ++ [n])) r (r''.forget n)
  where
  finished := Catalog.eq_without_around h.finished h'.finished
  producers := Catalog.eq_without_around h.producers h'.producers
  early := Catalog.eq_without_around h.early h'.early
  disposals := Catalog.eq_without_around h.disposals h'.disposals
  dependents := by
    apply Links.Struck.of_detach (n := n)
    · simp
    · apply h.dependents.trans
      apply h'.dependents.trans
      apply Links.struck_forget
  dependencies := by
    apply h.dependencies.trans
    apply h'.dependencies.trans
    apply Links.struck_forget
  contained := by
    apply h.contained.trans
    apply Links.Struck.of_detach (n := n)
    · simp
    · apply h'.contained.trans
      apply Links.struck_forget
  guard := h'.guard.trans h.guard
  suppressed := h'.suppressed.trans h.suppressed
  inDestruction := h'.inDestruction.trans h.inDestruction

end Registry

end Componentry
