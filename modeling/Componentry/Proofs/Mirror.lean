import Componentry.Proofs.Agenda

/-!
# The two directions of a dependency

A graph files a dependency twice: under the component that is depended on, and under the one that
depends.  The destruction of a component strikes the first entries at its beginning and the second
ones at its end, so that the two disagree in between, while disposals run that may record whatever
they like.  The main result, `graph_mirrored`, says that they disagree on no other account: at every
moment of a run an entry has its counterpart, unless the component depended on is being destroyed.
-/

namespace Componentry

open Machine

variable {φ δ μ α : Type} {host : Host φ δ μ} {n : Name}

/-! ### Links without empty rows -/

namespace Links

variable {l : Links}

/-- Under every name from which a link starts there is the end of one. -/
def Dense (l : Links) : Prop := ∀ a r, l.rows.get? a = some r → r ≠ ∅

theorem dense_empty :
  (∅ : Links).Dense
  := by
  rintro a r ⟨⟩

/-- To add a link leaves no name without the end of one. -/
theorem Dense.add (h : l.Dense) (a b : Name) :
  (l.add a b).Dense
  := by
  intro c r hr
  obtain ⟨-, rfl⟩ | hr := Catalog.of_get?_insert hr
  · intro empty
    have hb : b ∈ (l.row a).insert b := Roster.mem_insert.mpr (.inr rfl)
    rw [empty] at hb
    apply Roster.notMem_empty hb
  · apply h c r hr

/-- To strike the links that start from a name leaves no other name without the end of one. -/
theorem Dense.detach (h : l.Dense) (a : Name) :
  (l.detach a).Dense
  := by
  intro c r hr
  apply h c r (Catalog.of_get?_erase hr)

/-- Where a name is struck, the rows go that only had this name. -/
theorem dense_forget (l : Links) (n : Name) :
  (l.forget n).Dense
  := by
  intro c r hr
  rw [forget, Catalog.get?_filterMap] at hr
  obtain ⟨s, -, hs⟩ := Option.bind_eq_some_iff.mp hr
  unfold strike at hs
  split at hs
  · cases hs
  · rename_i filled
    cases hs
    intro empty
    apply filled (Roster.isEmpty_iff.mpr empty)

/-- Dense links are empty exactly if there is no link. -/
theorem Dense.isEmpty_iff (h : l.Dense) :
  l.isEmpty = true ↔ ∀ a b, l.has a b = false
  := by
  rw [isEmpty, Catalog.isEmpty_iff_get?]
  constructor
  · intro empty a b
    rw [has, row, empty]
    rfl
  · intro unlinked a
    rw [Option.eq_none_iff_forall_ne_some]
    intro r hr
    apply h a r hr
    apply Roster.ext
    rw [Roster.toList_empty, List.eq_nil_iff_forall_not_mem]
    intro b hb
    have linked : l.has a b = true := by
      rw [has, row, hr]
      apply Roster.contains_iff.mpr hb
    cases (unlinked a b).symm.trans linked

end Links

/-! ### Graphs -/

namespace Graph

variable {g : Graph} {undone undone' : Name → Prop}

/-- The graph is filed in both directions alike, except that some links to the dependents of the
components in `undone` are struck. -/
structure Mirrored (undone : Name → Prop) (g : Graph) : Prop where
  /-- Who is filed as a dependent has the dependency. -/
  forth : ∀ u v, g.dependents.has u v = true → g.dependencies.has v u = true
  /-- Who has a dependency is filed as a dependent. -/
  back : ∀ u v, g.dependencies.has v u = true → g.dependents.has u v = true ∨ undone u
  /-- What contains a component is filed as a dependent. -/
  inside : ∀ outer inner, g.contained.has outer inner = true →
    g.dependents.has inner outer = true ∨ undone inner
  /-- No row is empty. -/
  dense : g.dependents.Dense ∧ g.dependencies.Dense ∧ g.contained.Dense

/-- The two directions are exact inverses, and can be asked for either way. -/
structure Exact (g : Graph) : Prop where
  inverse : ∀ u v, g.dependents.has u v = g.dependencies.has v u
  inside : ∀ outer inner, g.contained.has outer inner = true → g.dependents.has inner outer = true
  hasDependents : ∀ n, g.hasDependents n = true ↔ g.dependentsOf n ≠ []
  isEmpty : g.isEmpty = true ↔ ∀ a b,
    g.dependents.has a b = false ∧ g.dependencies.has a b = false ∧ g.contained.has a b = false

theorem mirrored_empty (undone : Name → Prop) :
  (∅ : Graph).Mirrored undone
  := by
  refine ⟨?_, ?_, ?_, Links.dense_empty, Links.dense_empty, Links.dense_empty⟩
  all_goals rintro _ _ ⟨⟩

/-- A graph that is mirrored apart from some components is mirrored apart from more of them. -/
theorem Mirrored.mono (h : g.Mirrored undone) (more : ∀ n, undone n → undone' n) :
  g.Mirrored undone'
  := { h with
    back := fun u v hd => (h.back u v hd).imp_right (more u)
    inside := fun outer inner hc => (h.inside outer inner hc).imp_right (more inner) }

/-- To record a dependency files it in both directions. -/
theorem Mirrored.depend (h : g.Mirrored undone) (d n : Name) :
  (g.depend d n).Mirrored undone
  := by
  have forth := h.forth d n
  constructor
  case forth =>
    intro u v
    rw [has_dependents_depend, has_dependencies_depend forth, and_comm (a := v = n)]
    apply Or.imp_left (h.forth u v)
  case back =>
    intro u v
    rw [has_dependents_depend, has_dependencies_depend forth]
    rintro (hd | ⟨rfl, rfl⟩)
    · apply (h.back u v hd).imp_left .inl
    · exact .inl (.inr ⟨rfl, rfl⟩)
  case inside =>
    intro outer inner
    rw [contained_depend, has_dependents_depend]
    intro hc
    apply (h.inside outer inner hc).imp_left .inl
  case dense =>
    rw [Graph.depend]
    split
    · exact h.dense
    · exact ⟨h.dense.1.add d n, h.dense.2.1.add n d, h.dense.2.2⟩

/-- To record a containment files the dependency that comes with it in both directions. -/
theorem Mirrored.contain (h : g.Mirrored undone) (inner outer : Name) :
  (g.contain inner outer).Mirrored undone
  := by
  rw [Graph.contain]
  split
  · exact h
  · -- the new entry has no counterpart yet, so that this is not a matter of `depend` alone
    let g' : Graph := { g with contained := g.contained.add outer inner }
    have linked : (g'.depend inner outer).dependents.has inner outer = true :=
      has_dependents_depend.mpr (.inr ⟨rfl, rfl⟩)
    have apart : g'.depend inner outer
        = { g.depend inner outer with contained := g.contained.add outer inner } := by
      simp only [Graph.depend, g']
      split <;> rfl
    have hd := h.depend inner outer
    rw [apart] at linked ⊢
    refine { hd with
      inside := ?_, dense := ⟨hd.dense.1, hd.dense.2.1, h.dense.2.2.add outer inner⟩ }
    intro a b hc
    obtain hc | ⟨rfl, rfl⟩ := (Links.has_add _ _ _ _ _).mp hc
    · apply hd.inside a b
      rw [contained_depend]
      exact hc
    · exact .inl linked

/-- The links to the dependents of a component are struck, and it is left undone that they have a
counterpart. -/
theorem Mirrored.detachDependents (h : g.Mirrored undone) (n : Name) :
  (g.detachDependents n).Mirrored fun m => m = n ∨ undone m
  := by
  have kept : ∀ u v, g.dependents.has u v = true ∨ undone u →
      (g.dependents.detach n).has u v = true ∨ u = n ∨ undone u := by
    rintro u v (hu | hu)
    · by_cases hn : u = n
      · exact .inr (.inl hn)
      · exact .inl ((Links.has_detach _ _ _ _).mpr ⟨hn, hu⟩)
    · exact .inr (.inr hu)
  constructor
  case forth =>
    intro u v hu
    apply h.forth u v ((Links.has_detach _ _ _ _).mp hu).2
  case back =>
    intro u v hd
    apply kept u v (h.back u v hd)
  case inside =>
    intro outer inner hc
    apply kept inner outer (h.inside outer inner hc)
  case dense => exact ⟨h.dense.1.detach n, h.dense.2⟩

/-- To strike what a component contains changes no dependency. -/
theorem Mirrored.detachContained (h : g.Mirrored undone) (n : Name) :
  (g.detachContained n).Mirrored undone
  := by
  refine { h with inside := ?_, dense := ⟨h.dense.1, h.dense.2.1, h.dense.2.2.detach n⟩ }
  intro outer inner hc
  apply h.inside outer inner ((Links.has_detach _ _ _ _).mp hc).2

/-- When every link with an end at a component is struck, nothing is undone about it. -/
theorem Mirrored.forget (h : g.Mirrored undone) (n : Name) :
  (g.forget n).Mirrored fun m => m ≠ n ∧ undone m
  := by
  constructor
  case forth =>
    intro u v hu
    obtain ⟨hun, hvn, hu⟩ := (Links.has_forget _ _ _ _).mp hu
    exact (Links.has_forget _ _ _ _).mpr ⟨hvn, hun, h.forth u v hu⟩
  case back =>
    intro u v hd
    obtain ⟨hvn, hun, hd⟩ := (Links.has_forget _ _ _ _).mp hd
    apply (h.back u v hd).imp
    · intro hu
      exact (Links.has_forget _ _ _ _).mpr ⟨hun, hvn, hu⟩
    · exact .intro hun
  case inside =>
    intro outer inner hc
    obtain ⟨hon, hin, hc⟩ := (Links.has_forget _ _ _ _).mp hc
    apply (h.inside outer inner hc).imp
    · intro hi
      exact (Links.has_forget _ _ _ _).mpr ⟨hin, hon, hi⟩
    · exact .intro hin
  case dense => exact ⟨Links.dense_forget _ n, Links.dense_forget _ n, Links.dense_forget _ n⟩

/-- When nothing is left undone, the two directions agree. -/
theorem Mirrored.exact (h : g.Mirrored undone) (none : ∀ n, ¬ undone n) :
  g.Exact
  := by
  constructor
  case inverse =>
    intro u v
    rw [Bool.eq_iff_iff]
    constructor
    · apply h.forth u v
    · intro hd
      apply (h.back u v hd).resolve_right (none u)
  case inside =>
    intro outer inner hc
    apply (h.inside outer inner hc).resolve_right (none inner)
  case hasDependents =>
    intro n
    rw [hasDependents, dependentsOf, Roster.isEmpty]
    cases (g.dependents.row n).toList <;> simp
  case isEmpty =>
    rw [isEmpty, Bool.and_eq_true, Bool.and_eq_true, h.dense.1.isEmpty_iff,
      h.dense.2.1.isEmpty_iff, h.dense.2.2.isEmpty_iff, and_assoc]
    simp only [forall_and]

end Graph

/-- A request that is answered at once at most records a link. -/
theorem Registry.mirrored_edit {r : Registry φ δ} {undone : Name → Prop}
    (h : r.graph.Mirrored undone) (e : Edit φ δ) :
  (r.edit e).1.graph.Mirrored undone
  := by
  cases e with
  | bind n i =>
    obtain ⟨-, hb⟩ | hb := r.edit_bind n i
    · rw [hb]
      exact h
    · rw [hb]
      exact h
  | publish n producer =>
    simp only [edit, publish]
    split <;> exact h
  | depend dependee dependent => apply h.depend
  | contain inner outer => apply h.contain
  | suppress | remove | setExempt | onDestroy => exact h

/-! ### Destructions that are running -/

namespace Machine

/-- The destruction of a component is running: it has begun, and its links are still to be struck.
-/
def Destroys (m : Machine φ δ μ α) (n : Name) : Prop := .forget n ∈ m.tasks

variable {m : Machine φ δ μ α}

/-! ### The step and the run -/

/-- What a step does to the graph is accounted for by the destructions that are running. -/
theorem mirrored_step (calm : host.Calm) (h : m.registry.graph.Mirrored m.Destroys) :
  (m.step host).registry.graph.Mirrored (m.step host).Destroys
  := by
  have lasts (n : Name) := mem_tasks_step (t := .forget n) calm (m := m)
  have kept {g : Graph} (hg : g.Mirrored m.Destroys)
      (others : ∀ n, m.task? ≠ some (.forget n)) : g.Mirrored (m.step host).Destroys :=
    hg.mono fun n hn => (lasts n hn).resolve_right (others n)
  have alters := alters_step host m
  generalize (m.step host).registry = r at alters ⊢
  cases alters with
  | keeps _ ending task =>
    apply kept h
    intro n hn
    obtain ⟨_, _, ⟨⟩⟩ := task _ hn
  | edits e next stack w =>
    apply kept (Registry.mirrored_edit h e)
    rintro n ⟨⟩
  | takes next stack w pending =>
    obtain ⟨-, -, rfl⟩ := Registry.of_sight_pending pending
    apply kept h
    rintro n ⟨⟩
  | restores n producer e resume below w =>
    obtain ⟨producers, hr⟩ := w.registry.restore_eq n producer
    rw [hr]
    apply kept h
    rintro n ⟨⟩
  | admits factory next stack w admitted =>
    obtain ⟨-, -, guard, suppressed, -, -, -, rfl⟩ := Registry.of_admitted admitted
    apply kept h
    rintro n ⟨⟩
  | memoizes | leaves | installs | drops | abandons | marks =>
    apply kept h
    rintro n ⟨⟩
  | withdraws n tasks resume stack w =>
    apply (h.detachDependents n).mono
    -- the component that is withdrawn is struck until it is forgotten
    rintro k (rfl | hk)
    · change Task.forget k ∈ (destructionTasks k _ _ ++ tasks) ++ stack.tasks
      simp [destructionTasks]
    · apply (lasts k hk).resolve_right
      rintro ⟨⟩
  | releases n tasks resume stack w =>
    apply kept (h.detachContained n)
    rintro n ⟨⟩
  | forgets n tasks resume stack w =>
    apply (h.forget n).mono
    rintro k ⟨ne, hk⟩
    apply (lasts k hk).resolve_right
    rintro ⟨⟩
    apply ne rfl
  | clears tasks resume stack w => apply Graph.mirrored_empty

end Machine

/-- At every moment of a run the graph is filed in both directions alike, except that links to the
dependents of a component may be struck while its destruction is running: whatever callbacks record,
destroy or panic with, as long as no one who hears a notice panics.  When no destruction is running,
the two directions are exact inverses. -/
theorem graph_mirrored (calm : host.Calm) (c : Client φ δ μ α) (w : World φ δ μ)
    (begins : w.registry.graph.Mirrored fun _ => False) (k : Nat) :
  (runFor host k (start c w)).registry.graph.Mirrored (runFor host k (start c w)).Destroys ∧
    ((∀ n, ¬ (runFor host k (start c w)).Destroys n) →
      (runFor host k (start c w)).registry.graph.Exact)
  := by
  have mirrored : (runFor host k (start c w)).registry.graph.Mirrored
      (runFor host k (start c w)).Destroys := by
    induction k with
    | zero => exact begins.mono fun _ => False.elim
    | succ k ih =>
      rw [runFor_step]
      apply mirrored_step calm ih
  use mirrored, mirrored.exact

/-- A host whose disposals record a dependency each, and panic. -/
def Host.recording : Host Unit (Name × Name) Unit where
  make _ := .panic .other
  dispose link := .edit (.depend link.1 link.2) fun _ => .panic .other
  hear _ m := (none, m)

/-- A moment of the run that destroys `a`, on which `b` depends.  The disposal of `b` records that
`c` depends on `a` as well. -/
def Machine.recording (k : Nat) : Machine Unit (Name × Name) Unit Unit :=
  runFor .recording k (start
    (.edit (.depend "a" "b") fun _ => .edit (.onDestroy "b" ("a", "c")) fun _ => .destroy "a" .done)
    ⟨.fresh ⟨true, 1, [], false⟩, ()⟩)

/-- When the disposal has recorded its dependency, `b` is no longer filed as a dependent of `a` and
still has the dependency; in the end nothing is left of either. -/
theorem graph_mirrored_recording :
  (Machine.recording 7).Destroys "a" ∧
    (Machine.recording 7).registry.graph.dependentsOf "a" = ["c"] ∧
    (Machine.recording 7).registry.graph.dependenciesOf "b" = ["a"] ∧
    (Machine.recording 7).registry.graph.Mirrored (Machine.recording 7).Destroys ∧
    (Machine.recording 15).registry.graph.Exact ∧
    (Machine.recording 15).registry.graph.isEmpty = true
  := by
  have calm : Host.recording.Calm := fun _ _ => rfl
  have h := graph_mirrored calm
    (.edit (.depend "a" "b") fun _ => .edit (.onDestroy "b" ("a", "c")) fun _ => .destroy "a" .done)
    ⟨.fresh ⟨true, 1, [], false⟩, ()⟩ (Graph.mirrored_empty _)
  refine ⟨?_, rfl, rfl, (h 7).1, (h 15).2 ?_, rfl⟩
  · change Task.forget "a" ∈ [.contents "b", .forget "b", .contents "a", .forget "a"]
    simp
  · rintro n ⟨⟩

end Componentry
