import Componentry.Proofs.Footprint

/-!
# In which order components are disposed of

A component outlives one that depends on it, unless it is carried off by something that depends on
that one in turn.  `Registry.Course.orders` says that a destruction disposes of components in this
order, whatever links there are: of a component before all those that outlive it, directly or by way
of others.

If nothing contains anything, a component is carried off in this way only by what it depends on, so
that dependents are disposed of first.  If components contain others, they need not be: a component
that is destroyed along with what contains it takes its contents with it, even if its own disposal
is still to come.
-/

namespace Componentry

open Machine Relation

namespace Graph

/-- A dependent of the first component carries off the second one. -/
def Drags (g : Graph) (v u : Name) : Prop :=
  ∃ x, g.dependents.has v x = true ∧ ReflTransGen g.Pulls x u

/-- The second component depends on the first one, and none of its dependents carries off the
first one. -/
def Outlives (g : Graph) (u v : Name) : Prop := g.dependents.has u v = true ∧ ¬ g.Drags v u

/-- In the list, a name comes before all those that outlive it. -/
def Orders (g : Graph) (l : List Name) : Prop :=
  ∀ u v, TransGen g.Outlives u v → u ∈ l → v ∈ l → [v, u].Sublist l

/-- The links of the first graph are links of the second one. -/
structure IsPart (g g' : Graph) : Prop where
  dependents : ∀ a b, g.dependents.has a b = true → g'.dependents.has a b = true
  pulls : ∀ a b, g.Pulls a b → g'.Pulls a b

variable {g g' : Graph} {u v : Name}

/-- What is dragged along by links that are left was dragged along before. -/
theorem IsPart.drags (h : g.IsPart g') (hd : g.Drags v u) :
  g'.Drags v u
  := by
  obtain ⟨x, hx, p⟩ := hd
  use x, h.dependents v x hx
  apply ReflTransGen.mono h.pulls _ _ p

/-- Where fewer components carry others off, no fewer outlive others. -/
theorem Outlives.of_isPart (h : g'.Outlives u v) (part : g.IsPart g')
    (hg : g.dependents.has u v = true) :
  g.Outlives u v
  := by
  use hg
  intro hd
  apply h.2 (part.drags hd)

/-- A chain of components that outlive each other is kept by a part of the graph that keeps the
links which lead to it. -/
theorem IsPart.outlives {P : Name → Prop} (part : g.IsPart g')
    (keeps : ∀ a b, g'.Outlives a b → P b → P a ∧ g.dependents.has a b = true)
    (p : TransGen g'.Outlives u v) (hv : P v) :
  TransGen g.Outlives u v
  := by
  have both : P u ∧ TransGen g.Outlives u v := by
    induction p using TransGen.head_induction_on with
    | single h =>
      obtain ⟨hu, hg⟩ := keeps _ _ h hv
      use hu
      apply TransGen.single (h.of_isPart part hg)
    | head h _ ih =>
      obtain ⟨hb, p⟩ := ih
      obtain ⟨hu, hg⟩ := keeps _ _ h hb
      use hu
      apply TransGen.head (h.of_isPart part hg) p
  apply both.2

/-- A chain of components that outlive each other does not leave what is closed. -/
theorem mem_of_outlives {D : List Name} (closed : ∀ a ∈ D, ∀ b, g.Pulls a b → b ∈ D)
    (hu : u ∈ D) (p : TransGen g.Outlives u v) :
  v ∈ D
  := by
  induction p with
  | single h => apply closed _ hu _ (.inl h.1)
  | tail _ h ih => apply closed _ ih _ (.inl h.1)

/-- Two lists one after the other are in order, if each of them is and nothing in the second one
has to come before something in the first one. -/
theorem Orders.append {l l' : List Name} (h : g.Orders l) (h' : g.Orders l')
    (later : ∀ u v, TransGen g.Outlives u v → u ∈ l → v ∉ l') :
  g.Orders (l ++ l')
  := by
  intro u v p hu hv
  rcases List.mem_append.mp hu with hu | hu
  · have hv := (List.mem_append.mp hv).resolve_right (later u v p hu)
    apply (h u v p hu hv).trans (List.sublist_append_left _ _)
  · rcases List.mem_append.mp hv with hv | hv
    · apply List.Sublist.append (List.singleton_sublist.mpr hv) (List.singleton_sublist.mpr hu)
    · apply (h' u v p hu hv).trans (List.sublist_append_right _ _)

end Graph

namespace Registry

variable {φ δ : Type} {r r' r₁ r₂ : Registry φ δ} {n u v : Name}

theorem isPart_withdraw (r : Registry φ δ) (n : Name) :
  (r.withdraw n).graph.IsPart r.graph
  where
  dependents _ _ hab := ((Links.has_detach _ _ _ _).mp hab).2
  pulls _ _ := pulls_of_withdraw

theorem Struck.isPart {D : List Name} (h : r.Struck D r') :
  r'.graph.IsPart r.graph
  where
  dependents _ _ hab := (h.dependents.has_iff.mp hab).2.2
  pulls _ _ hab := (h.pulls_iff.mp hab).2.2

/-- What is left of a component's contents when its dependents were struck. -/
theorem Struck.isPart_release {D : List Name} (h : (r.withdraw n).Struck D r₁) :
  (r₁.release n).graph.IsPart r.graph
  where
  dependents a b hab := (r.isPart_withdraw n).dependents a b (h.isPart.dependents a b hab)
  pulls a b hab := pulls_of_withdraw (h.isPart.pulls a b (pulls_of_release hab))

/-- What is struck does not shorten a chain that ends elsewhere. -/
theorem Struck.outlives {D : List Name} (h : r.Struck D r')
    (closed : ∀ a ∈ D, ∀ b, r.graph.Pulls a b → b ∈ D) (p : TransGen r.graph.Outlives u v)
    (hv : v ∉ D) :
  TransGen r'.graph.Outlives u v
  := by
  apply h.isPart.outlives (P := (· ∉ D)) _ p hv
  intro a b hab hb
  have ha : a ∉ D := fun ha => hb (closed a ha b (.inl hab.1))
  use ha
  apply h.dependents.has_iff.mpr ⟨ha, hb, hab.1⟩

namespace Course

variable {names above within : List Name} {ran ran₁ ran₂ : List (Name × δ)}

/-- The dependents of a component carry off whatever they outlive, but not the component
itself. -/
theorem mem_of_outlives (dependents : Course (r.graph.dependentsOf n) (r.withdraw n) r₁ above ran)
    (hu : u ∈ above ∨ u = n) (h : r.graph.Outlives u v) :
  v ∈ above ∧ v ≠ n
  := by
  constructor
  · by_cases hn : u = n
    · subst hn
      apply dependents.subset v (mem_dependentsOf.mpr h.1)
    · apply dependents.closed u (hu.resolve_right hn) v
      left
      apply (Links.has_detach _ _ _ _).mpr ⟨hn, h.1⟩
  · rintro rfl
    apply h.2
    rcases hu with hu | rfl
    · obtain ⟨x, hx, p⟩ := dependents.reached u hu
      use x, mem_dependentsOf.mp hx
      apply ReflTransGen.mono (r.isPart_withdraw v).pulls _ _ p
    · use u, h.1

/-- The same for what they outlive through others. -/
theorem mem_of_transGen (dependents : Course (r.graph.dependentsOf n) (r.withdraw n) r₁ above ran)
    (hu : u ∈ above ∨ u = n) (p : TransGen r.graph.Outlives u v) :
  v ∈ above ∧ v ≠ n
  := by
  induction p with
  | single h => apply dependents.mem_of_outlives hu h
  | tail _ h ih => apply dependents.mem_of_outlives (.inl ih.1) h

/-- A chain that begins among the dependents of a component is there when the component was
withdrawn. -/
theorem outlives_withdraw
    (dependents : Course (r.graph.dependentsOf n) (r.withdraw n) r₁ above ran) (hu : u ∈ above)
    (hn : u ≠ n) (p : TransGen r.graph.Outlives u v) :
  TransGen (r.withdraw n).graph.Outlives u v
  := by
  have step : ∀ a b, a ≠ n → r.graph.Outlives a b → (r.withdraw n).graph.Outlives a b := by
    intro a b ha hab
    apply hab.of_isPart (r.isPart_withdraw n)
    apply (Links.has_detach _ _ _ _).mpr ⟨ha, hab.1⟩
  induction p with
  | single h => apply TransGen.single (step _ _ hn h)
  | tail p h ih => apply ih.tail (step _ _ (dependents.mem_of_transGen (.inl hu) p).2 h)

/-- A chain that ends elsewhere is there when the dependents of a component were destroyed. -/
theorem outlives_release
    (dependents : Course (r.graph.dependentsOf n) (r.withdraw n) r₁ above ran) (hv : v ∉ above)
    (p : TransGen r.graph.Outlives u v) :
  TransGen (r₁.release n).graph.Outlives u v
  := by
  apply dependents.struck.isPart_release.outlives (P := (· ∉ above)) _ p hv
  intro a b hab hb
  have ha : a ∉ above := fun ha => hb (dependents.mem_of_outlives (.inl ha) hab).1
  have hn : a ≠ n := fun hn => hb (dependents.mem_of_outlives (.inr hn) hab).1
  use ha
  apply dependents.struck.dependents.has_iff.mpr
  use ha, hb
  apply (Links.has_detach _ _ _ _).mpr ⟨hn, hab.1⟩

/-- Whatever links there are, a destruction disposes of a component before all those that outlive
it. -/
theorem orders {lost : List Name} (h : Course names r r' lost ran) :
  r.graph.Orders (ran.map Prod.fst)
  := by
  induction h with
  | nil =>
    intro u v _ hu
    cases hu
  | @cons n _ above within rest r r₁ r₂ r₃ ran₁ ran₂ ran₃ dependents contents others ih₁ ih₂ ih₃ =>
    have around := dependents.struck.around contents.struck
    have closed := dependents.closed_around contents dependents.closed contents.closed
    have in_above : ∀ {m}, m ∈ ran₁.map Prod.fst → m ∈ above ∧ m ≠ n :=
      mem_ran_dependents dependents
    have in_within : ∀ {m}, m ∈ ran₂.map Prod.fst → m ∈ within ∧ m ∉ above ∧ m ≠ n :=
      mem_ran_contents dependents.struck contents
    have elsewhere : ∀ {m}, m ∈ ran₃.map Prod.fst → m ∉ above ++ (within ++ [n]) :=
      notMem_of_mem_ran around others
    -- what the component or one of its dependents outlives was disposed of with its dependents
    have before : ∀ u v, u ∈ above ∨ u = n → TransGen r.graph.Outlives u v →
        v ∉ (r.due n).map Prod.fst ++ (ran₂.map Prod.fst ++ ran₃.map Prod.fst) := by
      intro u v hu p hv
      obtain ⟨ha, hn⟩ := dependents.mem_of_transGen hu p
      simp only [List.mem_append] at hv
      rcases hv with hv | hv | hv
      · apply hn (eq_of_mem_names_due hv)
      · apply (in_within hv).2.1 ha
      · apply elsewhere hv (List.mem_append_left _ ha)
    have above_ordered : r.graph.Orders (ran₁.map Prod.fst) := by
      intro u v p hu hv
      obtain ⟨ha, hn⟩ := in_above hu
      apply ih₁ u v (dependents.outlives_withdraw ha hn p) hu hv
    have own_ordered : r.graph.Orders ((r.due n).map Prod.fst) := by
      intro u v p hu hv
      have hn := (dependents.mem_of_transGen (.inr (eq_of_mem_names_due hu)) p).2
      apply absurd (eq_of_mem_names_due hv) hn
    have within_ordered : r.graph.Orders (ran₂.map Prod.fst) := by
      intro u v p hu hv
      apply ih₂ u v (dependents.outlives_release (in_within hv).2.1 p) hu hv
    have rest_ordered : r.graph.Orders (ran₃.map Prod.fst) := by
      intro u v p hu hv
      apply ih₃ u v (around.outlives closed p (elsewhere hv)) hu hv
    simp only [List.map_append]
    apply above_ordered.append (own_ordered.append (within_ordered.append rest_ordered _) _)
    · intro u v p hu
      apply before u v (.inl (in_above hu).1) p
    · intro u v p hu hv
      apply elsewhere hv
      apply Graph.mem_of_outlives closed _ p
      simp [(in_within hu).1]
    · intro u v p hu hv
      apply before u v (.inr (eq_of_mem_names_due hu)) p (List.mem_append_right _ hv)

/-- What a dependent of a component carries off is carried off while that component is destroyed. -/
theorem mem_of_drags (dependents : Course (r.graph.dependentsOf n) (r.withdraw n) r₁ above ran)
    (h : r.graph.Drags n u) :
  u ∈ above
  := by
  obtain ⟨x, hx, p⟩ := h
  induction p with
  | refl => apply dependents.subset x (mem_dependentsOf.mpr hx)
  | @tail b c _ hbc ih =>
    rcases hbc with hbc | hbc
    · by_cases hb : b = n
      -- the way comes back to the component, and could have begun at this dependent of it
      · subst hb
        apply dependents.subset c (mem_dependentsOf.mpr hbc)
      · apply dependents.closed b ih c (.inl ((Links.has_detach _ _ _ _).mpr ⟨hb, hbc⟩))
    · apply dependents.closed b ih c (.inr hbc)

/-- What a dependent of a component carries off is disposed of before that component. -/
theorem drags_first {lost : List Name} (h : Course [n] r r' lost ran) (hd : r.graph.Drags n u)
    (hu : u ∈ r.disposals.names) (hn : n ∈ r.disposals.names) (hne : u ≠ n) :
  [u, n].Sublist (ran.map Prod.fst)
  := by
  cases h with
  | @cons _ _ above within rest _ r₁ r₂ _ ran₁ ran₂ ran₃ dependents contents others =>
    have first : u ∈ ran₁.map Prod.fst := by
      apply dependents.mem_names_ran_iff.mpr
      use dependents.mem_of_drags hd
      apply mem_names_withdraw.mpr ⟨hne, hu⟩
    have second : n ∈ (r.due n).map Prod.fst := by
      obtain ⟨d, hd⟩ := Catalog.mem_names_iff.mp hn
      apply List.mem_map.mpr
      use (n, d), mem_due_iff.mpr ⟨rfl, hd⟩
    rw [List.map_append, List.map_append]
    apply List.Sublist.append (List.singleton_sublist.mpr first)
    apply List.singleton_sublist.mpr (List.mem_append_left _ second)

end Course

end Registry

/-! ### Demands -/

namespace Machine

variable {φ δ μ α : Type} {host : Host φ δ μ} {m m' : Machine φ δ μ α} {w w' : World φ δ μ}
  {o o' : Except Panic α} {ran ran' : List (Name × δ)}

/-- When a run has ended, no disposal begins. -/
theorem Runs.of_halted (h : Runs host (.halted o w) ran m) :
  ran = []
  := by
  generalize hm : halted o w = m' at h
  induction h with
  | refl => rfl
  | silent _ _ ih =>
    subst hm
    apply ih rfl
  | begins => cases hm

/-- The disposals that begin in a run do not depend on chance. -/
theorem Runs.unique (h : Runs host m ran (.halted o w)) (h' : Runs host m ran' (.halted o' w')) :
  ran = ran'
  := by
  generalize hm' : halted o w = m' at h
  induction h generalizing ran' with
  | refl =>
    subst hm'
    rw [h'.of_halted]
  | silent hm h ih =>
    cases h' with
    | refl => apply h.of_halted
    | silent _ h' => apply ih h' hm'
    | begins => exact absurd trivial hm
  | begins h ih =>
    cases h' with
    | silent hm => exact absurd trivial hm
    | begins h' => rw [ih h' hm']

end Machine

variable {φ δ μ β : Type} {host : Host φ δ μ}

namespace Demand

/-- The disposals in `ran` begin in this order when the demand is met. -/
def Disposes (host : Host φ δ μ) (d : Demand) (w : World φ δ μ) (ran : List (Name × δ)) : Prop :=
  ∃ w', d.Leaves host w ran w'

/-- The disposals that begin, and their order, are determined by the demand. -/
theorem Disposes.unique {d : Demand} {w : World φ δ μ} {ran ran' : List (Name × δ)}
    (h : d.Disposes host w ran) (h' : d.Disposes host w ran') :
  ran = ran'
  := by
  have ends : ∀ {ran}, d.Disposes host w ran →
      ∃ w', Runs host (start (d.client fun _ => .done ()) w) ran (.halted (.ok ()) w') := by
    rintro ran ⟨w', run⟩
    use w'
    rw [← List.append_nil ran]
    apply (run (ρ := .main) (fun _ => .done ()) .base).trans
    apply Runs.silent id
    apply Runs.refl
  obtain ⟨_, run⟩ := ends h
  obtain ⟨_, run'⟩ := ends h'
  apply run.unique run'

/-- A demand comes to its end if disposals keep to themselves and observers are calm. -/
theorem exists_disposes (calm : host.Calm) (d : Demand) (w : World φ δ μ)
    (undisputed : w.registry.Undisputed host) :
  ∃ r' lost ran, d.Disposes host w ran ∧
    Registry.Course (d.roots w.registry) (d.opening w.registry) r' lost ran
  := by
  obtain ⟨r', m, lost, ran, leaves, course⟩ := d.exists_leaves calm w undisputed
  use r', lost, ran, ⟨_, leaves⟩

theorem graph_opening (r : Registry φ δ) (d : Demand) :
  (d.opening r).graph = r.graph
  := by
  cases d <;> rfl

/-- If everything is to be destroyed, every disposal that is due begins. -/
theorem Disposes.mem_of_everything (calm : host.Calm) {w : World φ δ μ}
    (undisputed : w.registry.Undisputed host) {ran : List (Name × δ)}
    (h : everything.Disposes host w ran) :
  ∀ n ∈ w.registry.disposals.names, n ∈ ran.map Prod.fst
  := by
  intro n hn
  obtain ⟨r', lost, ran', h', course⟩ := everything.exists_disposes calm w undisputed
  obtain rfl := h.unique h'
  apply course.mem_names_ran_iff.mpr
  use course.subset n (List.mem_reverse.mpr hn), hn

end Demand

/-! ### Dependents first -/

namespace Graph

/-- No component depends on itself, directly or by way of others. -/
def Acyclic (g : Graph) : Prop := ∀ n, ¬ g.dependents.Path n n

/-- In the list, a name comes after all those that depend on it, directly or by way of others. -/
def DependentsFirst (g : Graph) (l : List Name) : Prop :=
  ∀ u v, g.dependents.Path u v → u ∈ l → v ∈ l → [v, u].Sublist l

variable {g : Graph} {u v : Name} {l : List Name}

/-- If nothing contains anything, a component carries off only what depends on it. -/
theorem Drags.path (h : g.Drags v u) (bare : ∀ a b, g.contained.has a b = false) :
  g.dependents.Path v u
  := by
  obtain ⟨x, hx, p⟩ := h
  induction p using ReflTransGen.head_induction_on generalizing v with
  | refl => apply Links.Path.single hx
  | head h _ ih =>
    rcases h with h | h
    · apply Links.Path.cons hx (ih h)
    · rw [bare] at h
      cases h

theorem transGen_outlives (h : ∀ u v, g.dependents.has u v = true → ¬ g.Drags v u)
    (p : g.dependents.Path u v) :
  TransGen g.Outlives u v
  := by
  induction p with
  | single hab => apply TransGen.single ⟨hab, h _ _ hab⟩
  | cons hab _ ih => apply TransGen.head ⟨hab, h _ _ hab⟩ ih

/-- If no component is carried off by a dependent of one of its dependents, those that outlive a
component are those that depend on it. -/
theorem Orders.dependentsFirst (ordered : g.Orders l)
    (h : ∀ u v, g.dependents.has u v = true → ¬ g.Drags v u) :
  g.DependentsFirst l
  := by
  intro u v p
  apply ordered u v (transGen_outlives h p)

/-- Dependents along which a rank grows form no cycle. -/
theorem acyclic_of_rank (rank : Name → Nat) (h : ∀ e ∈ g.dependents.pairs, rank e.1 < rank e.2) :
  g.Acyclic
  := by
  have rises : ∀ a b, g.dependents.Path a b → rank a < rank b := by
    intro a b p
    induction p with
    | single hab => apply h _ (Links.mem_pairs.mpr hab)
    | cons hab _ ih => apply Nat.lt_trans (h _ (Links.mem_pairs.mpr hab)) ih
  intro n p
  apply Nat.lt_irrefl _ (rises n n p)

end Graph

/-- If nothing contains anything, dependents are disposed of first.  A component is disposed of
before another one on which it depends directly, unless that one depends on it as well; if no
component depends on itself, it is disposed of before all those on which it depends, directly or by
way of others. -/
theorem dependents_disposed_first (calm : host.Calm) (w : World φ δ μ)
    (undisputed : w.registry.Undisputed host)
    (bare : ∀ a b, w.registry.graph.contained.has a b = false) (d : Demand) :
  ∃ ran, d.Disposes host w ran ∧ (ran.map Prod.fst).Nodup ∧
    (∀ u v, w.registry.graph.dependents.has u v = true →
      ¬ w.registry.graph.dependents.Path v u →
      u ∈ ran.map Prod.fst → v ∈ ran.map Prod.fst → [v, u].Sublist (ran.map Prod.fst)) ∧
    (w.registry.graph.Acyclic → w.registry.graph.DependentsFirst (ran.map Prod.fst))
  := by
  obtain ⟨r', lost, ran, disposes, course⟩ := d.exists_disposes calm w undisputed
  have ordered := course.orders
  rw [d.graph_opening] at ordered
  refine ⟨ran, disposes, course.nodup_ran, ?_, ?_⟩
  · intro u v huv hvu
    apply ordered u v
    apply TransGen.single ⟨huv, fun hd => hvu (hd.path bare)⟩
  · intro acyclic
    apply ordered.dependentsFirst
    intro u v huv hd
    apply acyclic u (.cons huv (hd.path bare))

/-- Components of which the second one depends on the first one and the third one on the second one,
which has no disposal. -/
def Registry.chain : Registry Unit (Except Panic (Except String Unit)) :=
  { (fresh default : Registry Unit (Except Panic (Except String Unit))) with
    graph := (Graph.empty.depend "a" "b").depend "b" "c"
    disposals := .ofList [("c", .error .other), ("a", .ok (.ok ()))] }

/-- The third component of a chain is disposed of before the first one. -/
theorem dependents_disposed_first_chain :
  ∃ ran, Demand.everything.Disposes .plain ⟨Registry.chain, ()⟩ ran ∧
    ["c", "a"].Sublist (ran.map Prod.fst)
  := by
  have bare : ∀ a b, Registry.chain.graph.contained.has a b = false := by
    intro a b
    rw [← Bool.not_eq_true, ← Links.mem_pairs]
    apply List.not_mem_nil
  obtain ⟨ran, disposes, -, -, ordered⟩ := dependents_disposed_first Host.calm_plain
    ⟨Registry.chain, ()⟩ (Registry.undisputed_plain _) bare .everything
  have runs := disposes.mem_of_everything Host.calm_plain (Registry.undisputed_plain _)
  use ran, disposes
  apply ordered
  · apply Graph.acyclic_of_rank fun n => if n = "a" then 0 else if n = "b" then 1 else 2
    decide
  · apply Links.Path.cons (b := "b")
    · decide
    · apply Links.Path.single
      decide
  · apply runs
    decide
  · apply runs
    decide

/-! ### Contents -/

/-- If a dependent of a component carries off another one on which the component depends, the
destruction of the component disposes of that one first. -/
theorem Demand.exists_dragged_first (calm : host.Calm) (w : World φ δ μ)
    (undisputed : w.registry.Undisputed host) {u v : Name} (hd : w.registry.graph.Drags v u)
    (hu : u ∈ w.registry.disposals.names) (hv : v ∈ w.registry.disposals.names) (hne : u ≠ v) :
  ∃ ran, (one v).Disposes host w ran ∧ (ran.map Prod.fst).Nodup ∧
    [u, v].Sublist (ran.map Prod.fst)
  := by
  obtain ⟨r', lost, ran, disposes, course⟩ := (one v).exists_disposes calm w undisputed
  use ran, disposes, course.nodup_ran
  apply Registry.Course.drags_first course hd hu hv hne

/-- A registry with a graph, in which the same disposal is due for each of two components. -/
def Registry.pair (g : Graph) (d : δ) (u v : Name) : Registry φ δ :=
  { (fresh default : Registry φ δ) with
    graph := g
    disposals := (Catalog.empty.insert u d).insert v d }

theorem Registry.get?_pair {g : Graph} {d : δ} {u v n : Name} :
  (pair g d u v : Registry φ δ).disposals.get? n = if n = u ∨ n = v then some d else none
  := by
  rw [pair, Catalog.get?_insert, Catalog.get?_insert]
  by_cases hu : n = u <;> by_cases hv : n = v <;> simp [hu, hv]
  rfl

theorem Registry.mem_names_pair {g : Graph} {d : δ} {u v n : Name} (h : n = u ∨ n = v) :
  n ∈ (pair g d u v : Registry φ δ).disposals.names
  := by
  apply Catalog.mem_names_iff.mpr
  use d
  rw [get?_pair, if_pos h]

theorem Registry.undisputed_pair {g : Graph} {d : δ} {u v : Name}
    (h : (host.dispose d).Aloof host) :
  (pair g d u v : Registry φ δ).Undisputed host
  := by
  intro n t ht
  rw [get?_pair] at ht
  split at ht
  · obtain rfl := Option.some.inj ht
    apply h
  · cases ht

/-- Let no component depend on itself.  Whatever disposals are due and whatever is to be destroyed,
dependents are disposed of first: this holds exactly if no component is carried off, by way of
dependents and contents, by something that depends on one of its dependents. -/
theorem dependents_first_iff [Inhabited μ] (calm : host.Calm) {d : δ}
    (aloof : (host.dispose d).Aloof host) {g : Graph} (acyclic : g.Acyclic) :
  (∀ (w : World φ δ μ) (demand : Demand), w.registry.graph = g → w.registry.Undisputed host →
    ∃ ran, demand.Disposes host w ran ∧ (ran.map Prod.fst).Nodup ∧
      g.DependentsFirst (ran.map Prod.fst)) ↔
  ∀ u v, g.dependents.has u v = true → ¬ g.Drags v u
  := by
  constructor
  -- a registry in which only the two disposals are due shows that a dragged component is too early
  · intro first u v huv hd
    have hne : u ≠ v := by
      rintro rfl
      apply acyclic u (.single huv)
    let w : World φ δ μ := ⟨.pair g d u v, default⟩
    have undisputed : w.registry.Undisputed host := Registry.undisputed_pair aloof
    obtain ⟨ran, disposes, nodup, early⟩ := Demand.exists_dragged_first calm w undisputed hd
      (Registry.mem_names_pair (.inl rfl)) (Registry.mem_names_pair (.inr rfl)) hne
    obtain ⟨ran', disposes', -, ordered⟩ := first w (.one v) rfl undisputed
    obtain rfl := disposes.unique disposes'
    apply not_sublist_of_sublist nodup early
    apply ordered u v (.single huv)
    · apply early.subset
      simp
    · apply early.subset
      simp
  · rintro safe w demand rfl undisputed
    obtain ⟨r', lost, ran, disposes, course⟩ := demand.exists_disposes calm w undisputed
    have ordered := course.orders
    rw [demand.graph_opening] at ordered
    use ran, disposes, course.nodup_ran, ordered.dependentsFirst safe

/-- A component that is contained in a second one and used by a third one. -/
def Graph.shared : Graph := (Graph.empty.contain "inner" "outer").depend "inner" "user"

/-- A component that is contained in one and used by another is disposed of after both. -/
theorem dependents_first_iff_shared :
  Graph.shared.Acyclic ∧
    ∀ n ∈ ["outer", "user"], ∃ ran,
      Demand.everything.Disposes .plain ⟨.pair .shared (.ok (.ok ())) n "inner", ()⟩ ran ∧
      [n, "inner"].Sublist (ran.map Prod.fst)
  := by
  have acyclic : Graph.shared.Acyclic := by
    apply Graph.acyclic_of_rank fun n => if n = "inner" then 0 else 1
    decide
  have ends : ∀ e ∈ Graph.shared.dependents.pairs, ∀ e' ∈ Graph.shared.dependents.pairs,
      e'.1 ≠ e.2 := by decide
  have safe : ∀ u v, Graph.shared.dependents.has u v = true → ¬ Graph.shared.Drags v u := by
    rintro u v huv ⟨x, hx, -⟩
    apply ends (u, v) (Links.mem_pairs.mpr huv) (v, x) (Links.mem_pairs.mpr hx) rfl
  have aloof : (Host.plain.dispose (.ok (.ok ()))).Aloof .plain := .done _
  have uses : ∀ n ∈ ["outer", "user"], Graph.shared.dependents.has "inner" n = true := by decide
  use acyclic
  intro n hn
  obtain ⟨ran, disposes, -, ordered⟩ := (dependents_first_iff Host.calm_plain aloof
    acyclic).mpr safe
    ⟨.pair .shared (.ok (.ok ())) n "inner", ()⟩ .everything rfl (Registry.undisputed_plain _)
  have runs := disposes.mem_of_everything Host.calm_plain (Registry.undisputed_plain _)
  use ran, disposes
  apply ordered "inner" n
  · apply Links.Path.single (uses n hn)
  · apply runs _ (Registry.mem_names_pair (.inr rfl))
  · apply runs _ (Registry.mem_names_pair (.inl rfl))

/-- A component that is contained in a second one, which is contained in a third one. -/
def Registry.nested : Registry Unit (Except Panic (Except String Unit)) :=
  { (fresh default : Registry Unit (Except Panic (Except String Unit))) with
    graph := (Graph.empty.contain "inner" "middle").contain "middle" "outer"
    disposals := .ofList [("inner", .ok (.ok ())), ("middle", .ok (.ok ())),
      ("outer", .ok (.ok ()))] }

/-- Dependents are not always disposed of first, although no component depends on itself: the
second of three nested components is carried off by the third one, and takes the first one with it
before its own disposal runs. -/
theorem not_dependents_first_nested :
  Registry.nested.graph.Acyclic ∧ Registry.nested.graph.dependents.has "inner" "middle" = true ∧
    ∃ ran, (Demand.one "middle").Disposes .plain ⟨Registry.nested, ()⟩ ran ∧
      ["inner", "middle"].Sublist (ran.map Prod.fst) ∧
      ¬ Registry.nested.graph.DependentsFirst (ran.map Prod.fst)
  := by
  have acyclic : Registry.nested.graph.Acyclic := by
    apply Graph.acyclic_of_rank fun n => if n = "inner" then 0 else if n = "middle" then 1 else 2
    decide
  have inside : Registry.nested.graph.dependents.has "inner" "middle" = true := by decide
  have dragged : Registry.nested.graph.Drags "middle" "inner" := by
    use "outer"
    constructor
    · decide
    · apply (ReflTransGen.single (b := "middle") _).tail
      · right
        decide
      · right
        decide
  obtain ⟨ran, disposes, nodup, early⟩ := Demand.exists_dragged_first Host.calm_plain
    ⟨Registry.nested, ()⟩ (Registry.undisputed_plain _) dragged (by decide) (by decide)
    (by decide)
  use acyclic, inside, ran, disposes, early
  intro first
  apply not_sublist_of_sublist nodup early
  apply first "inner" "middle" (.single inside)
  · apply early.subset
    simp
  · apply early.subset
    simp

end Componentry
