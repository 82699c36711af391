import Componentry.Proofs.Destruction

/-!
# What a destruction touches

The disposals that are due may return, fail or panic, and work on the memory.  As long as they keep
aloof from the registry, and no one who hears of them panics, every destruction ends, whatever links
there are, and what it leaves is known exactly: the registry without the names that can be reached
from those that were to be destroyed.
-/

namespace Componentry

open Machine Relation

variable {φ δ μ α β : Type} {host : Host φ δ μ}

/-- A client that keeps aloof from the registry: it may look at the registry, but makes no request,
and what it protects keeps aloof as well. -/
inductive Client.Aloof (host : Host φ δ μ) : {β : Type} → Client φ δ μ β → Prop
  | done {β : Type} (b : β) : Aloof host (.done b)
  | panic {β : Type} (p : Panic) : Aloof host (.panic p : Client φ δ μ β)
  | view {β : Type} {next : Registry φ δ → μ → Client φ δ μ β} (h : ∀ r m, Aloof host (next r m)) :
      Aloof host (.view next)
  | revise {β : Type} {f : μ → μ} {next : Client φ δ μ β} (h : Aloof host next) :
      Aloof host (.revise f next)
  | protect {β : Type} {body : δ} {next : Except Panic (Except String Unit) → Client φ δ μ β}
      (hb : Aloof host (host.dispose body)) (h : ∀ a, Aloof host (next a)) :
      Aloof host (.protect body next)

/-- Every disposal that is due keeps aloof from the registry. -/
abbrev Registry.Undisputed (host : Host φ δ μ) (r : Registry φ δ) : Prop :=
  r.Fits fun _ d => (host.dispose d).Aloof host

/-! ### Disposals that keep aloof -/

namespace Machine

variable {ρ : Role}

/-- The moment at which a client has ended, with a value or with a panic. -/
def ended (outcome : Except Panic β) (next : β → Client φ δ μ (ρ.Result α))
    (stack : Stack φ δ μ α ρ) (w : World φ δ μ) : Machine φ δ μ α :=
  match outcome with
  | .ok b => .running (next b) stack w
  | .error p => .unwinding p stack w

/-- What came of a protected client is handed to the one that protected it. -/
theorem Runs.of_protecting {outcome : Except Panic (Except String Unit)}
    {resume : Except Panic (Except String Unit) → Client φ δ μ (ρ.Result α)}
    {stack : Stack φ δ μ α ρ} {w : World φ δ μ} {ran : List (Name × δ)} {m : Machine φ δ μ α}
    (h : Runs host (.running (resume outcome) stack w) ran m) :
  Runs host (ended (ρ := .disposer) outcome .done (.protecting resume stack) w) ran m
  := by
  cases outcome with
  | ok _ => apply Runs.silent id h
  | error _ => apply Runs.silent id h

/-- The notice that goes out after a disposal. -/
def noticeOf (n : Name) : Except Panic (Except String Unit) → Notice
  | .ok (.ok ()) => .destroyed n
  | .ok (.error text) => .disposalFailed n (.failed text)
  | .error p => .disposalFailed n (.panicked p.reason)

/-- After a disposal the destruction goes on. -/
theorem Runs.of_disposing {n : Name} {outcome : Except Panic (Except String Unit)}
    {tasks : List (Task δ)} {resume : Unit → Client φ δ μ (ρ.Result α)} {stack : Stack φ δ μ α ρ}
    {w : World φ δ μ} {ran : List (Name × δ)} {m : Machine φ δ μ α}
    (h : Runs host (finishDisposal host (noticeOf n outcome) tasks resume stack w) ran m) :
  Runs host (ended (ρ := .disposer) outcome .done (.disposing n tasks resume stack) w) ran m
  := by
  rcases outcome with p | text | u
  · apply Runs.silent id h
  · apply Runs.silent id h
  · apply Runs.silent id h

end Machine

namespace Client

/-- A client, begun in `w`, ends with a value or with a panic, and has changed nothing but the
memory, which it leaves as `m`. -/
def Settles (host : Host φ δ μ) (c : Client φ δ μ β) (w : World φ δ μ)
    (outcome : Except Panic β) (m : μ) : Prop :=
  ∀ ⦃α : Type⦄ ⦃ρ : Role⦄ (next : β → Client φ δ μ (ρ.Result α)) (stack : Stack φ δ μ α ρ),
    Runs host (.running (c.andThen next) stack w) []
      (ended outcome next stack { w with memory := m })

/-- A client that settles on top of a frame comes to its end there. -/
theorem Settles.toFrame {ρ : Role} {c : Client φ δ μ (ρ.Result α)} {w : World φ δ μ}
    {outcome : Except Panic (ρ.Result α)} {m : μ} (h : c.Settles host w outcome m)
    (stack : Stack φ δ μ α ρ) :
  Runs host (.running c stack w) [] (ended outcome .done stack { w with memory := m })
  := by
  have h := h done stack
  rw [andThen_done] at h
  apply h

/-- A client that keeps aloof settles. -/
theorem Aloof.settles {c : Client φ δ μ β} (h : c.Aloof host) (w : World φ δ μ) :
  ∃ outcome m, c.Settles host w outcome m
  := by
  induction h generalizing w with
  | done b =>
    use .ok b, w.memory
    intro _ _ next stack
    apply Runs.refl
  | panic p =>
    use .error p, w.memory
    intro _ _ next stack
    apply Runs.silent id
    apply Runs.refl
  | view _ ih =>
    obtain ⟨outcome, m, h⟩ := ih w.registry w.memory w
    use outcome, m
    intro _ _ next stack
    apply Runs.silent id
    apply h
  | @revise _ f _ _ ih =>
    obtain ⟨outcome, m, h⟩ := ih { w with memory := f w.memory }
    use outcome, m
    intro _ _ next stack
    apply Runs.silent id
    apply h
  | @protect _ body after _ _ ihb ih =>
    obtain ⟨inner, m, hb⟩ := ihb w
    obtain ⟨outcome, m', h⟩ := ih inner { w with memory := m }
    use outcome, m'
    intro _ _ next stack
    apply Runs.silent id
    apply Runs.trans
      (hb.toFrame (ρ := .disposer) (.protecting (fun a => (after a).andThen next) stack))
    apply Runs.of_protecting
    apply h

end Client

/-- A disposal that keeps aloof ends in any case, and the destruction goes on. -/
theorem Machine.tears_dispose (calm : host.Calm) {n : Name} {d : δ}
    (h : (host.dispose d).Aloof host) (w : World φ δ μ) :
  ∃ m, Tears host [.dispose n d] [(n, d)] w { w with memory := m }
  := by
  obtain ⟨outcome, m, h⟩ := h.settles w
  use (host.hear (noticeOf n outcome) m).2
  intro _ _ rest resume stack
  apply Runs.begins
  apply Runs.trans (h.toFrame (ρ := .disposer) (.disposing n rest resume stack))
  apply Runs.of_disposing
  rw [finishDisposal, announcing_calm calm]
  apply Runs.refl

/-- Components can be destroyed if no disposal meddles with the registry. -/
theorem exists_demolition (calm : host.Calm) (names : List Name) (w : World φ δ μ)
    (undisputed : w.registry.Undisputed host) :
  ∃ w' lost ran, Demolition host (fun _ _ _ => True) names w w' lost ran
  := by
  apply demolish _ names w undisputed
  intro n d h w
  obtain ⟨m, h⟩ := tears_dispose calm h w
  use m, trivial

/-! ### Demands -/

/-- What is to be destroyed. -/
inductive Demand where
  /-- A component. -/
  | one (n : Name)
  /-- Everything. -/
  | everything

namespace Demand

/-- Asks for the destruction. -/
def client (next : Unit → Client φ δ μ β) : Demand → Client φ δ μ β
  | one n => .destroy n next
  | everything => .destroyAll next

/-- When the demand is met, which it is in any case, whatever waits for it, the disposals in `ran`
begin in this order, and `w'` is left. -/
def Leaves (host : Host φ δ μ) (d : Demand) (w : World φ δ μ) (ran : List (Name × δ))
    (w' : World φ δ μ) : Prop :=
  ∀ ⦃α : Type⦄ ⦃ρ : Role⦄ (next : Unit → Client φ δ μ (ρ.Result α)) (stack : Stack φ δ μ α ρ),
    Runs host (.running (d.client next) stack w) ran (.running (next ()) stack w')

/-- The components with which the destruction begins. -/
def roots (r : Registry φ δ) : Demand → List Name
  | one n => [n]
  | everything => r.disposals.names.reverse

/-- The registry in which the destruction begins. -/
def opening (r : Registry φ δ) : Demand → Registry φ δ
  | one _ => r
  | everything => r.beginDestruction

/-- The registry after the destruction. -/
def closing (r : Registry φ δ) : Demand → Registry φ δ
  | one _ => r
  | everything => r.clear

/-- Every demand is met, by a destruction that takes its course. -/
theorem exists_leaves (calm : host.Calm) (d : Demand) (w : World φ δ μ)
    (undisputed : w.registry.Undisputed host) :
  ∃ r' m lost ran, d.Leaves host w ran ⟨d.closing r', m⟩ ∧
    Registry.Course (d.roots w.registry) (d.opening w.registry) r' lost ran
  := by
  cases d with
  | one n =>
    obtain ⟨w', lost, ran, h⟩ := exists_demolition calm [n] w undisputed
    use w'.registry, w'.memory, lost, ran
    use fun _ _ next stack => h.tears.runs_destroy next stack, h.course
  | everything =>
    obtain ⟨w', lost, ran, h⟩ := exists_demolition calm w.registry.disposals.names.reverse
      (w.onRegistry (·.beginDestruction)) undisputed
    have tears := h.tears.append (tears_clear w')
    rw [List.append_nil] at tears
    use w'.registry, w'.memory, lost, ran
    use fun _ _ next stack => tears.runs_destroyAll next stack, h.course

end Demand

/-! ### What is left -/

/-- A graph without the links that have an end in a list of names. -/
def Graph.without (g : Graph) (struck : List Name) : Graph :=
  ⟨g.dependents.without struck, g.dependencies.without struck, g.contained.without struck⟩

namespace Registry

variable {r r' : Registry φ δ} {n : Name}

/-- A registry without the names of a list: they are struck from its tiers, from the disposals that
are due, and from the graph. -/
def without (r : Registry φ δ) (struck : List Name) : Registry φ δ :=
  { r with
    finished := r.finished.without struck
    producers := r.producers.without struck
    early := r.early.without struck
    graph := r.graph.without struck
    disposals := r.disposals.without struck }

/-- A registry without anything in it but what belongs to the creations under way. -/
def emptied (r : Registry φ δ) : Registry φ δ :=
  { r with
    finished := ∅
    producers := ∅
    early := ∅
    graph := ∅
    disposals := ∅
    inDestruction := false }

/-- A registry from which some names were struck is the registry without these names, once a
component was forgotten, which leaves no empty rows. -/
theorem Struck.forget_eq {D : List Name} (h : r.Struck D (r'.forget n)) :
  r'.forget n = r.without D
  := by
  have graph : (r'.forget n).graph = r.graph.without D := by
    apply Graph.mk.injEq _ _ _ _ _ _ |>.mpr
    use h.dependents.forget_eq, h.dependencies.forget_eq, h.contained.forget_eq
  apply Registry.mk.injEq _ _ _ _ _ _ _ _ _ _ _ _ _ _ _ _ |>.mpr
  use h.finished, h.producers, h.early, h.guard, h.suppressed, h.inDestruction, graph, h.disposals

/-- The destruction of one component leaves the registry without the names that are struck. -/
theorem Course.eq_without {lost : List Name} {ran : List (Name × δ)}
    (h : Course [n] r r' lost ran) :
  r' = r.without lost
  := by
  have hs := h.struck
  cases h with
  | cons _ _ others =>
    cases others with
    | nil => apply hs.forget_eq

end Registry

/-- Nothing is left of a catalog without all of its names. -/
theorem Catalog.without_eq_empty {c : Catalog β} {D : List Name} (h : ∀ n ∈ c.names, n ∈ D) :
  c.without D = ∅
  := by
  apply ext_entries
  apply List.filter_eq_nil_iff.mpr
  intro e he
  simpa using h e.1 (List.mem_map_of_mem he)

namespace Registry

variable {r r' : Registry φ δ} {lost : List Name} {ran : List (Name × δ)}

/-- The destruction of everything leaves an empty registry. -/
theorem Course.clear_eq_emptied
    (h : Course r.disposals.names.reverse r.beginDestruction r' lost ran) :
  r'.clear = r.emptied
  := by
  have disposals : r'.disposals = ∅ := by
    rw [h.struck.disposals]
    apply Catalog.without_eq_empty
    intro n hn
    apply h.subset n (List.mem_reverse.mpr hn)
  apply Registry.mk.injEq _ _ _ _ _ _ _ _ _ _ _ _ _ _ _ _ |>.mpr
  use rfl, rfl, rfl, h.struck.guard, h.struck.suppressed, rfl, rfl, disposals

/-- The destruction of everything runs every disposal that is due. -/
theorem Course.ran_perm_disposals
    (h : Course r.disposals.names.reverse r.beginDestruction r' lost ran) :
  ran.Perm r.disposals.entries
  := by
  have all : (r.disposals.entries.filter fun e => e.1 ∈ lost) = r.disposals.entries := by
    apply List.filter_eq_self.mpr
    intro e he
    apply decide_eq_true
    apply h.subset e.1 (List.mem_reverse.mpr (List.mem_map_of_mem he))
  rw [← all]
  apply h.ran_perm

end Registry

/-- A destruction ends, and what it touches is known.  If one component is to be destroyed, let `V`
be the names that can be reached from it by way of dependents and of contents: the registry is left
without these names, and the disposals that were due for them have run, each of them once.  If
everything is to be destroyed, the registry is left empty, and all disposals that were due have
run, each of them once. -/
theorem destruction_footprint (calm : host.Calm) (w : World φ δ μ)
    (undisputed : w.registry.Undisputed host) :
  (∀ root, ∃ V ran m, (∀ a, a ∈ V ↔ ReflTransGen w.registry.graph.Pulls root a) ∧
    (Demand.one root).Leaves host w ran ⟨w.registry.without V, m⟩ ∧
    ran.Perm (w.registry.disposals.entries.filter fun e => e.1 ∈ V)) ∧
  ∃ ran m, Demand.everything.Leaves host w ran ⟨w.registry.emptied, m⟩ ∧
    ran.Perm w.registry.disposals.entries
  := by
  constructor
  · intro root
    obtain ⟨r', m, V, ran, leaves, course⟩ :=
      (Demand.one root).exists_leaves calm w undisputed
    use V, ran, m
    refine ⟨?_, ?_, course.ran_perm⟩
    · intro a
      apply course.mem_lost_iff.trans
      simp [Demand.roots, Demand.opening]
    · have left : r' = w.registry.without V := course.eq_without
      rw [← left]
      apply leaves
  · obtain ⟨r', m, V, ran, leaves, course⟩ :=
      Demand.everything.exists_leaves calm w undisputed
    use ran, m
    refine ⟨?_, course.ran_perm_disposals⟩
    rw [← course.clear_eq_emptied]
    apply leaves

/-- A host whose disposals are given by what comes of them. -/
def Host.plain : Host Unit (Except Panic (Except String Unit)) Unit where
  make _ := .done (.ok default)
  dispose
    | .ok outcome => .done outcome
    | .error p => .panic p
  hear _ m := (none, m)

/-- No one who hears a notice of the plain host panics. -/
theorem Host.calm_plain :
  plain.Calm
  := by
  intro _ _
  rfl

/-- The disposals of the plain host keep aloof from every registry. -/
theorem Registry.undisputed_plain (r : Registry Unit (Except Panic (Except String Unit))) :
  r.Undisputed .plain
  := by
  rintro _ (p | outcome) _
  · apply Client.Aloof.panic
  · apply Client.Aloof.done

/-- Two components that depend on each other, of which one contains a third and the other one
depends on a fourth.  The disposals of the two fail. -/
def Registry.ring : Registry Unit (Except Panic (Except String Unit)) :=
  { (fresh default : Registry Unit (Except Panic (Except String Unit))) with
    finished := .ofList [("a", ⟨0⟩), ("d", ⟨1⟩), ("c", ⟨2⟩)]
    graph := (((Graph.empty.depend "a" "b").depend "b" "a").contain "c" "b").depend "d" "a"
    disposals := .ofList [("d", .ok (.ok ())), ("a", .error .other), ("c", .ok (.ok ())),
      ("b", .ok (.error "worn out"))] }

/-- Of the ring these components can be reached from the first one. -/
theorem Registry.reflTransGen_ring {n : Name} :
  ReflTransGen ring.graph.Pulls "a" n ↔ n ∈ ["a", "b", "c"]
  := by
  have closed : ∀ e ∈ ring.graph.dependents.pairs ++ ring.graph.contained.pairs,
      e.1 ∈ ["a", "b", "c"] → e.2 ∈ ["a", "b", "c"] := by decide
  have ab : ring.graph.Pulls "a" "b" := .inl (by decide)
  have bc : ring.graph.Pulls "b" "c" := .inr (by decide)
  constructor
  · intro p
    induction p with
    | refl => decide
    | @tail u v _ h ih =>
      apply closed (u, v) _ ih
      apply List.mem_append.mpr
      apply h.imp Links.mem_pairs.mpr Links.mem_pairs.mpr
  · intro hn
    simp only [List.mem_cons, List.not_mem_nil, or_false] at hn
    rcases hn with rfl | rfl | rfl
    · apply ReflTransGen.refl
    · apply ReflTransGen.single ab
    · apply (ReflTransGen.single ab).tail bc

/-- The two components of a ring are destroyed with the one that they contain, and the fourth one is
left. -/
theorem destruction_footprint_ring :
  ∃ V ran, (∀ n, n ∈ V ↔ n ∈ ["a", "b", "c"]) ∧
    (Demand.one "a").Leaves .plain ⟨Registry.ring, ()⟩ ran ⟨Registry.ring.without V, ()⟩ ∧
    (Registry.ring.without V).finished.entries = [("d", ⟨1⟩)] ∧
    ran.Perm [("a", .error .other), ("c", .ok (.ok ())), ("b", .ok (.error "worn out"))]
  := by
  obtain ⟨V, ran, _, hV, leaves, perm⟩ := (destruction_footprint Host.calm_plain
    ⟨Registry.ring, ()⟩ (Registry.undisputed_plain _)).1 "a"
  have hV : ∀ n, n ∈ V ↔ n ∈ ["a", "b", "c"] :=
    fun n => (hV n).trans Registry.reflTransGen_ring
  use V, ran, hV, leaves
  constructor
  · simp only [Registry.without, Catalog.without, hV]
    decide
  · simp only [hV] at perm
    apply perm

end Componentry
