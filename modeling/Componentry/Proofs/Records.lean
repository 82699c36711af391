import Componentry.Proofs.Mirror
import Componentry.Proofs.Paths
import Componentry.Scenario.Graphing
import Mathlib.Data.List.Induction

/-!
# Dependencies on record

What a graph shows is what was recorded and not struck since.  `Recorded` says so of a history of
steps, without regard to how a graph files its links.  The main result, `isDependent_iff_recorded`,
says that one component is found to depend on another one exactly if dependencies on record lead
from one to the other, directly or by way of others, whether or not they lead round in circles.
-/

namespace Componentry

open Relation Scenario

namespace Scenario

/-! ### Histories -/

/-- The step records that the second component depends on the first one.  What contains a component
depends on it. -/
inductive GraphStep.Records : GraphStep → Name → Name → Prop
  | depend (dependee dependent : Name) : Records (.depend dependee dependent) dependee dependent
  | contain (inner outer : Name) : Records (.contain inner outer) inner outer

/-- The step strikes whatever is recorded of the component. -/
inductive GraphStep.Strikes : GraphStep → Name → Prop
  | forget (n : Name) : Strikes (.forget n) n
  | clear (n : Name) : Strikes .clear n

/-- It was recorded that `b` depends on `a`, and since then neither of them was struck. -/
def Recorded (steps : List GraphStep) (a b : Name) : Prop :=
  ∃ before step after, steps = before ++ step :: after ∧ step.Records a b ∧
    ∀ s ∈ after, ¬ s.Strikes a ∧ ¬ s.Strikes b

variable {steps : List GraphStep} {step : GraphStep} {a b : Name}

/-- What is on record after one more step was recorded by it, or was on record and is not struck by
it. -/
theorem recorded_concat :
  Recorded (steps ++ [step]) a b
    ↔ step.Records a b ∨ (Recorded steps a b ∧ ¬ step.Strikes a ∧ ¬ step.Strikes b)
  := by
  constructor
  · rintro ⟨before, first, after, split, records, spared⟩
    obtain rfl | ⟨after, last, rfl⟩ := after.eq_nil_or_concat'
    · obtain ⟨-, last⟩ := List.append_inj' split rfl
      obtain rfl := List.singleton_inj.mp last
      exact .inl records
    · rw [← List.cons_append, ← List.append_assoc] at split
      obtain ⟨rfl, last⟩ := List.append_inj' split rfl
      obtain rfl := List.singleton_inj.mp last
      right
      constructor
      · use before, first, after, rfl, records
        intro s hs
        apply spared s (List.mem_append_left _ hs)
      · apply spared step (List.mem_append_right _ (List.mem_singleton_self step))
  · rintro (records | ⟨⟨before, first, after, rfl, records, spared⟩, sparing⟩)
    · use steps, step, [], rfl, records
      exact nofun
    · use before, first, after ++ [step], List.append_assoc before _ _, records
      intro s hs
      obtain hs | hs := List.mem_append.mp hs
      · exact spared s hs
      · rw [List.mem_singleton.mp hs]
        exact sparing

/-! ### Graphs -/

/-- The graph after one step more is the one that this step leaves. -/
theorem playGraph_concat (g : Graph) (steps : List GraphStep) (step : GraphStep) :
  (playGraph g (steps ++ [step])).2 = (playGraphStep (playGraph g steps).2 step).2
  := by
  induction steps generalizing g with
  | nil => rfl
  | cons first steps ih => exact ih (playGraphStep g first).2

/-- No step undoes that the two directions of a dependency have a counterpart. -/
theorem mirrored_playGraphStep {g : Graph} (h : g.Mirrored fun _ => False) (step : GraphStep) :
  (playGraphStep g step).2.Mirrored fun _ => False
  := by
  cases step with
  | depend dependee dependent => exact h.depend dependee dependent
  | contain inner outer => exact h.contain inner outer
  | forget n => exact (h.forget n).mono fun _ => And.right
  | clear => exact Graph.mirrored_empty _
  | isDependent | hasDependents | dependents | dependencies | contained | isEmpty => exact h

/-- A graph that comes of steps is filed in both directions alike. -/
theorem mirrored_playGraph (steps : List GraphStep) :
  (playGraph ∅ steps).2.Mirrored fun _ => False
  := by
  induction steps using List.reverseRecOn with
  | nil => exact Graph.mirrored_empty _
  | append_singleton steps step ih =>
    rw [playGraph_concat]
    apply mirrored_playGraphStep ih

end Scenario

namespace Graph

variable {g : Graph} {a b : Name}

/-- If what contains a component is filed as a dependent, a containment adds one link between
dependents at most. -/
theorem has_dependents_contain {inner outer : Name}
    (inside : g.contained.has outer inner = true → g.dependents.has inner outer = true) :
  (g.contain inner outer).dependents.has a b = true
    ↔ g.dependents.has a b = true ∨ (a = inner ∧ b = outer)
  := by
  rw [contain]
  split
  · rename_i known
    constructor
    · exact .inl
    · rintro (linked | ⟨rfl, rfl⟩)
      · exact linked
      · exact inside known
  · exact has_dependents_depend (g := { g with contained := g.contained.add outer inner })

end Graph

namespace Scenario

variable {g : Graph} {a b : Name}

/-- A step links two components, or leaves their link unless it strikes one of them. -/
theorem has_playGraphStep (h : g.Mirrored fun _ => False) (step : GraphStep) :
  (playGraphStep g step).2.dependents.has a b = true
    ↔ step.Records a b ∨ (g.dependents.has a b = true ∧ ¬ step.Strikes a ∧ ¬ step.Strikes b)
  := by
  have stays (idle : ∀ n, ¬ step.Strikes n) {p : Prop} :
      g.dependents.has a b = true ∨ p
        ↔ p ∨ (g.dependents.has a b = true ∧ ¬ step.Strikes a ∧ ¬ step.Strikes b) := by
    rw [or_comm, and_iff_left ⟨idle a, idle b⟩]
  cases step with
  | depend dependee dependent =>
    apply Graph.has_dependents_depend.trans
    rw [stays nofun]
    apply or_congr_left
    constructor
    · rintro ⟨rfl, rfl⟩
      exact .depend a b
    · rintro ⟨⟩
      exact ⟨rfl, rfl⟩
  | contain inner outer =>
    apply (Graph.has_dependents_contain fun known => (h.inside outer inner known).resolve_right id).trans
    rw [stays nofun]
    apply or_congr_left
    constructor
    · rintro ⟨rfl, rfl⟩
      exact .contain a b
    · rintro ⟨⟩
      exact ⟨rfl, rfl⟩
  | forget n =>
    apply (Links.has_forget _ _ _ _).trans
    have strikes (m : Name) : (GraphStep.forget n).Strikes m ↔ m = n := by
      constructor
      · rintro ⟨⟩
        rfl
      · rintro rfl
        exact .forget m
    rw [strikes, strikes]
    constructor
    · rintro ⟨ha, hb, linked⟩
      exact .inr ⟨linked, ha, hb⟩
    · rintro (⟨⟨⟩⟩ | ⟨linked, ha, hb⟩)
      exact ⟨ha, hb, linked⟩
  | clear =>
    constructor
    · rintro ⟨⟩
    · rintro (⟨⟨⟩⟩ | ⟨-, spared, -⟩)
      exact absurd (.clear a) spared
  | isDependent | hasDependents | dependents | dependencies | contained | isEmpty =>
    constructor
    · intro linked
      exact .inr ⟨linked, nofun, nofun⟩
    · rintro (⟨⟨⟩⟩ | ⟨linked, -⟩)
      exact linked

/-- The links between dependents are the dependencies on record. -/
theorem has_playGraph_iff (steps : List GraphStep) (a b : Name) :
  (playGraph ∅ steps).2.dependents.has a b = true ↔ Recorded steps a b
  := by
  induction steps using List.reverseRecOn with
  | nil =>
    constructor
    · rintro ⟨⟩
    · rintro ⟨before, step, after, split, -⟩
      simp at split
  | append_singleton steps step ih =>
    rw [playGraph_concat, has_playGraphStep (mirrored_playGraph steps), ih, recorded_concat]

end Scenario

/-- Whatever was recorded and struck, in whichever order, a component is found to depend on another
one exactly if at least one dependency on record leads from that one to it. -/
theorem isDependent_iff_recorded (steps : List GraphStep) (subject candidate : Name) :
  (playGraph ∅ steps).2.isDependent subject candidate = true
    ↔ TransGen (Recorded steps) subject candidate
  := by
  have links : (fun a b => (playGraph ∅ steps).2.dependents.has b a = true)
      = Function.swap (Recorded steps) := by
    funext a b
    exact propext (has_playGraph_iff steps b a)
  rw [Graph.isDependent, Links.reaches_iff, Links.path_iff_transGen, links, transGen_swap]

end Componentry
