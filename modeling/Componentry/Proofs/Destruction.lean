import Componentry.Proofs.Course
import Componentry.Proofs.Logic

/-!
# Destruction

A destruction is worked off in tasks.  The main result, `demolish`, says that this ends, and that it
follows the course of the destruction: it leaves the registry to which the course leads, and the
disposals of the course begin in their order, and no others.

Disposals are taken to change nothing but the memory.  How they do so is a parameter `Does`,
which relates the memory before the disposal of a component to the one after it.
-/

namespace Componentry

open Machine

variable {φ δ μ α : Type} {host : Host φ δ μ} {w w' w'' : World φ δ μ}

/-! ### Disposals that begin on the way -/

/-- With the next step the callback of a disposal is entered. -/
def Machine.Enters : Machine φ δ μ α → Prop
  | .tearing (.dispose _ _ :: _) _ _ _ => True
  | _ => False

/-- The machine gets from one moment to another, and the disposals in `ran` begin on the way, in
this order. -/
inductive Machine.Runs (host : Host φ δ μ) :
    Machine φ δ μ α → List (Name × δ) → Machine φ δ μ α → Prop
  | refl (m : Machine φ δ μ α) : Runs host m [] m
  /-- A step with which no disposal begins. -/
  | silent {m m' : Machine φ δ μ α} {ran : List (Name × δ)} (hm : ¬ m.Enters)
      (h : Runs host (m.step host) ran m') : Runs host m ran m'
  /-- A disposal begins when its callback is entered, on top of the destruction that has come to
  it. -/
  | begins {ρ : Role} {n : Name} {d : δ} {tasks : List (Task δ)}
      {resume : Unit → Client φ δ μ (ρ.Result α)} {stack : Stack φ δ μ α ρ} {w : World φ δ μ}
      {m' : Machine φ δ μ α} {ran : List (Name × δ)}
      (h : Runs host (@running φ δ μ α .disposer (host.dispose d)
        (.disposing n tasks resume stack) w) ran m') :
      Runs host (.tearing (.dispose n d :: tasks) resume stack w) ((n, d) :: ran) m'

/-- The machine works off a list of tasks, whatever tasks are left and whatever waits, and the
disposals in `ran` begin. -/
def Machine.Tears (host : Host φ δ μ) (tasks : List (Task δ)) (ran : List (Name × δ))
    (w w' : World φ δ μ) : Prop :=
  ∀ ⦃α : Type⦄ ⦃ρ : Role⦄ (rest : List (Task δ)) (resume : Unit → Client φ δ μ (ρ.Result α))
    (stack : Stack φ δ μ α ρ),
    Runs host (.tearing (tasks ++ rest) resume stack w) ran (.tearing rest resume stack w')

namespace Machine

variable {m m' m'' : Machine φ δ μ α} {tasks tasks' : List (Task δ)} {ran ran' : List (Name × δ)}

/-- The disposals of two parts of a run begin one after the other. -/
theorem Runs.trans (h : Runs host m ran m') (h' : Runs host m' ran' m'') :
  Runs host m (ran ++ ran') m''
  := by
  induction h with
  | refl => apply h'
  | silent hm _ ih => apply Runs.silent hm (ih h')
  | begins _ ih => apply Runs.begins (ih h')

/-- What is told of disposals is told of a run of the machine. -/
theorem Runs.leads (h : Runs host m ran m') :
  Leads host m m'
  := by
  induction h with
  | refl => apply Leads.refl
  | silent _ _ ih => apply Leads.step ih
  | begins _ ih => apply Leads.step ih

/-- Where there are no tasks, the world is left as it is. -/
theorem tears_nil (w : World φ δ μ) :
  Tears host [] [] w w
  := by
  intro _ _ rest resume stack
  apply Runs.refl

/-- Tasks that can be worked off one by one can be worked off one after the other. -/
theorem Tears.append (h : Tears host tasks ran w w') (h' : Tears host tasks' ran' w' w'') :
  Tears host (tasks ++ tasks') (ran ++ ran') w w''
  := by
  intro _ _ rest resume stack
  rw [List.append_assoc]
  apply Runs.trans (h _ resume stack)
  apply h'

/-- A component is destroyed by working off its tasks once it was withdrawn. -/
theorem tears_destroy {n : Name}
    (h : Tears host
      (destructionTasks n (w.registry.graph.dependentsOf n) (w.registry.disposals.get? n)) ran
      (w.onRegistry (·.withdraw n)) w') :
  Tears host [.destroy n] ran w w'
  := by
  intro _ _ rest resume stack
  apply Runs.silent id
  apply h

/-- What a component contains is destroyed once it was released. -/
theorem tears_contents {n : Name}
    (h : Tears host ((w.registry.graph.containedOf n).map .destroy) ran
      (w.onRegistry (·.release n)) w') :
  Tears host [.contents n] ran w w'
  := by
  intro _ _ rest resume stack
  apply Runs.silent id
  apply h

/-- To forget a component is one step, with which no disposal begins. -/
theorem tears_forget (n : Name) (w : World φ δ μ) :
  Tears host [.forget n] [] w (w.onRegistry (·.forget n))
  := by
  intro _ _ rest resume stack
  apply Runs.silent id
  apply Runs.refl

/-- To clear the registry is one step, with which no disposal begins. -/
theorem tears_clear (w : World φ δ μ) :
  Tears host [.clear] [] w (w.onRegistry (·.clear))
  := by
  intro _ _ rest resume stack
  apply Runs.silent id
  apply Runs.refl

variable {ρ : Role}

/-- A request to destroy a component is met by working off one task. -/
theorem Tears.runs_destroy {n : Name} (h : Tears host [.destroy n] ran w w')
    (next : Unit → Client φ δ μ (ρ.Result α)) (stack : Stack φ δ μ α ρ) :
  Runs host (.running (.destroy n next) stack w) ran (.running (next ()) stack w')
  := by
  rw [← List.append_nil ran]
  apply Runs.silent id
  apply Runs.trans (h [] next stack)
  apply Runs.silent id
  apply Runs.refl

/-- A request to destroy everything is met by destroying the components with a disposal. -/
theorem Tears.runs_destroyAll
    (h : Tears host (w.registry.disposals.names.reverse.map .destroy ++ [.clear]) ran
      (w.onRegistry (·.beginDestruction)) w')
    (next : Unit → Client φ δ μ (ρ.Result α)) (stack : Stack φ δ μ α ρ) :
  Runs host (.running (.destroyAll next) stack w) ran (.running (next ()) stack w')
  := by
  rw [← List.append_nil ran]
  apply Runs.silent id
  have h := h [] next stack
  rw [List.append_nil] at h
  apply Runs.trans h
  apply Runs.silent id
  apply Runs.refl

end Machine

/-- An attempt to destroy a component ends where the destruction does. -/
theorem Attempt.meets_destroy {n : Name} {ran : List (Name × δ)} {S : Unit → World φ δ μ → Prop}
    {F : Error → World φ δ μ → Prop} (ht : Tears host [.destroy n] ran w w') (h : S () w') :
  Meets host w (destroy n) S F
  := by
  apply meets_ofClient _ h
  intro _ _ next stack
  apply (ht.runs_destroy _ stack).leads

/-- An attempt to destroy everything ends where the destruction does. -/
theorem Attempt.meets_destroyAll {ran : List (Name × δ)} {S : Unit → World φ δ μ → Prop}
    {F : Error → World φ δ μ → Prop}
    (ht : Tears host (w.registry.disposals.names.reverse.map .destroy ++ [.clear]) ran
      (w.onRegistry (·.beginDestruction)) w') (h : S () w') :
  Meets host w destroyAll S F
  := by
  apply meets_ofClient _ h
  intro _ _ next stack
  apply (ht.runs_destroyAll _ stack).leads

/-! ### What one destruction does -/

/-- The disposals of components are run one after the other, each as `Does` tells. -/
inductive Along (Does : Name → μ → μ → Prop) : List Name → μ → μ → Prop
  | nil (m : μ) : Along Does [] m m
  | cons {n : Name} {ran : List Name} {m m' m'' : μ} (h : Does n m m')
      (rest : Along Does ran m' m'') : Along Does (n :: ran) m m''

/-- Disposals that run one after the other make one row. -/
theorem Along.append {Does : Name → μ → μ → Prop} {ran ran' : List Name} {m m' m'' : μ}
    (h : Along Does ran m m') (h' : Along Does ran' m' m'') :
  Along Does (ran ++ ran') m m''
  := by
  induction h with
  | nil => apply h'
  | cons h _ ih => apply Along.cons h (ih h')

/-- The components `names` are destroyed one after the other.  The names in `lost` are struck,
and the disposals in `ran` begin. -/
structure Demolition (host : Host φ δ μ) (Does : Name → μ → μ → Prop) (names : List Name)
    (w w' : World φ δ μ) (lost : List Name) (ran : List (Name × δ)) : Prop where
  course : Registry.Course names w.registry w'.registry lost ran
  tears : Tears host (names.map .destroy) ran w w'
  along : Along Does (ran.map Prod.fst) w.memory w'.memory

/-- The disposals that are due are all fit for their components. -/
def Registry.Fits (Fit : Name → δ → Prop) (r : Registry φ δ) : Prop :=
  ∀ n d, r.disposals.get? n = some d → Fit n d

section Demolish

variable {Fit : Name → δ → Prop} {Does : Name → μ → μ → Prop}

/-- The disposals that are left when some names were struck are fit for their components. -/
theorem Registry.Fits.without {r r' : Registry φ δ} {D : List Name} (h : r.Fits Fit)
    (hr : r'.disposals = r.disposals.without D) :
  r'.Fits Fit
  := by
  intro n d hd
  rw [hr, Catalog.get?_without] at hd
  split at hd
  · cases hd
  · apply h n d hd

variable
    (dispose : ∀ n d, Fit n d → ∀ w : World φ δ μ, ∃ m, Does n w.memory m ∧
      Tears host [.dispose n d] [(n, d)] w { w with memory := m })

include dispose

/-- The disposal of a component is run, if there is one. -/
theorem Registry.Fits.tears_due {r : Registry φ δ} (fit : r.Fits Fit) (n : Name)
    (w : World φ δ μ) :
  ∃ m, Along Does ((r.due n).map Prod.fst) w.memory m ∧
    Tears host ((r.disposals.get? n).map (.dispose n)).toList (r.due n) w { w with memory := m }
  := by
  unfold Registry.due
  cases hd : r.disposals.get? n with
  | none => use w.memory, .nil _, tears_nil _
  | some d =>
    obtain ⟨m, hm, ht⟩ := dispose n d (fit n d hd) w
    use m, .cons hm (.nil _), ht

/-- The machine follows the course of a destruction. -/
theorem Registry.Course.demolition {names lost : List Name} {ran : List (Name × δ)}
    {r r' : Registry φ δ} (h : Course names r r' lost ran) (fit : r.Fits Fit) (m : μ) :
  ∃ m', Demolition host Does names ⟨r, m⟩ ⟨r', m'⟩ lost ran
  := by
  suffices ∃ m', Tears host (names.map .destroy) ran ⟨r, m⟩ ⟨r', m'⟩ ∧
      Along Does (ran.map Prod.fst) m m' by
    obtain ⟨m', ht, ha⟩ := this
    use m', h, ht
  induction h generalizing m with
  | nil => use m, tears_nil _, .nil _
  | @cons n names _ _ _ r r₁ r₂ r₃ ran₁ ran₂ ran₃ dependents contents _ ih₁ ih₂ ih₃ =>
    have fit₁ : (r.withdraw n).Fits Fit := fit.without (D := [n]) (Catalog.erase_eq_without _ _)
    have fit₂ : (r₁.release n).Fits Fit := fit₁.without dependents.struck.disposals
    have fit₃ : (r₂.forget n).Fits Fit := fit₂.without contents.struck.disposals
    obtain ⟨m₁, above, along₁⟩ := ih₁ fit₁ m
    obtain ⟨m₂, along₂, own⟩ := fit.tears_due dispose n ⟨r₁, m₁⟩
    obtain ⟨m₃, within, along₃⟩ := ih₂ fit₂ m₂
    obtain ⟨m₄, rest, along₄⟩ := ih₃ fit₃ m₃
    use m₄
    constructor
    · have tasks : Tears host [.destroy n] (ran₁ ++ (r.due n ++ (ran₂ ++ []))) ⟨r, m⟩
          ⟨r₂.forget n, m₃⟩ := by
        apply tears_destroy
        rw [destructionTasks, List.append_assoc]
        apply above.append
        apply own.append
        have inner : Tears host [.contents n] ran₂ ⟨r₁, m₂⟩ ⟨r₂, m₃⟩ := tears_contents within
        apply inner.append (tears_forget n _)
      have all := tasks.append rest
      simp only [List.append_nil, List.append_assoc] at all
      apply all
    · simp only [List.map_append]
      apply along₁.append (along₂.append (along₃.append along₄))

/-- A destruction of components ends, and takes a course. -/
theorem demolish (names : List Name) (w : World φ δ μ) (fit : w.registry.Fits Fit) :
  ∃ w' lost ran, Demolition host Does names w w' lost ran
  := by
  obtain ⟨r', lost, ran, h⟩ := Registry.exists_course names w.registry
  obtain ⟨m', h⟩ := h.demolition dispose fit w.memory
  use ⟨r', m'⟩, lost, ran

end Demolish

end Componentry
