import Componentry.Container
import Componentry.Proofs.Destruction
import Componentry.Proofs.Perils

/-!
# Callbacks that keep to their context

An errand is what a callback does that serves the creation of a component and keeps to the
context of that creation: it asks for other components, with or without need, sets up the
disposal of its own component, works on a memory, and returns or fails.  A `Crew` has an errand
for every callback of a definition; its interceptors, its disposals and its observers work on
the memory alone, and of these only a disposal may panic.

The memory of a crew is held together with a `Ledger`, which no callback can see: in it is
entered which instances a component obtains while it is created, and which disposals have run.
A crew is set to work as the behaviour of a container by `Crew.behaviour`.
-/

namespace Componentry

/-- A memory with a record of what was obtained and what was disposed of. -/
structure Ledger (σ : Type) where
  /-- What a component has obtained since its instance was begun: the names that it asked for,
  with the instances that it received. -/
  obtained : Name → List (Name × Ref)
  /-- The components whose disposals have run, in this order. -/
  disposed : List Name
  /-- The memory of the callbacks. -/
  own : σ

namespace Ledger

variable {σ : Type}

/-- The ledger in which nothing is entered. -/
def blank (s : σ) : Ledger σ := ⟨fun _ => [], [], s⟩

/-- The instance of a component is begun, which has obtained nothing yet. -/
def begin (l : Ledger σ) (n : Name) : Ledger σ :=
  { l with obtained := fun m => if m = n then [] else l.obtained m }

/-- A component has asked for another one, and has obtained an instance unless there was none. -/
def enter (l : Ledger σ) (n d : Name) : Option Ref → Ledger σ
  | some i => { l with obtained := fun m => if m = n then l.obtained n ++ [(d, i)] else l.obtained m }
  | none => l

/-- The memory of the callbacks has changed. -/
def withOwn (l : Ledger σ) (s : σ) : Ledger σ := { l with own := s }

/-- A disposal has run, and has changed the memory of the callbacks. -/
def dispose (l : Ledger σ) (n : Name) (s : σ) : Ledger σ :=
  { l with disposed := l.disposed ++ [n], own := s }

end Ledger

/-- What a callback does in the context of a creation. -/
inductive Errand (κ σ α : Type) where
  /-- Returns or fails. -/
  | done (outcome : Except Error α)
  /-- Reads the memory. -/
  | consult (next : σ → Errand κ σ α)
  /-- Changes the memory. -/
  | revise (f : σ → σ) (next : Errand κ σ α)
  /-- Asks for a component; a failure may be passed on, or be dealt with. -/
  | get (d : Name) (next : Except Error Ref → Errand κ σ α)
  /-- Asks for a component that may be missing. -/
  | getOptional (d : Name) (next : Option Ref → Errand κ σ α)
  /-- Sets up the disposal of the component in creation. -/
  | onDestroy (k : κ) (next : Errand κ σ α)

/-- The callbacks of a container, which keep to the contexts of creations. -/
structure Crew (κ σ : Type) where
  /-- Makes the instance of a component. -/
  instantiate : κ → Name → Errand κ σ Ref
  /-- Populates an instance, or makes it ready. -/
  wire : κ → Name → Ref → Errand κ σ Unit
  /-- Replaces an instance, passes it through, or fails. -/
  transform : κ → Name → Ref → σ → Except Error Ref × σ
  /-- Makes an instance on direct request. -/
  make : κ → Name → Trial κ (Ledger σ) Ref
  /-- Disposes of a component: it returns, fails or panics. -/
  dispose : κ → Name → Option Ref → σ → Except Panic (Except String Unit) × σ
  /-- Hears a notice. -/
  hear : Notice → σ → σ

variable {κ σ α : Type}

/-- Changes the ledger. -/
def Ledger.note (f : Ledger σ → Ledger σ) : Trial κ (Ledger σ) Unit :=
  Attempt.ofClient (.revise (fun s => { s with scratch := f s.scratch }) (.done ()))

/-- Carries an errand out for a component.  What the component obtains is entered in the
ledger. -/
def Errand.run (c : Container κ) (n : Name) : Errand κ σ α → Trial κ (Ledger σ) α
  | done outcome => ExceptT.mk (.done outcome)
  | consult next => do
    let s ← Attempt.recalls fun s : Site κ (Ledger σ) => s.scratch.own
    (next s).run c n
  | revise f next => do
    Ledger.note fun l => l.withOwn (f l.own)
    next.run c n
  | get d next => do
    let answer ← observing (c.request n d)
    Ledger.note fun l => l.enter n d answer.toOption
    (next answer).run c n
  | getOptional d next => do
    let answer ← c.requestOptional n d
    Ledger.note fun l => l.enter n d answer
    (next answer).run c n
  | onDestroy k next => do
    Attempt.edit (.onDestroy n (.callback n k))
    next.run c n

/-- Returns a value, or panics. -/
def Client.ofOutcome {φ δ μ : Type} : Except Panic α → Client φ δ μ α
  | .ok a => .done a
  | .error p => .panic p

/-- The crew at work in a container. -/
def Crew.behaviour (crew : Crew κ σ) (c : Container κ) : Behaviour κ (Ledger σ) where
  instantiate k n := do
    Ledger.note fun l => l.begin n
    (crew.instantiate k n).run c n
  wire k n i := (crew.wire k n i).run c n
  transform k n i :=
    ExceptT.mk <| .view fun _ s =>
      let result := crew.transform k n i s.scratch.own
      .revise (fun s => { s with scratch := s.scratch.withOwn result.2 }) (.done result.1)
  make := crew.make
  dispose k n target :=
    .view fun _ s =>
      let result := crew.dispose k n target s.scratch.own
      .revise (fun s => { s with scratch := s.scratch.dispose n result.2 }) (.ofOutcome result.1)
  hear t l := (none, l.withOwn (crew.hear t l.own))

/-- Asks for components one after the other, and fails with the first that fails. -/
def Errand.asking (a : α) : List Name → Errand κ σ α
  | [] => .done (.ok a)
  | d :: rest => .get d fun
    | .ok _ => asking a rest
    | .error e => .done (.error e)

/-- A crew whose callbacks are lists of names, for which they ask.  Its memory counts the
instances that were made. -/
def Crew.asking : Crew (List Name) Nat where
  instantiate names _ := .consult fun k => .revise (· + 1) (.asking ⟨k⟩ names)
  wire names _ _ := .asking () names
  transform _ _ i k := (.ok i, k)
  make _ n := throw (.notDefined n)
  dispose _ _ _ k := (.ok (.ok ()), k)
  hear _ k := k

/-- A component that asks for some names while its instance is made, and for others while it is
populated. -/
def Definition.asking (n : Name) (making populating : List Name) : Definition (List Name) where
  name := n
  instantiate := making
  populate := some populating
  init := none
  dispose := some []
  dependsOn := []
  isLazy := false

/-- The registry and the memory of a container with a crew. -/
abbrev Situation (κ σ : Type) : Type := World (Recipe κ) (Teardown κ) (Site κ (Ledger σ))

namespace World

/-- What a component has obtained. -/
def obtained (w : Situation κ σ) (n : Name) : List (Name × Ref) := w.memory.scratch.obtained n

/-- The components whose disposals have run. -/
def disposed (w : Situation κ σ) : List Name := w.memory.scratch.disposed

/-- The definitions. -/
def definitions (w : Situation κ σ) : Catalog (Definition κ) := w.memory.definitions

/-- The ledger has changed. -/
def noting (w : Situation κ σ) (f : Ledger σ → Ledger σ) : Situation κ σ :=
  { w with memory := { w.memory with scratch := f w.memory.scratch } }

end World

/-- The host of a container with a crew. -/
abbrev Crew.host (crew : Crew κ σ) (c : Container κ) :
    Host (Recipe κ) (Teardown κ) (Site κ (Ledger σ)) :=
  c.host (crew.behaviour c)

open Attempt

variable {c : Container κ} {crew : Crew κ σ} {w : Situation κ σ} {n : Name}
  {S : α → Situation κ σ → Prop} {F : Error → Situation κ σ → Prop}
  {P : Situation κ σ → Situation κ σ → Prop}
  {host : Host (Recipe κ) (Teardown κ) (Site κ (Ledger σ))}

/-! ### Changes of the memory -/

/-- A note in the ledger is made in one step. -/
theorem meets_note {f : Ledger σ → Ledger σ} {S : Unit → Situation κ σ → Prop}
    (h : S () (w.noting f)) :
  Meets host w (Ledger.note f) S F
  := meets_revise h

/-- What the interceptors of a list make of an instance. -/
def Crew.passBy (crew : Crew κ σ) (s : Stage) (n : Name) :
    List (Name × Interceptor κ) → Ref → σ → Except Error Ref × σ
  | [], i, own => (.ok i, own)
  | (_, ic) :: rest, i, own =>
    match ic.callback? s n with
    | none => crew.passBy s n rest i own
    | some k =>
      match crew.transform k n i own with
      | (.ok j, own) => crew.passBy s n rest j own
      | (.error e, own) => (.error e, own)

/-- An interceptor of a crew comes out as the crew says. -/
theorem meets_transform {k : κ} {i : Ref} {S : Ref → Situation κ σ → Prop}
    (h : Outcome S F (crew.transform k n i w.memory.scratch.own).1
      (w.noting (·.withOwn (crew.transform k n i w.memory.scratch.own).2))) :
  Meets (crew.host c) w ((crew.behaviour c).transform k n i) S F
  := by
  refine ⟨_, _, ?_, h⟩
  intro _ _ next stack
  apply Machine.Leads.step
  apply Machine.Leads.step
  apply Machine.Leads.refl

/-- Interceptors change the memory alone. -/
theorem meets_intercept {s : Stage} {i : Ref} {S : Ref → Situation κ σ → Prop}
    (h : ∀ outcome own, crew.passBy s n c.chain.entries i w.memory.scratch.own = (outcome, own) →
      Outcome S F outcome (w.noting (·.withOwn own))) :
  Meets (crew.host c) w (c.intercept (crew.behaviour c) s n i) S F
  := by
  rw [Container.intercept]
  revert h
  generalize c.chain.entries = entries
  intro h
  induction entries generalizing i w with
  | nil =>
    apply meets_pure
    apply h (.ok i) w.memory.scratch.own rfl
  | cons entry rest ih =>
    obtain ⟨name, ic⟩ := entry
    rw [Container.passBy]
    simp only [Crew.passBy] at h
    cases hk : ic.callback? s n with
    | none =>
      apply ih
      intro outcome own ho
      apply h
      rw [hk]
      apply ho
    | some k =>
      apply meets_bind
      apply meets_transform
      cases ht : crew.transform k n i w.memory.scratch.own with
      | mk outcome own =>
        cases outcome with
        | ok j =>
          apply ih
          intro outcome' own' ho
          apply h outcome' own'
          simp only [hk, ht]
          apply ho
        | error e =>
          apply h (.error e) own
          simp only [hk, ht]

/-! ### Errands -/

/-- To observe what an attempt comes to does not change it. -/
theorem faces_observing {x : Trial κ (Ledger σ) α} {S : Except Error α → Situation κ σ → Prop}
    (h : Faces host w x (fun a => S (.ok a)) (fun e => S (.error e)) P) :
  Faces host w (observing x) S F P
  := by
  apply faces_tryCatch
  apply faces_bind
  apply h.mono _ _ fun _ _ => id
  · intro a w' ha
    apply (meets_pure ha).faces
  · intro e w' he
    apply (meets_pure he).faces

/-- A condition `J` on what is left of an errand holds to its end, if every step keeps it.  The
errand panics only if one of its requests does. -/
theorem Errand.faces_run (J : Errand κ σ α → Situation κ σ → Prop)
    (done : ∀ outcome w, J (.done outcome) w → Outcome S F outcome w)
    (consult : ∀ next w, J (.consult next) w → J (next w.memory.scratch.own) w)
    (revise : ∀ f next w, J (.revise f next) w → J next (w.noting fun l => l.withOwn (f l.own)))
    (get : ∀ d next w, J (.get d next) w → Faces host w (c.request n d)
      (fun i w' => J (next (.ok i)) (w'.noting (·.enter n d (some i))))
      (fun e w' => J (next (.error e)) w') P)
    (getOptional : ∀ d next w, J (.getOptional d next) w →
      Faces host w (c.requestOptional n d)
        (fun answer w' => J (next answer) (w'.noting (·.enter n d answer))) (fun _ _ => False) P)
    (onDestroy : ∀ k next w, J (.onDestroy k next) w →
      J next (w.onRegistry fun r => (r.edit (.onDestroy n (.callback n k))).1))
    (e : Errand κ σ α) (h : J e w) :
  Faces host w (e.run c n) S F P
  := by
  induction e generalizing w with
  | done outcome =>
    left
    use outcome, w, Client.returns_done _ _
    apply done _ _ h
  | consult next ih =>
    apply faces_bind
    apply Meets.faces
    apply meets_recalls
    apply ih
    apply consult _ _ h
  | revise f next ih =>
    apply faces_bind
    apply Meets.faces
    apply meets_note
    apply ih
    apply revise _ _ _ h
  | get d next ih =>
    apply faces_bind
    apply faces_observing
    apply (get _ _ _ h).mono _ _ fun _ _ => id
    · intro i w' hi
      apply faces_bind
      apply Meets.faces
      apply meets_note
      apply ih _ hi
    · intro e w' he
      apply faces_bind
      apply Meets.faces
      apply meets_note
      apply ih _ he
  | getOptional d next ih =>
    apply faces_bind
    apply (getOptional _ _ _ h).mono _ _ fun _ _ => id
    · intro answer w' hi
      apply faces_bind
      apply Meets.faces
      apply meets_note
      apply ih _ hi
    · intro e w' he
      apply he.elim
  | onDestroy k next ih =>
    apply faces_bind
    apply Meets.faces
    apply meets_edit
    apply ih
    apply onDestroy _ _ _ h

/-- An errand of which no request panics ends. -/
theorem Errand.meets_run (J : Errand κ σ α → Situation κ σ → Prop)
    (done : ∀ outcome w, J (.done outcome) w → Outcome S F outcome w)
    (consult : ∀ next w, J (.consult next) w → J (next w.memory.scratch.own) w)
    (revise : ∀ f next w, J (.revise f next) w → J next (w.noting fun l => l.withOwn (f l.own)))
    (get : ∀ d next w, J (.get d next) w → Meets host w (c.request n d)
      (fun i w' => J (next (.ok i)) (w'.noting (·.enter n d (some i))))
      (fun e w' => J (next (.error e)) w'))
    (getOptional : ∀ d next w, J (.getOptional d next) w →
      Meets host w (c.requestOptional n d)
        (fun answer w' => J (next answer) (w'.noting (·.enter n d answer))) (fun _ _ => False))
    (onDestroy : ∀ k next w, J (.onDestroy k next) w →
      J next (w.onRegistry fun r => (r.edit (.onDestroy n (.callback n k))).1))
    (e : Errand κ σ α) (h : J e w) :
  Meets host w (e.run c n) S F
  := by
  apply Faces.meets
  apply Errand.faces_run J done consult revise _ _ onDestroy e h
  · intro d next w hj
    apply (get d next w hj).faces
  · intro d next w hj
    apply (getOptional d next w hj).faces

end Componentry
