import Componentry.Proofs.Requests

/-!
# Behaviours that keep to the contexts of creations

What becomes of a container while it creates components does not depend on what its callbacks are,
as long as they keep to the contexts of these creations.  `Behaviour.Dutiful` says so of the
behaviour of the callbacks without looking into them: a condition that is kept by work on the
memory, by the requests of a component, and by the setting up of its disposal is kept by every
callback that serves the component.

Whether callbacks may panic is a parameter.  A crew is dutiful and does not panic.
-/

namespace Componentry

open Attempt

variable {κ σ α : Type}

/-- Work on the memory of the callbacks keeps `J`.  If there is a risk, then a panic may break out
wherever `J` holds, and `P` holds of that moment, which is also the one at which it is unwound. -/
structure Steady (risk : Prop) (J : Situation κ σ → Prop)
    (P : Situation κ σ → Situation κ σ → Prop) : Prop where
  revised : ∀ w own, J w → J (w.noting (·.withOwn own))
  panicked : risk → ∀ w, J w → P w w

/-- All that a callback may do in the context of the creation of `n` keeps `J`, unless there is a
panic, of which `P` holds. -/
structure Served (host : Host (Recipe κ) (Teardown κ) (Site κ (Ledger σ))) (c : Container κ)
    (n : Name) (risk : Prop) (J : Situation κ σ → Prop)
    (P : Situation κ σ → Situation κ σ → Prop) : Prop
    extends Steady risk J P where
  requested : ∀ d w, J w →
    Faces host w (c.request n d) (fun i w' => J (w'.entering n d (some i))) (fun _ => J) P
  requestedOptional : ∀ d w, J w →
    Faces host w (c.requestOptional n d) (fun answer w' => J (w'.entering n d answer))
      (fun _ _ => False) P
  awaited : ∀ k w, J w → J (w.awaiting n (.callback n k))

/-- The callbacks keep to the contexts of creations.  They begin the instance of a component with
an empty record of what it has obtained, and panic while they serve a creation only if there is a
risk. -/
structure Behaviour.Dutiful (b : Behaviour κ (Ledger σ)) (c : Container κ) (risk : Prop) :
    Prop where
  keeps : ∃ dispose hear, (c.host b).Keeps dispose hear
  instantiate : ∀ k n J P w, Served (c.host b) c n risk J P → J (w.noting (·.begin n)) →
    Faces (c.host b) w (b.instantiate k n) (fun _ => J) (fun _ => J) P
  wire : ∀ k n i J P w, Served (c.host b) c n risk J P → J w →
    Faces (c.host b) w (b.wire k n i) (fun _ => J) (fun _ => J) P
  transform : ∀ k n i J P w, Steady risk J P → J w →
    Faces (c.host b) w (b.transform k n i) (fun _ => J) (fun _ => J) P

variable {c : Container κ} {b : Behaviour κ (Ledger σ)} {crew : Crew κ σ} {risk : Prop}
  {host : Host (Recipe κ) (Teardown κ) (Site κ (Ledger σ))} {w : Situation κ σ} {n : Name}
  {J : Situation κ σ → Prop} {P : Situation κ σ → Situation κ σ → Prop}

namespace Behaviour.Dutiful

/-- The callback that wires an instance keeps what callbacks are to keep. -/
theorem faces_wireWith (hb : b.Dutiful c risk) (h : Served (c.host b) c n risk J P) (hw : J w)
    (k? : Option κ) (i : Ref) :
  Faces (c.host b) w (Container.wireWith b k? n i) (fun _ => J) (fun _ => J) P
  := by
  cases k? with
  | none =>
    apply Meets.faces
    apply meets_pure hw
  | some k => apply hb.wire k n i J P w h hw

/-- The interceptors keep what work on the memory keeps. -/
theorem faces_intercept (hb : b.Dutiful c risk) (h : Steady risk J P) (hw : J w) (s : Stage)
    (i : Ref) :
  Faces (c.host b) w (c.intercept b s n i) (fun _ => J) (fun _ => J) P
  := by
  rw [Container.intercept]
  generalize c.chain.entries = entries
  induction entries generalizing i w with
  | nil =>
    apply Meets.faces
    apply meets_pure hw
  | cons entry rest ih =>
    obtain ⟨name, ic⟩ := entry
    rw [Container.passBy]
    cases ic.callback? s n with
    | none => apply ih hw
    | some k =>
      apply faces_bind
      apply (hb.transform k n i J P w h hw).mono _ (fun _ _ => id) fun _ _ => id
      intro j w' hw'
      apply ih hw'

end Behaviour.Dutiful

/-- An errand keeps what may be relied on in the context of a creation. -/
theorem Errand.faces_served (h : Served host c n risk J P) (e : Errand κ σ α) (hw : J w) :
  Faces host w (e.run c n) (fun _ => J) (fun _ => J) P
  := by
  refine Errand.faces_run (fun _ => J) ?done ?consult ?revise ?get ?getOptional ?onDestroy e hw
  case done =>
    intro outcome w hw
    cases outcome with
    | ok _ => apply hw
    | error _ => apply hw
  case consult =>
    intro next w hw
    apply hw
  case revise =>
    intro f next w hw
    apply h.revised w _ hw
  case get =>
    intro d next w hw
    apply h.requested d w hw
  case getOptional =>
    intro d next w hw
    apply h.requestedOptional d w hw
  case onDestroy =>
    intro k next w hw
    apply h.awaited k w hw

/-- A crew is dutiful, and does not panic. -/
theorem Crew.dutiful (crew : Crew κ σ) (c : Container κ) :
  (crew.behaviour c).Dutiful c False
  where
  keeps := ⟨_, _, crew.keeps_host c⟩
  instantiate k n J P w h hw := by
    apply faces_bind
    apply Meets.faces
    apply meets_note
    apply Errand.faces_served h _ hw
  wire k n i J P w h hw := Errand.faces_served h _ hw
  transform k n i J P w h hw := by
    apply Meets.faces
    apply meets_transform
    have hw := h.revised w (crew.transform k n i w.memory.scratch.own).2 hw
    cases (crew.transform k n i w.memory.scratch.own).1 with
    | ok _ => apply hw
    | error _ => apply hw

end Componentry
