import Componentry.Proofs.Calls

/-!
# Creations that are broken off by a panic

The callbacks of a `DaringCrew` keep to the contexts of creations like those of a crew, but they
may panic, and so may its interceptors.  A call that creates components ends with the panic if
there is one.  By then the creations that were under way have been broken off, which takes their
components out of the guard and withdraws them from early references.  Their components are not
destroyed, though, as they are when their construction fails: whatever links they had then, and
whatever disposals were set up for them, are still there.

The main result says when such a panic leaves no trace: exactly if the components in creation, at
the moment at which the panic broke out, had no links and no disposals.
-/

namespace Componentry

open Attempt

/-- The callbacks of a container, which keep to the contexts of creations, and may panic. -/
structure DaringCrew (κ σ : Type) where
  /-- Makes the instance of a component. -/
  instantiate : κ → Name → Errand κ σ (Except Panic Ref)
  /-- Populates an instance, or makes it ready. -/
  wire : κ → Name → Ref → Errand κ σ (Except Panic Unit)
  /-- Replaces an instance, passes it through, fails or panics. -/
  transform : κ → Name → Ref → σ → Except Panic (Except Error Ref) × σ
  /-- Makes an instance on direct request. -/
  make : κ → Name → Trial κ (Ledger σ) Ref
  /-- Disposes of a component: it returns, fails or panics. -/
  dispose : κ → Name → Option Ref → σ → Except Panic (Except String Unit) × σ
  /-- Hears a notice. -/
  hear : Notice → σ → σ

variable {κ σ α : Type}

/-- Carries an errand out for a component, and panics if it comes to that. -/
def Errand.dare (c : Container κ) (n : Name) (e : Errand κ σ (Except Panic α)) :
    Trial κ (Ledger σ) α := do
  ExceptT.mk (.ofOutcome ((← e.run c n).map .ok))

namespace DaringCrew

/-- The crew at work in a container. -/
def behaviour (crew : DaringCrew κ σ) (c : Container κ) : Behaviour κ (Ledger σ) where
  instantiate k n := do
    Ledger.note fun l => l.begin n
    (crew.instantiate k n).dare c n
  wire k n i := (crew.wire k n i).dare c n
  transform k n i :=
    ExceptT.mk <| .view fun _ s =>
      let result := crew.transform k n i s.scratch.own
      .revise (fun s => { s with scratch := s.scratch.withOwn result.2 }) (.ofOutcome result.1)
  make := crew.make
  dispose k n target := Ledger.disposal n (crew.dispose k n target)
  hear t l := (none, l.withOwn (crew.hear t l.own))

/-- The host of a container with the crew. -/
abbrev host (crew : DaringCrew κ σ) (c : Container κ) :
    Host (Recipe κ) (Teardown κ) (Site κ (Ledger σ)) :=
  c.host (crew.behaviour c)

/-- The call, made at the moment `w`, runs to its end, with an outcome or a panic, at the moment
`w'`. -/
def Ends (crew : DaringCrew κ σ) (c : Container κ) (call : Call κ) (w : Situation κ σ)
    (outcome : Except Panic (Except Error (Option Ref))) (w' : Situation κ σ) : Prop :=
  ∃ k, Machine.run? (crew.host c) k (call.perform c).run w = some (outcome, w')

end DaringCrew

/-- No trace is left of components that are not finished: there are no links to them and no
disposals for them, they are not in creation and not offered, and no finished component holds an
early reference to them. -/
structure Traceless (w : Situation κ σ) : Prop where
  tidy : Tidy w
  held : ∀ n d i, w.registry.IsFinished n → (d, i) ∈ w.obtained n →
    w.registry.finished.get? d = some i

/-- Calls are made one after the other, from one moment to another.  If one of them panics, it
leaves no trace. -/
inductive DaringCrew.Follows (crew : DaringCrew κ σ) (c : Container κ) :
    Situation κ σ → List (Call κ) → Situation κ σ → Prop
  | nil (w : Situation κ σ) : Follows crew c w [] w
  | cons {calls : List (Call κ)} {call : Call κ} {w w' w'' : Situation κ σ}
      {outcome : Except Panic (Except Error (Option Ref))} (e : crew.Ends c call w outcome w')
      (clear : ∀ p, outcome = .error p → Traceless w') (rest : Follows crew c w' calls w'') :
      Follows crew c w (call :: calls) w''

/-- There is a link with an end at the component, or a disposal is due for it. -/
def Registry.IsAttached {φ δ : Type} (r : Registry φ δ) (n : Name) : Prop :=
  (∃ m, r.DependsOn n m ∨ r.DependsOn m n) ∨ ∃ t, r.disposals.get? n = some t

variable {c : Container κ} {crew : DaringCrew κ σ} {w w' u v : Situation κ σ} {n : Name}

/-! ### A daring crew keeps to its contexts -/

/-- An errand that may panic keeps what each of its requests keeps. -/
theorem Errand.faces_dare {host : Host (Recipe κ) (Teardown κ) (Site κ (Ledger σ))}
    {J : Situation κ σ → Prop} {P : Situation κ σ → Situation κ σ → Prop}
    (h : Served host c n True J P) (e : Errand κ σ (Except Panic α)) (hw : J w) :
  Faces host w (e.dare c n) (fun _ => J) (fun _ => J) P
  := by
  apply faces_bind
  apply (e.faces_served h hw).mono _ (fun _ _ => id) fun _ _ => id
  intro outcome w' hw'
  cases outcome with
  | ok a =>
    apply Meets.faces
    apply meets_pure hw'
  | error p =>
    apply faces_panic
    apply h.panicked trivial w' hw'

namespace DaringCrew

theorem keeps_host (crew : DaringCrew κ σ) (c : Container κ) :
  (crew.host c).Keeps crew.dispose crew.hear
  := ⟨fun _ _ _ => rfl, fun _ _ => rfl, fun _ _ => rfl⟩

theorem faces_transform {J : Situation κ σ → Prop} {P : Situation κ σ → Situation κ σ → Prop}
    (h : Steady True J P) (hw : J w) (k : κ) (n : Name) (i : Ref) :
  Faces (crew.host c) w ((crew.behaviour c).transform k n i) (fun _ => J) (fun _ => J) P
  := by
  have hw := h.revised w (crew.transform k n i w.memory.scratch.own).2 hw
  apply faces_view
  apply faces_revise
  rcases (crew.transform k n i w.memory.scratch.own).1 with p | e | j
  · apply faces_panic
    apply h.panicked trivial _ hw
  · apply Meets.faces
    apply meets_throw hw
  · apply Meets.faces
    apply meets_pure hw

/-- A crew that may panic does its duty otherwise. -/
theorem dutiful (crew : DaringCrew κ σ) (c : Container κ) :
  (crew.behaviour c).Dutiful c True
  where
  keeps := ⟨_, _, crew.keeps_host c⟩
  instantiate k n J P w h hw := by
    apply faces_bind
    apply Meets.faces
    apply meets_note
    apply Errand.faces_dare h _ hw
  wire k n i J P w h hw := Errand.faces_dare h _ hw
  transform k n i J P w h hw := faces_transform h hw k n i

end DaringCrew

/-! ### What is left of creations that were broken off -/

theorem Idle.traceless (h : Idle c w) :
  Traceless w
  where
  tidy := h.tidy
  held n d i hn hi := h.finished_of_stands (h.sound.held n d i hn hi).2

theorem Unwound.isFinished_iff (h : Unwound u v) :
  v.registry.IsFinished n ↔ u.registry.IsFinished n
  := by
  apply Registry.isFinished_congr
  rw [h.finished]

theorem Unwound.dependsOn_iff (h : Unwound u v) {d : Name} :
  v.registry.DependsOn n d ↔ u.registry.DependsOn n d
  := by
  rw [Registry.DependsOn, h.graph]
  rfl

namespace Wreck

theorem undisturbed (h : Wreck c w u v) :
  Undisturbed w v
  := by
  obtain ⟨producers, -, spares⟩ := h.whole
  constructor
  case finished =>
    intro n i hi
    rw [h.unwound.finished]
    apply spares.finished n i hi
  case due =>
    intro n hn
    rw [h.unwound.disposals]
    apply spares.disposal n (.inl hn) id
  case disposed =>
    obtain ⟨ran, hr, hn⟩ := spares.disposed
    use ran
    constructor
    · rw [World.disposed, h.unwound.memory]
      apply hr
    · intro n hf hm
      apply hn n hm hf

/-- Nothing is in creation any more. -/
theorem not_isInCreation (h : Wreck c w u v) (hw : Idle c w) (n : Name) :
  ¬ v.registry.IsInCreation n
  := by
  rw [Registry.isInCreation_congr h.guard]
  apply hw.idle n

/-- Nothing is offered any more. -/
theorem not_isOffered (h : Wreck c w u v) (hw : Idle c w) (n : Name) :
  ¬ v.registry.IsOffered n
  := fun hn => hw.idle n (h.offered n hn)

section Bare

variable (h : Wreck c w u v) (bare : ∀ n, u.registry.IsInCreation n → ¬ u.registry.IsAttached n)

include h bare

/-- What there was is finished if anything is attached to it. -/
theorem isFinished_of_isAttached (ha : u.registry.IsAttached n) (hn : u.registry.IsPresent n) :
  v.registry.IsFinished n
  := by
  apply h.unwound.isFinished_iff.mpr
  apply hn.resolve_right
  intro hc
  apply bare n hc ha

/-- Links lead from finished components to finished components. -/
theorem linked {d : Name} (hd : v.registry.DependsOn n d) :
  v.registry.IsFinished n ∧ v.registry.IsFinished d
  := by
  obtain ⟨producers, sound, -⟩ := h.whole
  have hd := h.unwound.dependsOn_iff.mp hd
  constructor
  · apply h.isFinished_of_isAttached bare (.inl ⟨d, .inl hd⟩)
    apply sound.present n d hd
  · apply h.isFinished_of_isAttached bare (.inl ⟨n, .inr hd⟩)
    apply (sound.target n d hd).resolve_right id

/-- If nothing was attached to the creations that were broken off, the container is idle. -/
theorem idle (hw : Idle c w) :
  Idle c v
  := by
  obtain ⟨producers, sound, -⟩ := h.whole
  have guard := h.guard
  refine ⟨?_, h.not_isInCreation hw⟩
  constructor
  case exempt =>
    rw [guard]
    apply hw.sound.exempt
  case limit =>
    rw [guard]
    apply hw.sound.limit
  case depth =>
    rw [guard]
    apply hw.sound.depth
  case peaceful =>
    rw [h.unwound.inDestruction]
    apply sound.peaceful
  case apart =>
    intro n hn
    apply absurd hn (h.not_isInCreation hw n)
  case offered =>
    intro n hn
    apply absurd hn (h.not_isOffered hw n)
  case producer =>
    intro n p hp
    apply absurd (.inr ⟨p, hp⟩) (h.not_isOffered hw n)
  -- whatever is left belongs to finished components
  case teardown =>
    intro n t ht
    rw [h.unwound.disposals] at ht
    obtain ⟨name, hn⟩ := sound.teardown n t ht
    use name
    left
    apply h.isFinished_of_isAttached bare (.inr ⟨t, ht⟩) hn
  case bare =>
    rw [h.unwound.graph]
    apply sound.bare
  case inverse =>
    intro n d
    rw [h.unwound.dependsOn_iff, h.unwound.graph]
    apply sound.inverse
  case present =>
    intro n d hd
    left
    apply (h.linked bare hd).1
  case firm =>
    intro n d hd _
    left
    apply (h.linked bare hd).2
  case target =>
    intro n d hd
    left
    left
    apply (h.linked bare hd).2
  case held =>
    intro n d i hn hi
    rw [World.obtained, h.unwound.memory] at hi
    obtain ⟨hd, hs⟩ := sound.held n d i (h.unwound.isFinished_iff.mp hn) hi
    use h.unwound.dependsOn_iff.mpr hd
    left
    rw [h.unwound.finished]
    apply hs.resolve_right
    intro he
    apply bare d (sound.offered d (.inl ⟨i, he⟩))
    apply Or.inl
    use n, .inr hd

end Bare

/-- What was attached to a creation that was broken off is a trace of it. -/
theorem bare_of_traceless (h : Wreck c w u v) (hv : Traceless v) (hn : u.registry.IsInCreation n) :
  ¬ u.registry.IsAttached n
  := by
  obtain ⟨producers, sound, -⟩ := h.whole
  have unfinished : ¬ v.registry.IsFinished n := by
    rw [h.unwound.isFinished_iff, Registry.not_isFinished_iff]
    apply sound.apart n hn
  rintro (⟨m, hm | hm⟩ | ⟨t, ht⟩)
  · apply unfinished
    apply (hv.tidy.dependents m n (h.unwound.dependsOn_iff.mpr hm)).2
  · apply unfinished
    apply (hv.tidy.dependents n m (h.unwound.dependsOn_iff.mpr hm)).1
  · apply unfinished
    apply hv.tidy.disposals n t
    rw [h.unwound.disposals]
    apply ht

/-- A panic leaves no trace exactly if no creation that it broke off had anything attached. -/
theorem traceless_iff (h : Wreck c w u v) (hw : Idle c w) :
  Traceless v ↔ ∀ n, u.registry.IsInCreation n → ¬ u.registry.IsAttached n
  := by
  constructor
  · intro hv n hn
    apply h.bare_of_traceless hv hn
  · intro bare
    apply (h.idle bare hw).traceless

end Wreck

namespace DaringCrew

/-- Calls that leave no trace when they panic leave the container idle. -/
theorem Follows.idle {calls : List (Call κ)} (f : crew.Follows c w calls w') (h : Idle c w) :
  Idle c w'
  := by
  induction f with
  | nil => apply h
  | @cons calls call w w' w'' outcome e clear _ ih =>
    apply ih
    rcases (h.faces_perform (crew.dutiful c) call).runs with
      ⟨o, x, ho, run⟩ | ⟨p, u, x, ⟨-, wreck⟩, -, run⟩
    · obtain ⟨-, rfl⟩ := (run outcome w').mp e
      cases o with
      | ok _ => apply ho
      | error _ => apply ho
    · obtain ⟨rfl, rfl⟩ := (run outcome w').mp e
      apply wreck.idle ((wreck.traceless_iff h).mp (clear p rfl)) h

end DaringCrew

/-- A call that creates components may end with a panic of a callback or an interceptor.  Then
nothing that was there is disturbed, nothing is in creation any more, and nothing is offered; but
the finished components, the links and the disposals are those of the moment at which the panic
broke out.  So the panic leaves no trace exactly if there was then neither a link nor a disposal
of a component in creation.  If there is no panic, no trace is left in any case. -/
theorem traceless_iff_unattached (crew : DaringCrew κ σ) (c : Container κ)
    (hc : c.settings.exemptNames = []) (definitions : Catalog (Definition κ)) (s : σ)
    {calls : List (Call κ)} (f : crew.Follows c (c.opened definitions s) calls w)
    {call : Call κ} (creates : call.creates = true) :
  (∃ outcome w', (∀ o x, crew.Ends c call w o x ↔ o = .ok outcome ∧ x = w') ∧
    Undisturbed w w' ∧ Traceless w') ∨
  ∃ p u v, (∀ o x, crew.Ends c call w o x ↔ o = .error p ∧ x = v) ∧
    Client.Crashes (crew.host c) (call.perform c).run w p u v ∧ Unwound u v ∧ Undisturbed w v ∧
    (∀ n, ¬ v.registry.IsInCreation n ∧ ¬ v.registry.IsOffered n) ∧
    (Traceless v ↔ ∀ n, u.registry.IsInCreation n → ¬ u.registry.IsAttached n)
  := by
  have h := f.idle (c.idle_opened hc definitions s)
  rcases (h.faces_creation (crew.dutiful c) creates).runs with
    ⟨outcome, w', ho, run⟩ | ⟨p, u, v, ⟨-, wreck⟩, crashes, run⟩
  · left
    have passed : Passed c w w' := by
      cases outcome with
      | ok _ => apply ho.1
      | error _ => apply ho
    use outcome, w', run, passed.undisturbed, (h.passed passed).tidy
    apply (h.passed passed).traceless.held
  · right
    refine ⟨p, u, v, run, crashes, wreck.unwound, wreck.undisturbed, ?_, wreck.traceless_iff h⟩
    intro n
    use wreck.not_isInCreation h n, wreck.not_isOffered h n

/-- What a callback does: it asks for components, and it may panic then. -/
structure Plea where
  /-- The names of the components. -/
  names : List Name
  /-- Whether it panics. -/
  fatal : Bool

/-- A crew whose callbacks ask for components, and panic if they are to.  Its memory counts the
instances that were made. -/
def DaringCrew.pleading : DaringCrew Plea Nat where
  instantiate plea _ := .consult fun k =>
    .revise (· + 1) (.asking (if plea.fatal then .error .other else .ok ⟨k⟩) plea.names)
  wire plea _ _ := .asking (if plea.fatal then .error .other else .ok ()) plea.names
  transform _ _ i k := (.ok (.ok i), k)
  make _ n := throw (.notDefined n)
  dispose _ _ _ k := (.ok (.ok ()), k)
  hear _ k := k

/-- A component that asks for others when it is populated. -/
def Definition.pleading (n : Name) (making populating : Plea) : Definition Plea where
  name := n
  instantiate := making
  populate := some populating
  init := none
  dispose := none
  dependsOn := []
  isLazy := true

/-- Two components that ask for each other, of which the first panics when it has obtained the
second; and a third one that panics while it is made. -/
def Catalog.frail : Catalog (Definition Plea) :=
  ofList [("a", .pleading "a" ⟨[], false⟩ ⟨["b"], true⟩),
    ("b", .pleading "b" ⟨[], false⟩ ⟨["a"], false⟩), ("c", .pleading "c" ⟨[], true⟩ ⟨[], false⟩)]

/-- A container with these components in which nothing has happened. -/
def Container.frail : Container Plea := ⟨⟨true, 4, [], false⟩, ∅⟩

/-- The moment after one of them was asked for. -/
def DaringCrew.afterGet (n : Name) : Situation Plea Nat :=
  ((Machine.run? (pleading.host .frail) 100 (Call.perform .frail (.get n)).run
    (Container.frail.opened .frail 0)).getD (.error .other, Container.frail.opened .frail 0)).2

/-- A component that panics before it has asked for anything leaves no trace. -/
theorem traceless_iff_unattached_early :
  DaringCrew.pleading.Ends .frail (.get "c") (Container.frail.opened .frail 0) (.error .other)
      (DaringCrew.afterGet "c") ∧
    Traceless (DaringCrew.afterGet "c")
  := by
  have ends : DaringCrew.pleading.Ends .frail (.get "c") (Container.frail.opened .frail 0)
      (.error .other) (DaringCrew.afterGet "c") := ⟨100, rfl⟩
  use ends
  have creates : (Call.get "c" : Call Plea).creates = true := rfl
  rcases traceless_iff_unattached DaringCrew.pleading .frail rfl .frail 0 (.nil _) creates with
    ⟨outcome, w', run, -⟩ | ⟨p, u, v, run, -, unwound, -, -, traceless⟩
  · cases ((run _ _).mp ends).1
  · obtain ⟨-, rfl⟩ := (run _ _).mp ends
    apply traceless.mpr
    have graph : u.registry.graph = ∅ := unwound.graph.symm
    have disposals : u.registry.disposals = ∅ := unwound.disposals.symm
    rintro n - (⟨m, hm⟩ | ⟨t, ht⟩)
    · rw [Registry.DependsOn, Registry.DependsOn, graph] at hm
      rcases hm with hm | hm
      · cases hm
      · cases hm
    · rw [disposals] at ht
      cases ht

/-- A component that panics after it was handed out leaves a trace: the component that has
obtained it is finished with an early reference to it, and the two are linked. -/
theorem not_traceless_handed_out :
  ∃ v, DaringCrew.pleading.Ends .frail (.get "a") (Container.frail.opened .frail 0)
      (.error .other) v ∧
    ¬ v.registry.IsFinished "a" ∧ v.registry.IsFinished "b" ∧ ("a", ⟨0⟩) ∈ v.obtained "b" ∧
    v.registry.DependsOn "b" "a" ∧ v.registry.DependsOn "a" "b" ∧ ¬ Traceless v
  := by
  have unfinished : ¬ (DaringCrew.afterGet "a").registry.IsFinished "a" := by
    rw [Registry.not_isFinished_iff]
    rfl
  have finished : (DaringCrew.afterGet "a").registry.IsFinished "b" := ⟨⟨1⟩, rfl⟩
  have linked : (DaringCrew.afterGet "a").registry.DependsOn "b" "a" := by rfl
  have linked' : (DaringCrew.afterGet "a").registry.DependsOn "a" "b" := by rfl
  have obtained : ("a", ⟨0⟩) ∈ (DaringCrew.afterGet "a").obtained "b" := by decide +kernel
  refine ⟨_, ⟨100, rfl⟩, unfinished, finished, obtained, linked, linked', ?_⟩
  intro traceless
  apply unfinished
  apply (traceless.tidy.dependents "a" "b" linked).1

end Componentry
