import Componentry.Proofs.Resolution

/-!
# Calls from outside

A container with a crew is called from outside when no creation is under way.  Each call ends
without a panic, whatever the callbacks of the crew do, and leaves the container `Idle` again:
sound, with nothing in creation.

Two results about every sequence of calls follow.  No component keeps a stale instance of
another one, and a call that creates components disturbs nothing that was there, whether it
succeeds or fails.
-/

namespace Componentry

open Attempt

/-- A call from outside. -/
inductive Call (κ : Type) where
  /-- Asks for a component. -/
  | get (name : Name)
  /-- Asks for a component that may be missing. -/
  | getOptional (name : Name)
  /-- Creates every component that is not lazy. -/
  | preinstantiate
  /-- Files a definition. -/
  | register (definition : Definition κ)
  /-- Destroys a component. -/
  | destroy (name : Name)
  /-- Destroys every component with a disposal, and clears the registry. -/
  | destroyAll

variable {κ σ : Type}

namespace Call

/-- The program of a call, which returns an instance, if the call asks for one and there is
one. -/
def perform (c : Container κ) : Call κ → Trial κ σ (Option Ref)
  | get n => some <$> c.resolve n none
  | getOptional n => c.resolveOptional n none
  | preinstantiate => do
    c.preinstantiate
    return none
  | register d => do
    Container.register d
    return none
  | destroy n => do
    Attempt.destroy n
    return none
  | destroyAll => do
    Attempt.destroyAll
    return none

/-- The call only creates components. -/
def creates : Call κ → Bool
  | get _ | getOptional _ | preinstantiate => true
  | register _ | destroy _ | destroyAll => false

/-- The call, made at the moment `w`, runs to its end, with an outcome or a panic, at the moment
`w'`. -/
def Ends (crew : Crew κ σ) (c : Container κ) (call : Call κ) (w : Situation κ σ)
    (outcome : Except Panic (Except Error (Option Ref))) (w' : Situation κ σ) : Prop :=
  ∃ k, Machine.run? (crew.host c) k (call.perform c).run w = some (outcome, w')

/-- Calls are made one after the other, from one moment to another. -/
inductive Follows (crew : Crew κ σ) (c : Container κ) :
    Situation κ σ → List (Call κ) → Situation κ σ → Prop
  | nil (w : Situation κ σ) : Follows crew c w [] w
  | cons {calls : List (Call κ)} {call : Call κ} {w w' w'' : Situation κ σ}
      {outcome : Except Panic (Except Error (Option Ref))} (e : call.Ends crew c w outcome w')
      (rest : Follows crew c w' calls w'') : Follows crew c w (call :: calls) w''

end Call

/-- A container with a crew and definitions in which nothing has happened. -/
def Container.opened (c : Container κ) (definitions : Catalog (Definition κ)) (s : σ) :
    Situation κ σ :=
  ⟨Registry.fresh c.settings, ⟨definitions, .blank s⟩⟩

/-- A sound container in which nothing is in creation. -/
structure Idle (c : Container κ) (w : Situation κ σ) : Prop where
  sound : Sound c noGap w
  idle : ∀ n, ¬ w.registry.IsInCreation n

variable {c : Container κ} {crew : Crew κ σ} {w w' : Situation κ σ} {n d : Name} {i : Ref}

/-- A container in which there is nothing is idle. -/
theorem Idle.of_empty (idle : ∀ n, ¬ w.registry.IsInCreation n)
    (exempt : w.registry.guard.exempt = ∅)
    (limit : w.registry.guard.limit = c.settings.maxCreationDepth)
    (depth : w.registry.guard.depth = w.registry.guard.inCreation.toList.length)
    (peaceful : w.registry.inDestruction = false) (finished : w.registry.finished = ∅)
    (early : w.registry.early = ∅) (producers : w.registry.producers = ∅)
    (graph : w.registry.graph = ∅) (disposals : ∀ n, w.registry.disposals.get? n = none) :
  Idle c w
  where
  idle := idle
  sound := by
    have finished : ∀ n, ¬ w.registry.IsFinished n := by
      intro n
      rw [Registry.not_isFinished_iff, finished]
      rfl
    have offered : ∀ n, ¬ w.registry.IsOffered n := by
      intro n
      rw [Registry.IsOffered, early, producers]
      rintro (⟨i, ⟨⟩⟩ | ⟨p, ⟨⟩⟩)
    have dependsOn : ∀ n d, ¬ w.registry.DependsOn n d := by
      intro n d
      rw [Registry.DependsOn, graph]
      rintro ⟨⟩
    constructor
    case exempt => apply exempt
    case limit => apply limit
    case depth => apply depth
    case peaceful => apply peaceful
    case apart =>
      intro n hn
      apply absurd hn (idle n)
    case offered =>
      intro n hn
      apply absurd hn (offered n)
    case producer =>
      intro n p
      rw [producers]
      rintro ⟨⟩
    case teardown =>
      intro n t
      rw [disposals n]
      rintro ⟨⟩
    case bare =>
      intro a b
      rw [graph]
      rintro ⟨⟩
    case inverse =>
      intro n d
      apply iff_of_false (dependsOn n d)
      rw [graph]
      rintro ⟨⟩
    case present =>
      intro n d hd
      apply absurd hd (dependsOn n d)
    case firm =>
      intro n d hd
      apply absurd hd (dependsOn n d)
    case target =>
      intro n d hd
      apply absurd hd (dependsOn n d)
    case held =>
      intro n d i hn
      apply absurd hn (finished n)

/-- A container that has just been opened is idle. -/
theorem Container.idle_opened (hc : c.settings.exemptNames = [])
    (definitions : Catalog (Definition κ)) (s : σ) :
  Idle c (c.opened definitions s)
  := by
  apply Idle.of_empty (fun _ => Roster.notMem_empty)
  case exempt =>
    change Roster.ofList c.settings.exemptNames = ∅
    rw [hc]
    rfl
  case disposals =>
    intro n
    rfl
  all_goals rfl

namespace Idle

/-- A container is idle again after components were created. -/
theorem passed (h : Idle c w) (hp : Passed c w w') :
  Idle c w'
  where
  sound := hp.sound
  idle n hn := h.idle n ((Registry.isInCreation_congr hp.guard).mp hn)

/-- In an idle container no early reference is on offer. -/
theorem not_isOffered (h : Idle c w) (n : Name) :
  ¬ w.registry.IsOffered n
  := h.sound.not_isOffered (h.idle n)

/-- In an idle container every component that is firm is finished. -/
theorem isFinished_of_isFirm (h : Idle c w) (hn : w.registry.IsFirm n) :
  w.registry.IsFinished n
  := hn.resolve_right (h.not_isOffered n)

theorem isFinished_of_isPresent (h : Idle c w) (hn : w.registry.IsPresent n) :
  w.registry.IsFinished n
  := hn.resolve_right (h.idle n)

/-- In an idle container the instance that stands for a name is the one to which it is bound. -/
theorem finished_of_stands (h : Idle c w) (hn : w.registry.Stands n i) :
  w.registry.finished.get? n = some i
  := by
  apply hn.resolve_right
  intro hi
  apply h.not_isOffered n (.inl ⟨i, hi⟩)

/-! ### Calls that create components -/

section Creating

variable {b : Behaviour κ (Ledger σ)} {risk : Prop}

/-- In an idle container a component is resolved to the instance to which its name is bound then. -/
theorem faces_resolve (hb : b.Dutiful c risk) (h : Idle c w) (n : Name) :
  Faces (c.host b) w (c.resolve n none)
    (fun i w' => Passed c w w' ∧ w'.registry.finished.get? n = some i)
    (fun _ w' => Passed c w w') (fun u v => risk ∧ Wreck c w u v)
  := by
  apply faces_resolve_none
  apply ((copes hb c.settings.maxCreationDepth).at_noGap (Nat.le_add_left _ _) h.sound).mono _
    (fun _ _ => id) fun _ _ => id
  intro i w' hw
  obtain ⟨hp, hi⟩ := hw
  use hp, (h.passed hp).finished_of_stands hi

/-- In an idle container several components are resolved one after the other, after which they are
finished. -/
theorem faces_resolveAll (hb : b.Dutiful c risk) (h : Idle c w) (names : List Name) :
  Faces (c.host b) w (c.resolveAll names)
    (fun _ w' => Passed c w w' ∧ ∀ n ∈ names, w'.registry.IsFinished n)
    (fun _ w' => Passed c w w') (fun u v => risk ∧ Wreck c w u v)
  := by
  induction names generalizing w with
  | nil =>
    apply Meets.faces
    apply meets_pure
    use Passed.refl h.sound
    simp
  | cons n names ih =>
    apply faces_bind
    apply faces_map
    apply (h.faces_resolve hb n).mono _ (fun _ _ => id) fun _ _ => id
    intro i w' hw
    obtain ⟨hp, hi⟩ := hw
    apply (ih (h.passed hp)).mono
    · intro _ w'' hw
      obtain ⟨hp', hn⟩ := hw
      use hp.trans hp'
      intro m hm
      rcases List.mem_cons.mp hm with rfl | hm
      · apply hp'.spares.isFinished ⟨i, hi⟩
      · apply hn m hm
    · intro _ w'' hp'
      apply hp.trans hp'
    · rintro u v ⟨hr, hw⟩
      exact ⟨hr, hw.after hp⟩

/-- Calls that create components end, and nothing is lost, unless there is a panic. -/
theorem faces_creation (hb : b.Dutiful c risk) (h : Idle c w) {call : Call κ}
    (hc : call.creates = true) :
  Faces (c.host b) w (call.perform c)
    (fun _ w' => Passed c w w' ∧ (call = .preinstantiate →
      ∀ n ∈ Container.eagerNames w.memory, w'.registry.IsFinished n))
    (fun _ w' => Passed c w w') (fun u v => risk ∧ Wreck c w u v)
  := by
  cases call with
  | get n =>
    apply faces_map
    apply (h.faces_resolve hb n).mono _ (fun _ _ => id) fun _ _ => id
    intro i w' hw
    obtain ⟨hp, -⟩ := hw
    use hp
    rintro ⟨⟩
  | getOptional n =>
    apply faces_resolveOptional
    · use Passed.refl h.sound
      rintro ⟨⟩
    · apply (h.faces_resolve hb n).mono _ _ fun _ _ => id
      · intro i w' hw
        obtain ⟨hp, -⟩ := hw
        use hp
        rintro ⟨⟩
      · intro e w' hp
        use hp.alike (Alike.suppress w' e)
        rintro ⟨⟩
  | preinstantiate =>
    apply faces_bind
    apply faces_bind
    apply Meets.faces
    apply meets_recalls
    apply (h.faces_resolveAll hb (Container.eagerNames w.memory)).mono _ (fun _ _ => id)
      fun _ _ => id
    intro _ w' hw
    obtain ⟨hp, hn⟩ := hw
    apply Meets.faces
    apply meets_pure
    use hp
    intro _
    apply hn
  | register | destroy | destroyAll => cases hc

end Creating

/-- A call that creates components leaves what a creation leaves; to create the eager ones in
advance finishes them all, if it succeeds. -/
theorem meets_creation (crew : Crew κ σ) (h : Idle c w) {call : Call κ}
    (hc : call.creates = true) :
  Meets (crew.host c) w (call.perform c)
    (fun _ w' => Passed c w w' ∧ (call = .preinstantiate →
      ∀ n ∈ Container.eagerNames w.memory, w'.registry.IsFinished n))
    (fun _ w' => Passed c w w')
  := by
  apply Faces.meets
  apply (h.faces_creation (crew.dutiful c) hc).mono (fun _ _ => id) fun _ _ => id
  intro u v hw
  apply hw.1

/-! ### Calls that destroy components -/

/-- A container is idle again after components were destroyed. -/
theorem razed {D : List Name} (h : Idle c w) (hz : Razed D w w') :
  Idle c w'
  where
  sound := hz.sound h.sound
  idle n hn := h.idle n (hz.isInCreation_iff.mp hn)

section Destroying

variable {host : Host (Recipe κ) (Teardown κ) (Site κ (Ledger σ))}
  {dispose : κ → Name → Option Ref → σ → Except Panic (Except String Unit) × σ}
  {hear : Notice → σ → σ}

/-- The destruction of a component comes to its end, and the container is idle again. -/
theorem meets_destroy {S : Unit → Situation κ σ → Prop} {F : Error → Situation κ σ → Prop}
    (keeps : host.Keeps dispose hear) (h : Idle c w) (n : Name) (hS : ∀ w', Idle c w' → S () w') :
  Meets host w (Attempt.destroy n) S F
  := by
  obtain ⟨w', D, ran, hw'⟩ := keeps.demolish [n] w h.sound.fits
  apply Attempt.meets_destroy hw'.tears
  apply hS
  apply h.razed hw'.razed

/-- What is left when everything was destroyed. -/
theorem cleared (h : Idle c w) (hg : w'.registry.guard = w.registry.guard)
    (hd : ∀ n, w'.registry.disposals.get? n = none) :
  Idle c (w'.onRegistry (·.clear))
  := by
  have guard : (w'.onRegistry (·.clear)).registry.guard = w.registry.guard := hg
  apply Idle.of_empty
  case idle =>
    intro n hn
    apply h.idle n ((Registry.isInCreation_congr guard).mp hn)
  case exempt =>
    rw [guard]
    apply h.sound.exempt
  case limit =>
    rw [guard]
    apply h.sound.limit
  case depth =>
    rw [guard]
    apply h.sound.depth
  case disposals => apply hd
  all_goals rfl

/-- The destruction of everything comes to its end, and the container is idle again. -/
theorem meets_destroyAll {S : Unit → Situation κ σ → Prop} {F : Error → Situation κ σ → Prop}
    (keeps : host.Keeps dispose hear) (h : Idle c w) (hS : ∀ w', Idle c w' → S () w') :
  Meets host w Attempt.destroyAll S F
  := by
  obtain ⟨w', D, ran, hw'⟩ := keeps.demolish w.registry.disposals.names.reverse
    (w.onRegistry (·.beginDestruction)) h.sound.fits
  apply Attempt.meets_destroyAll (hw'.tears.append (Machine.tears_clear w'))
  apply hS
  apply h.cleared hw'.course.struck.guard
  intro n
  rw [hw'.razed.disposals]
  split
  · rfl
  · rename_i hn
    rw [Option.eq_none_iff_forall_ne_some]
    intro t ht
    apply hn
    apply hw'.course.subset
    rw [List.mem_reverse, Catalog.mem_names_iff]
    use t
    apply ht

end Destroying

/-- A container stays idle, whatever definitions are filed in it. -/
theorem registered (h : Idle c w) (definitions : Catalog (Definition κ)) :
  Idle c { w with memory := { w.memory with definitions := definitions } }
  where
  idle := h.idle
  sound := { h.sound with }

/-- Every call ends, and leaves the container idle, unless there is a panic. -/
theorem faces_perform {b : Behaviour κ (Ledger σ)} {risk : Prop} (hb : b.Dutiful c risk)
    (h : Idle c w) (call : Call κ) :
  Faces (c.host b) w (call.perform c) (fun _ => Idle c) (fun _ => Idle c)
    (fun u v => risk ∧ Wreck c w u v)
  := by
  by_cases hc : call.creates = true
  · apply (h.faces_creation hb hc).mono _ _ fun _ _ => id
    · intro _ w' hw
      obtain ⟨hp, -⟩ := hw
      apply h.passed hp
    · intro _ w' hp
      apply h.passed hp
  · apply Meets.faces
    obtain ⟨dispose, hear, keeps⟩ := hb.keeps
    cases call with
    | get | getOptional | preinstantiate => apply absurd rfl hc
    | register d =>
      apply meets_bind
      apply meets_revise
      apply meets_pure
      apply h.registered
    | destroy n =>
      apply meets_bind
      apply h.meets_destroy keeps n
      intro w' hw'
      apply meets_pure
      apply hw'
    | destroyAll =>
      apply meets_bind
      apply h.meets_destroyAll keeps
      intro w' hw'
      apply meets_pure
      apply hw'

/-- Every call comes to its end, and the container is idle again. -/
theorem meets_perform (crew : Crew κ σ) (h : Idle c w) (call : Call κ) :
  Meets (crew.host c) w (call.perform c) (fun _ => Idle c) (fun _ => Idle c)
  := by
  apply Faces.meets
  apply (h.faces_perform (crew.dutiful c) call).mono (fun _ _ => id) fun _ _ => id
  intro u v hw
  apply hw.1

/-- After a call the container is idle again. -/
theorem of_ends (h : Idle c w) {call : Call κ}
    {outcome : Except Panic (Except Error (Option Ref))} (e : call.Ends crew c w outcome w') :
  Idle c w'
  := by
  obtain ⟨o, v, ho, run⟩ := (h.meets_perform crew call).runs
  obtain ⟨-, rfl⟩ := (run outcome w').mp e
  cases o with
  | ok _ => apply ho
  | error _ => apply ho

/-- After any calls the container is idle again. -/
theorem of_follows (h : Idle c w) {calls : List (Call κ)} (f : Call.Follows crew c w calls w') :
  Idle c w'
  := by
  induction f with
  | nil => apply h
  | cons e _ ih => apply ih (h.of_ends e)

/-- Any calls can be made. -/
theorem exists_follows (crew : Crew κ σ) (h : Idle c w) (calls : List (Call κ)) :
  ∃ w', Call.Follows crew c w calls w'
  := by
  induction calls generalizing w with
  | nil =>
    use w
    apply Call.Follows.nil
  | cons call calls ih =>
    obtain ⟨o, w', -, run⟩ := (h.meets_perform crew call).runs
    have e : call.Ends crew c w (.ok o) w' := (run (.ok o) w').mpr ⟨rfl, rfl⟩
    obtain ⟨w'', f⟩ := ih (h.of_ends e)
    use w''
    apply Call.Follows.cons e f

end Idle

/-! ### What components have obtained -/

/-- No component keeps a stale instance.  Whatever calls are made, what a finished component has
obtained of another one while it was created is the finished instance of that one, and the two
are linked. -/
theorem obtained_current (crew : Crew κ σ) (c : Container κ)
    (hc : c.settings.exemptNames = []) (definitions : Catalog (Definition κ)) (s : σ)
    (calls : List (Call κ)) :
  (∃ w, Call.Follows crew c (c.opened definitions s) calls w) ∧
  ∀ w, Call.Follows crew c (c.opened definitions s) calls w →
    ∀ n d i, w.registry.IsFinished n → (d, i) ∈ w.obtained n →
      w.registry.finished.get? d = some i ∧ n ∈ w.registry.graph.dependentsOf d ∧
      d ∈ w.registry.graph.dependenciesOf n
  := by
  have h₀ := c.idle_opened hc definitions s
  constructor
  · apply h₀.exists_follows crew calls
  · intro w f n d i hn hi
    have h := h₀.of_follows f
    obtain ⟨hd, hs⟩ := h.sound.held n d i hn hi
    use h.finished_of_stands hs, mem_dependentsOf.mpr hd
    rw [Graph.dependenciesOf, ← Roster.mem_iff, ← Roster.contains_iff]
    apply (h.sound.inverse n d).mp hd

/-- A small container that allows early references. -/
def Container.small : Container (List Name) := ⟨⟨true, 4, [], false⟩, ∅⟩

/-- Two components that ask for each other, and a third one that asks for the first and for one
that is not defined. -/
def Catalog.trio : Catalog (Definition (List Name)) :=
  ofList [("a", .asking "a" [] ["b"]), ("b", .asking "b" [] ["a"]), ("c", .asking "c" ["a", "d"] [])]

/-- The moment after a component of the three was asked for. -/
def Call.afterGet (n : Name) (w : Situation (List Name) Nat) : Situation (List Name) Nat :=
  ((Machine.run? (Crew.asking.host .small) 100 (perform .small (.get n)).run w).getD
    (.error .other, w)).2

theorem Call.follows_afterGet :
  Follows Crew.asking .small (Container.small.opened .trio 0) [.get "a"]
    (afterGet "a" (Container.small.opened .trio 0))
  := by
  have e : (Call.get "a").Ends Crew.asking .small (Container.small.opened .trio 0)
      (.ok (.ok (some ⟨0⟩))) (afterGet "a" (Container.small.opened .trio 0)) := ⟨100, rfl⟩
  apply Follows.cons e (Follows.nil _)

/-- In a cycle of two, each component holds the finished instance of the other. -/
theorem obtained_current_cycle :
  ∃ w, Call.Follows Crew.asking .small (Container.small.opened .trio 0) [.get "a"] w ∧
    ("b", ⟨1⟩) ∈ w.obtained "a" ∧ w.registry.finished.get? "b" = some ⟨1⟩ ∧
    ("a", ⟨0⟩) ∈ w.obtained "b" ∧ w.registry.finished.get? "a" = some ⟨0⟩
  := by
  have current := (obtained_current Crew.asking .small rfl .trio 0 [.get "a"]).2 _
    Call.follows_afterGet
  have hb : ("b", ⟨1⟩) ∈ (Call.afterGet "a" (Container.small.opened .trio 0)).obtained "a" := by
    decide +kernel
  have ha : ("a", ⟨0⟩) ∈ (Call.afterGet "a" (Container.small.opened .trio 0)).obtained "b" := by
    decide +kernel
  use Call.afterGet "a" (Container.small.opened .trio 0), Call.follows_afterGet, hb
  use (current "a" "b" ⟨1⟩ ⟨⟨0⟩, rfl⟩ hb).1, ha
  apply (current "b" "a" ⟨0⟩ ⟨⟨1⟩, rfl⟩ ha).1

/-! ### What a creation leaves as it was -/

/-- Every component that was finished at the first moment is finished with the same instance at
the second one, and its disposal is due as it was and has not run. -/
structure Undisturbed (w w' : Situation κ σ) : Prop where
  finished : ∀ n i, w.registry.finished.get? n = some i → w'.registry.finished.get? n = some i
  due : ∀ n, w.registry.IsFinished n →
    w'.registry.disposals.get? n = w.registry.disposals.get? n
  disposed : ∃ ran, w'.disposed = w.disposed ++ ran ∧ ∀ n, w.registry.IsFinished n → n ∉ ran

/-- Nothing is left of a creation but finished components with their links and disposals. -/
structure Tidy (w : Situation κ σ) : Prop where
  inCreation : w.registry.guard.inCreation = ∅
  depth : w.registry.guard.depth = 0
  early : w.registry.early.isEmpty = true
  producers : w.registry.producers.isEmpty = true
  dependents : ∀ a b, w.registry.graph.dependents.has a b = true →
    w.registry.IsFinished a ∧ w.registry.IsFinished b
  dependencies : ∀ a b, w.registry.graph.dependencies.has a b = true →
    w.registry.IsFinished a ∧ w.registry.IsFinished b
  contained : ∀ a b, ¬ w.registry.graph.contained.has a b = true
  disposals : ∀ n t, w.registry.disposals.get? n = some t → w.registry.IsFinished n

/-- Where components were created, nothing is disturbed that was there before. -/
theorem Passed.undisturbed (h : Passed c w w') :
  Undisturbed w w'
  where
  finished := h.spares.finished
  due n hn := h.spares.disposal n (.inl hn) id
  disposed := by
    obtain ⟨ran, hr, hn⟩ := h.spares.disposed
    use ran, hr
    intro n hf hm
    apply hn n hm hf

/-- An idle container is tidy: no trace of a creation is left in it. -/
theorem Idle.tidy (h : Idle c w) :
  Tidy w
  := by
  have guard : w.registry.guard.inCreation = ∅ := by
    apply Roster.ext
    rw [Roster.toList_empty, List.eq_nil_iff_forall_not_mem]
    apply h.idle
  -- without creations under way everything that is there is finished
  have links : ∀ n d, w.registry.DependsOn n d →
      w.registry.IsFinished n ∧ w.registry.IsFinished d := by
    intro n d hd
    use h.isFinished_of_isPresent (h.sound.present n d hd)
    apply h.isFinished_of_isPresent
    apply (h.sound.target n d hd).resolve_right id
  constructor
  case inCreation => apply guard
  case depth =>
    rw [h.sound.depth, guard]
    rfl
  case early =>
    rw [Catalog.isEmpty_iff_get?]
    intro n
    rw [Option.eq_none_iff_forall_ne_some]
    intro i hi
    apply h.not_isOffered n (.inl ⟨i, hi⟩)
  case producers =>
    rw [Catalog.isEmpty_iff_get?]
    intro n
    rw [Option.eq_none_iff_forall_ne_some]
    intro p hp
    apply h.not_isOffered n (.inr ⟨p, hp⟩)
  case dependents =>
    intro a b hab
    apply (links b a hab).symm
  case dependencies =>
    intro a b hab
    apply links a b ((h.sound.inverse a b).mpr hab)
  case contained => apply h.sound.bare
  case disposals =>
    intro n t ht
    apply h.isFinished_of_isPresent (h.sound.teardown n t ht).2

/-- A component whose definition is not lazy is among those that are created in advance. -/
theorem Container.mem_eagerNames {m : Site κ σ} {definition : Definition κ}
    (hd : m.definitions.get? n = some definition) (hl : definition.isLazy = false) :
  n ∈ eagerNames m
  := by
  apply List.mem_map.mpr
  use (n, definition)
  rw [List.mem_filter, hl]
  use ⟨Catalog.mem_entries_of_get? hd, rfl⟩

/-- A call that creates components disturbs nothing that was there, and leaves nothing behind but
what it has finished, whether it succeeds or fails.  If everything that is not lazy was to be
created and the call succeeds, then all of that is finished. -/
theorem creation_undisturbing (crew : Crew κ σ) (c : Container κ)
    (hc : c.settings.exemptNames = []) (definitions : Catalog (Definition κ)) (s : σ)
    {calls : List (Call κ)} (f : Call.Follows crew c (c.opened definitions s) calls w)
    {call : Call κ} (creates : call.creates = true) :
  ∃ outcome w', (∀ o v, call.Ends crew c w o v ↔ o = .ok outcome ∧ v = w') ∧
    Undisturbed w w' ∧ Tidy w' ∧
    (call = .preinstantiate → (∃ i?, outcome = .ok i?) →
      ∀ n definition, w'.definitions.get? n = some definition → definition.isLazy = false →
        w'.registry.IsFinished n)
  := by
  have h := (c.idle_opened hc definitions s).of_follows f
  obtain ⟨outcome, w', ho, run⟩ := (h.meets_creation crew creates).runs
  use outcome, w', run
  cases outcome with
  | error e =>
    have hp : Passed c w w' := ho
    use hp.undisturbed, (h.passed hp).tidy
    rintro _ ⟨i?, ⟨⟩⟩
  | ok i? =>
    obtain ⟨hp, eager⟩ := ho
    use hp.undisturbed, (h.passed hp).tidy
    intro hcall _ n definition hd hl
    apply eager hcall n
    rw [hp.spares.definitions] at hd
    apply Container.mem_eagerNames hd hl

/-- A component that fails for want of another one leaves the two that it found as they were. -/
theorem creation_undisturbing_failure :
  ∃ w w' : Situation (List Name) Nat, ∃ e,
    Call.Follows Crew.asking .small (Container.small.opened .trio 0) [.get "a"] w ∧
    (Call.get "c").Ends Crew.asking .small w (.ok (.error e)) w' ∧ Undisturbed w w' ∧ Tidy w'
  := by
  have e : (Call.get "c").Ends Crew.asking .small
      (Call.afterGet "a" (Container.small.opened .trio 0))
      (.ok (.error (.creation "c" (.notDefined "d") [])))
      (Call.afterGet "c" (Call.afterGet "a" (Container.small.opened .trio 0))) := ⟨100, rfl⟩
  have creates : (Call.get "c" : Call (List Name)).creates = true := rfl
  obtain ⟨outcome, w', run, undisturbed, tidy, -⟩ := creation_undisturbing Crew.asking .small rfl
    .trio 0 Call.follows_afterGet creates
  obtain ⟨-, rfl⟩ := (run _ _).mp e
  refine ⟨_, _, _, Call.follows_afterGet, e, undisturbed, tidy⟩

end Componentry
