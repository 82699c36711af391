import Componentry.Proofs.Razing

/-!
# Rules for the requests of a container

Each program of which the resolution of a name consists has a rule here, for a container that is
sound at its beginning: resolving a name alone, with a requester, or optionally; the creation of
a component, with what a destruction leaves if its construction fails; and the choice of the
instance that is exposed.  The rules leave open what is made of the moments in between.

The callbacks are those of any behaviour, and may panic.  Where they are those of a crew, which does
not panic, a rule is stated once more without panics.
-/

namespace Componentry

open Attempt Relation

/-- What a lookup comes to: an instance that stands, an early reference that is still to be made,
or nothing.  What is not finished is looked up only while it is in creation. -/
theorem Registry.sight_cases {φ δ : Type} (r : Registry φ δ) (n : Name) (early : Bool) :
  (∃ i, r.Stands n i ∧ r.sight n early = .settled (some i)) ∨
  (∃ p, early = true ∧ r.IsInCreation n ∧ r.finished.get? n = none ∧
    r.early.get? n = none ∧ r.producers.get? n = some p ∧
    r.sight n early = .pending p { r with producers := r.producers.erase n }) ∨
  (r.finished.get? n = none ∧ (r.IsInCreation n → r.early.get? n = none) ∧
    (r.IsInCreation n → early = true → ¬ r.IsOffered n) ∧ r.sight n early = .settled none)
  := by
  unfold sight
  cases hf : r.finished.get? n with
  | some i =>
    left
    use i, .inl hf
  | none =>
    by_cases hc : r.guard.isEntered n = true
    · have hc' : r.IsInCreation n := Roster.contains_iff.mp hc
      simp only [hc, Bool.not_true, Bool.false_eq_true, if_false]
      cases he : r.early.get? n with
      | some i =>
        left
        use i, .inr he
      | none =>
        right
        cases early with
        | false =>
          right
          simp
        | true =>
          cases hp : r.producers.get? n with
          | some p =>
            left
            use p, rfl, hc'
          | none =>
            right
            simp [IsOffered, he, hp]
    · have hc' : ¬ r.IsInCreation n := fun h => hc (Roster.contains_iff.mpr h)
      right
      right
      simp [hc, hc']

variable {κ σ α : Type} {c : Container κ} {b : Behaviour κ (Ledger σ)} {crew : Crew κ σ}
  {host : Host (Recipe κ) (Teardown κ) (Site κ (Ledger σ))} {gap : Name → Name → Prop}
  {w : Situation κ σ} {n d : Name} {S : Ref → Situation κ σ → Prop}
  {F : Error → Situation κ σ → Prop} {P : Situation κ σ → Situation κ σ → Prop}

/-! ### Resolving a name -/

/-- The container when a producer of early references was taken out, which is to be run. -/
def World.producing (w : Situation κ σ) (n : Name) : Situation κ σ :=
  w.onRegistry fun r => { r with producers := r.producers.erase n }

/-- Resolving a name comes to an instance that stands, to the making of an early reference, or to
a creation, unless the name is not defined. -/
theorem Sound.faces_resolveAlone (h : Sound c gap w)
    (stands : ∀ i, w.registry.Stands d i → S i w)
    (produce : ∀ raw, w.registry.IsInCreation d → w.registry.early.get? d = none →
      w.registry.producers.get? d = some (.earlyReference d raw) →
      Faces (c.host b) (w.producing d) (c.intercept b .earlyReference d raw)
        (fun i w' => S i (w'.onRegistry (·.memoize d i)))
        (fun e w' => F e (w'.onRegistry (·.restore d (.earlyReference d raw)))) P)
    (missing : w.definitions.get? d = none → F (.notDefined d) w)
    (create : ∀ definition, w.definitions.get? d = some definition →
      w.registry.finished.get? d = none →
      (w.registry.IsInCreation d → c.settings.allowCircularReferences = true →
        ¬ w.registry.IsOffered d) →
      Faces (c.host b) w (Attempt.create d (.component d definition)) (fun m => S m.ref) F P) :
  Faces (c.host b) w (c.resolveAlone d) S F P
  := by
  rw [Container.resolveAlone]
  apply faces_bind
  rcases w.registry.sight_cases d c.settings.allowCircularReferences with
    ⟨i, hi, hs⟩ | ⟨p, -, hc, hf, he, hp, hs⟩ | ⟨hf, -, ho, hs⟩
  · apply Meets.faces
    apply meets_lookup_settled hs
    apply Meets.faces
    apply meets_pure
    apply stands i hi
  · apply faces_lookup_pending hs
    obtain ⟨raw, rfl⟩ := h.producer d p hp
    apply (produce raw hc he hp).mono _ (fun _ _ => id) fun _ _ => id
    intro i w' hi
    apply Meets.faces
    apply meets_pure hi
  · apply Meets.faces
    apply meets_lookup_settled hs
    apply faces_bind
    apply Meets.faces
    apply meets_recalls
    cases hd : w.memory.definitions.get? d with
    | none =>
      apply Meets.faces
      apply meets_throw
      apply missing hd
    | some definition =>
      apply faces_bind
      apply (create definition hd hf ho).mono _ (fun _ _ => id) fun _ _ => id
      intro m w' hm
      apply Meets.faces
      apply meets_pure hm

/-- For a crew, the making of an early reference is a matter of the memory. -/
theorem Sound.meets_resolveAlone (h : Sound c gap w)
    (stands : ∀ i, w.registry.Stands d i → S i w)
    (made : ∀ raw i own, w.registry.IsOffered d → w.registry.early.get? d = none →
      crew.passBy .earlyReference d c.chain.entries raw w.memory.scratch.own = (.ok i, own) →
      S i ((w.noting (·.withOwn own)).memoizing d i))
    (failed : ∀ raw e own w', w.registry.IsOffered d →
      crew.passBy .earlyReference d c.chain.entries raw w.memory.scratch.own = (.error e, own) →
      Alike w w' → F e w')
    (missing : w.definitions.get? d = none → F (.notDefined d) w)
    (create : ∀ definition, w.definitions.get? d = some definition →
      w.registry.finished.get? d = none →
      (w.registry.IsInCreation d → c.settings.allowCircularReferences = true →
        ¬ w.registry.IsOffered d) →
      Meets (crew.host c) w (Attempt.create d (.component d definition)) (fun m => S m.ref) F) :
  Meets (crew.host c) w (c.resolveAlone d) S F
  := by
  apply Faces.meets
  apply h.faces_resolveAlone stands _ missing
  · intro definition hd hf ho
    apply (create definition hd hf ho).faces
  intro raw hc he hp
  apply Meets.faces
  apply meets_intercept
  intro outcome own ho
  cases outcome with
  | ok i => apply made raw i own (.inr ⟨_, hp⟩) he ho
  | error e =>
    apply failed raw e own _ (.inr ⟨_, hp⟩) ho
    apply (Alike.noting w own).trans
    apply Alike.restoring (w := w.noting (·.withOwn own)) hc (h.apart d hc) hp

theorem faces_resolve_none (h : Faces host w (c.resolveAlone d) S F P) :
  Faces host w (c.resolve d none) S F P
  := by
  apply faces_bind
  apply h.mono _ (fun _ _ => id) fun _ _ => id
  intro i w' hi
  apply Meets.faces
  apply meets_pure hi

theorem meets_resolve_none (h : Meets host w (c.resolveAlone d) S F) :
  Meets host w (c.resolve d none) S F
  := (faces_resolve_none h.faces).meets

/-- To resolve a name for a component records the dependency when the name is resolved. -/
theorem faces_resolve_some
    (h : Faces host w (c.resolveAlone d) (fun i w' => S i (w'.depending d n)) F P) :
  Faces host w (c.resolve d (some n)) S F P
  := by
  apply faces_bind
  apply h.mono _ (fun _ _ => id) fun _ _ => id
  intro i w' hi
  apply Meets.faces
  apply meets_bind
  apply meets_edit
  apply meets_pure hi

/-- A request through the context records the dependency, or puts a layer around the error. -/
theorem faces_request
    (h : Faces host w (c.resolveAlone d) (fun i w' => S i (w'.depending d n))
      (fun e => F (.creation n e [])) P) :
  Faces host w (c.request n d) S F P
  := by
  apply faces_mapError
  apply faces_resolve_some h

/-- The same for callbacks that do not panic. -/
theorem meets_request
    (h : Meets host w (c.resolveAlone d) (fun i w' => S i (w'.depending d n))
      (fun e => F (.creation n e []))) :
  Meets host w (c.request n d) S F
  := (faces_request h.faces).meets

/-- Resolving a name optionally sets a failure aside. -/
theorem faces_resolveOptional {requester : Option Name} {S : Option Ref → Situation κ σ → Prop}
    (unknown : S none w)
    (known : Faces host w (c.resolve d requester) (fun i => S (some i))
      (fun e w' => S none (w'.onRegistry (·.suppress e))) P) :
  Faces host w (c.resolveOptional d requester) S F P
  := by
  apply faces_bind
  rw [Container.isKnown]
  apply Meets.faces
  apply meets_bind
  apply meets_reads
  apply meets_bind
  apply meets_recalls
  apply meets_pure
  split
  · apply faces_tryCatch
    apply faces_map
    apply known.mono (fun _ _ => id) _ fun _ _ => id
    intro e w' he
    apply Meets.faces
    apply meets_bind
    apply meets_edit
    apply meets_pure he
  · apply Meets.faces
    apply meets_pure unknown

/-! ### Creating a component -/

/-- A creation is refused, or its component is constructed with its name in the guard.  If the
construction fails, the component is destroyed with all that depends on it; if it panics, the
creation is broken off, and that is all. -/
theorem Sound.faces_create {definition : Definition κ} (h : Sound c gap w)
    {dispose : κ → Name → Option Ref → σ → Except Panic (Except String Unit) × σ}
    {hear : Notice → σ → σ} (keeps : (c.host b).Keeps dispose hear)
    (hn : w.registry.finished.get? n = none)
    (deep : c.settings.maxCreationDepth ≤ w.registry.guard.depth →
      F (.depthExceeded w.registry.guard.depth) w)
    (again : w.registry.IsInCreation n → F (.currentlyInCreation n) w)
    (run : w.registry.guard.depth < c.settings.maxCreationDepth → ¬ w.registry.IsInCreation n →
      ∀ v, Alike (w.onRegistry (·.enter n)) v →
      Faces (c.host b) v (c.construct b n definition)
        (fun i v' => v'.registry.finished.get? n = none ∧
          v'.registry.guard = w.registry.guard.entered n ∧
          ∀ w', Alike (v'.installing w.registry.guard n i) w' → S i w')
        (fun e v' => v'.registry.guard = w.registry.guard.entered n ∧
          (v'.registry.Fits fun m t => t.name = m) ∧
          ∀ D v'' w' causes, n ∈ D → (∀ a ∈ D, ReflTransGen v'.registry.graph.Pulls n a) →
            Razed D v' v'' → Alike (v''.abandoning w.registry.guard n) w' →
            F (e.withRelated n causes) w')
        (fun u v' => ∀ collects, P u (v'.onRegistry (·.abandon n collects)))) :
  Faces (c.host b) w (Attempt.create n (.component n definition)) (fun m => S m.ref) F P
  := by
  rcases Registry.beginCreation_cases h.exempt h.peaceful hn with
    ⟨hd, hb⟩ | ⟨hc, hb⟩ | ⟨hd, hc, collects, suppressed, hb⟩
  · apply Meets.faces
    apply meets_create_refused hb
    apply deep
    rw [← h.limit]
    apply hd
  · apply Meets.faces
    apply meets_create_refused hb
    apply again hc
  · rw [h.limit] at hd
    have left : ∀ v : Situation κ σ, v.registry.guard = w.registry.guard.entered n →
        (v.registry.guard.leave n).2 = none := by
      intro v hv
      rw [hv, Guard.leave_entered h.exempt hc]
    apply faces_create_admitted keeps.hear hb
    change Faces _ _ (c.constructOrDestroy b n definition) _ _ _
    apply faces_tryCatch
    apply (run hd hc _ _).mono
    · intro i v hv
      obtain ⟨hf, hg, hS⟩ := hv
      use hf, left v hg
      apply hS
      obtain ⟨suppressed, hl⟩ := Registry.leave_of_entered hg h.exempt hc collects
      rw [hl]
      apply Alike.intro (v.installing w.registry.guard n i) suppressed
    · intro e v hv
      -- the construction has failed, and what there is of the component is destroyed
      obtain ⟨hg, hfit, hF⟩ := hv
      obtain ⟨v', D, ran, hv⟩ := keeps.demolish [n] v hfit
      have hD : n ∈ D := hv.course.subset n (List.mem_singleton_self n)
      have hg' : v'.registry.guard = w.registry.guard.entered n := hv.course.struck.guard.trans hg
      apply Meets.faces
      apply meets_bind
      apply meets_destroy hv.tears
      apply meets_throw
      refine ⟨?_, left v' hg', ?_⟩
      · rw [hv.razed.finished, if_pos hD]
      · intro causes
        apply hF D v' _ causes hD _ hv.razed
        · obtain ⟨suppressed, hl⟩ := Registry.leave_of_entered hg' h.exempt hc collects
          rw [hl]
          apply Alike.intro (v'.abandoning w.registry.guard n) suppressed
        · intro a ha
          obtain ⟨m, hm, p⟩ := hv.course.reached a ha
          rw [List.mem_singleton.mp hm] at p
          apply p
    · intro u v hv
      apply hv collects
    · apply Alike.intro (w.onRegistry (·.enter n)) suppressed

/-- A creation is refused if creations are nested too deeply or the component is in creation, and
otherwise ends as its construction does. -/
theorem Sound.meets_create {definition : Definition κ} (h : Sound c gap w)
    (hn : w.registry.finished.get? n = none)
    (deep : c.settings.maxCreationDepth ≤ w.registry.guard.depth →
      F (.depthExceeded w.registry.guard.depth) w)
    (again : w.registry.IsInCreation n → F (.currentlyInCreation n) w)
    (run : w.registry.guard.depth < c.settings.maxCreationDepth → ¬ w.registry.IsInCreation n →
      ∀ v, Alike (w.onRegistry (·.enter n)) v →
      Meets (crew.host c) v (c.construct (crew.behaviour c) n definition)
        (fun i v' => v'.registry.finished.get? n = none ∧
          v'.registry.guard = w.registry.guard.entered n ∧
          ∀ w', Alike (v'.installing w.registry.guard n i) w' → S i w')
        (fun e v' => v'.registry.guard = w.registry.guard.entered n ∧
          (v'.registry.Fits fun m t => t.name = m) ∧
          ∀ D v'' w' causes, n ∈ D → (∀ a ∈ D, ReflTransGen v'.registry.graph.Pulls n a) →
            Razed D v' v'' → Alike (v''.abandoning w.registry.guard n) w' →
            F (e.withRelated n causes) w')) :
  Meets (crew.host c) w (Attempt.create n (.component n definition)) (fun m => S m.ref) F
  := by
  apply Faces.meets
  apply h.faces_create (crew.keeps_host c) hn deep again
  intro hd hc v hv
  apply (run hd hc v hv).faces

/-- The container when a component is offered, if early references are allowed. -/
def World.offering (w : Situation κ σ) (c : Container κ) (n : Name) (raw : Ref) :
    Situation κ σ :=
  if c.settings.allowCircularReferences then w.publishing n (.earlyReference n raw) else w

/-- The container when the disposal of a component is set up, if there is one. -/
def World.arranging (w : Situation κ σ) (n : Name) (k? : Option κ) (i : Ref) : Situation κ σ :=
  match k? with
  | some k => w.awaiting n (.hook n k i)
  | none => w

/-- A choice between two attempts, with the same after both, may be made before. -/
theorem faces_ite_bind {early : Bool} {x y : Trial κ (Ledger σ) α} {k : α → Trial κ (Ledger σ) Ref}
    (h : Faces host w (if early = true then x else y) (fun a w' => Faces host w' (k a) S F P) F P) :
  Faces host w (if early = true then x >>= k else y >>= k) S F P
  := by
  cases early with
  | true => apply faces_bind h
  | false => apply faces_bind h

/-- A construction goes on from the world in which its component is offered, if this is allowed. -/
theorem faces_offering {raw : Ref} {k : Trial κ (Ledger σ) Ref}
    (h : Faces host (w.offering c n raw) k S F P) :
  Faces host w
    (if c.settings.allowCircularReferences = true then do
      discard (Attempt.edit (.publish n (.earlyReference n raw)))
      k
    else k) S F P
  := by
  rw [World.offering] at h
  by_cases ha : c.settings.allowCircularReferences = true
  · rw [if_pos ha] at h ⊢
    apply faces_bind
    apply Meets.faces
    apply meets_map
    apply meets_edit h
  · rw [if_neg ha] at h ⊢
    apply h

/-- A construction goes through its parts in turn, and fails or panics with the first that does.
What holds after each part is left open. -/
theorem faces_construct {definition : Definition κ} {prepared : Situation κ σ → Prop}
    {made : Ref → Situation κ σ → Prop} {populated : Ref → Situation κ σ → Prop}
    {begun : Ref → Ref → Situation κ σ → Prop} {ready : Ref → Ref → Situation κ σ → Prop}
    {exposed : Ref → Ref → Situation κ σ → Prop}
    (dependencies : Faces host w (c.createDependencies n definition.dependsOn)
      (fun _ => prepared) F P)
    (instantiate : ∀ w, prepared w → Faces host w (b.instantiate definition.instantiate n) made F P)
    (inCreation : ∀ raw w, made raw w → w.registry.guard.isCurrentlyInCreation n = true)
    (populate : ∀ raw w, made raw w →
      Faces host (w.offering c n raw) (Container.wireWith b definition.populate n raw)
        (fun _ => populated raw) F P)
    (beforeInit : ∀ raw w, populated raw w →
      Faces host w (c.intercept b .beforeInit n raw) (begun raw) F P)
    (init : ∀ raw i w, begun raw i w →
      Faces host w (Container.wireWith b definition.init n i) (fun _ => ready raw i) F P)
    (afterInit : ∀ raw i w, ready raw i w →
      Faces host w (c.intercept b .afterInit n i) (exposed raw) F P)
    (settle : ∀ raw i w, exposed raw i w →
      Faces host w
        (if c.settings.allowCircularReferences then Container.settle n raw i else pure i)
        (fun i w => S i (w.arranging n definition.dispose i)) F P) :
  Faces host w (c.construct b n definition) S F P
  := by
  have same : ∀ (e : Error) (w : Situation κ σ), F e w → F e w := fun _ _ => id
  have same' : ∀ u v, P u v → P u v := fun _ _ => id
  rw [Container.construct]
  apply faces_bind
  apply dependencies.mono _ same same'
  intro _ w h
  apply faces_bind
  apply (instantiate w h).mono _ same same'
  intro raw w h
  apply faces_ite_bind
  -- the component is in creation, so that it is offered if circular references are allowed
  have offered : Faces host w
      (if c.settings.allowCircularReferences = true then
        Attempt.reads fun r => r.guard.isCurrentlyInCreation n else pure false)
      (fun b w' => b = c.settings.allowCircularReferences ∧ w' = w) F P := by
    apply Meets.faces
    cases c.settings.allowCircularReferences with
    | true => apply meets_reads ⟨inCreation raw w h, rfl⟩
    | false => apply meets_pure ⟨rfl, rfl⟩
  apply offered.mono _ same same'
  rintro _ w ⟨rfl, rfl⟩
  apply faces_offering
  apply faces_bind
  apply (populate raw w h).mono _ same same'
  intro _ w h
  apply faces_bind
  apply (beforeInit raw w h).mono _ same same'
  intro i w h
  apply faces_bind
  apply (init raw i w h).mono _ same same'
  intro _ w h
  apply faces_bind
  apply (afterInit raw i w h).mono _ same same'
  intro i w h
  apply faces_ite_bind
  apply (settle raw i w h).mono _ same same'
  intro i w h
  apply Meets.faces
  cases hd : definition.dispose with
  | none =>
    rw [hd] at h
    apply meets_pure h
  | some k =>
    rw [hd] at h
    apply meets_bind
    apply meets_edit
    apply meets_pure h

/-- A construction in which nothing panics. -/
theorem meets_construct {definition : Definition κ}
    (h : Meets host w (c.createDependencies n definition.dependsOn)
      (fun _ w => Meets host w (b.instantiate definition.instantiate n)
        (fun raw w => w.registry.guard.isCurrentlyInCreation n = true ∧
          Meets host (w.offering c n raw) (Container.wireWith b definition.populate n raw)
            (fun _ w => Meets host w (c.intercept b .beforeInit n raw)
              (fun i w => Meets host w (Container.wireWith b definition.init n i)
                (fun _ w => Meets host w (c.intercept b .afterInit n i)
                  (fun i w => Meets host w
                    (if c.settings.allowCircularReferences then Container.settle n raw i
                      else pure i)
                    (fun i w => S i (w.arranging n definition.dispose i)) F) F) F) F) F) F) F) :
  Meets host w (c.construct b n definition) S F
  := by
  apply Faces.meets
  apply faces_construct h.faces
  case instantiate =>
    intro w h
    apply h.faces
  case inCreation =>
    intro raw w h
    apply h.1
  case populate =>
    intro raw w h
    apply h.2.faces
  case beforeInit =>
    intro raw w h
    apply h.faces
  case init =>
    intro raw i w h
    apply h.faces
  case afterInit =>
    intro raw i w h
    apply h.faces
  case settle =>
    intro raw i w h
    apply h.faces

/-- The instance that is exposed is the early reference, if there is one. -/
theorem meets_settle {raw exposed : Ref} (hc : w.registry.IsInCreation n)
    (hf : w.registry.finished.get? n = none) (fresh : w.registry.early.get? n = none → S exposed w)
    (early : ∀ i, w.registry.early.get? n = some i → S i w)
    (mismatch : exposed ≠ raw → F (.earlyReferenceMismatch n) w) :
  Meets host w (Container.settle n raw exposed) S F
  := by
  rw [Container.settle]
  apply meets_bind
  rcases w.registry.sight_cases n false with ⟨i, hi, hs⟩ | ⟨p, ⟨⟩, -⟩ | ⟨-, he, -, hs⟩
  · apply meets_lookup_settled hs
    have hi : w.registry.early.get? n = some i := by
      apply hi.resolve_left
      rw [hf]
      rintro ⟨⟩
    by_cases hr : exposed = raw
    · simp only [hr, if_true]
      apply meets_pure
      apply early i hi
    · simp only [hr, if_false]
      by_cases hx : exposed = i
      · simp only [hx, if_true]
        apply meets_pure
        apply early i hi
      · simp only [hx, if_false]
        apply meets_throw
        apply mismatch hr
  · apply meets_lookup_settled hs
    apply meets_pure
    apply fresh (he hc)

end Componentry
