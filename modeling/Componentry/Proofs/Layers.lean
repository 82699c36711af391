import Componentry.Proofs.Paths
import Componentry.Proofs.Relays

/-!
# Layers of errors

The error of a request tells the way that the failure has taken: each component that has asked for
another one on behalf of its creation, and has failed for its sake, adds a layer with its name.  The
main result, `failures_layered_iff`, says that the error with which the outermost request comes back
has one layer for each of these components, in their order, around the error of the last one, and
that the failures set aside on the way stand in the outermost layer.  It is so exactly if the guard
releases each of their creations.  If a creation was not entered, since its name was exempt when it
began and is not any more, then the error of the guard takes the place of the failure.
-/

namespace Componentry

open Machine

variable {κ σ : Type} {c : Container κ} {b : Behaviour κ σ}
  {w w₁ w₂ v : World (Recipe κ) (Teardown κ) (Site κ σ)} {x : Name} {d : Definition κ}
  {collects : Bool} {e r : Error}

namespace Container

/-- The request for a component, made in a world, fails for the sake of the error `e`.  The
components in `chain` have each asked for the next one, and the last of them for one whose request
fails with `e`; each comes with what the guard has about the end of its creation. -/
inductive Breaks (c : Container κ) (b : Behaviour κ σ) :
    World (Recipe κ) (Teardown κ) (Site κ σ) → Name → List (Name × Option Error) → Error → Prop
  /-- There is no definition. -/
  | undefined {w : World (Recipe κ) (Teardown κ) (Site κ σ)} {x : Name}
      (unseen : w.registry.sight x c.settings.allowCircularReferences = .settled none)
      (undefined : w.memory.definitions.get? x = none) :
    Breaks c b w x [] (.notDefined x)
  /-- The creation is refused. -/
  | refused {w : World (Recipe κ) (Teardown κ) (Site κ σ)} {x : Name} {d : Definition κ} {e : Error}
      (unseen : w.registry.sight x c.settings.allowCircularReferences = .settled none)
      (defined : w.memory.definitions.get? x = some d)
      (refused : w.registry.beginCreation x = .refused e) :
    Breaks c b w x [] e
  /-- The early reference cannot be made. -/
  | unexposed {w w' : World (Recipe κ) (Teardown κ) (Site κ σ)} {x : Name} {producer : Recipe κ}
      {r : Registry (Recipe κ) (Teardown κ)} {e : Error}
      (pending : w.registry.sight x c.settings.allowCircularReferences = .pending producer r)
      (fails : ((c.host b).make producer).Returns (c.host b) { w with registry := r } (.error e)
        w') :
    Breaks c b w x [] e
  /-- The construction fails, and its creation is released. -/
  | raised {w w₁ w₂ w₃ : World (Recipe κ) (Teardown κ) (Site κ σ)} {x : Name} {d : Definition κ}
      {collects : Bool} {e : Error} (begins : c.Begins b x d collects w w₁)
      (constructed : (c.construct b x d).run.Returns (c.host b) w₁ (.error e) w₂)
      (destroyed : (Attempt.destroy x : Trial κ σ Unit).run.Returns (c.host b) w₂ (.ok ()) w₃)
      (released : (w₃.registry.guard.leave x).2 = none) :
    Breaks c b w x [] e
  /-- The construction asks for another component, and hands on that the request fails. -/
  | relayed {w w₁ w₂ w₃ w₄ w₅ : World (Recipe κ) (Teardown κ) (Site κ σ)} {x y : Name}
      {d : Definition κ} {collects : Bool} {q : Trial κ σ Ref} {e r : Error}
      {chain : List (Name × Option Error)} (begins : c.Begins b x d collects w w₁)
      (asks : c.Asks x y q) (relays : (c.construct b x d).Relays (c.host b) w₁ q w₂ w₃ w₄)
      (fails : (c.resolveAlone y).run.Returns (c.host b) w₂ (.error r) w₃)
      (destroyed : (Attempt.destroy x : Trial κ σ Unit).run.Returns (c.host b) w₄ (.ok ()) w₅)
      (inner : Breaks c b w₂ y chain e) :
    Breaks c b w x ((x, (w₅.registry.guard.leave x).2) :: chain) e

end Container

namespace Error

/-- An error with a layer carries what was set aside in this layer. -/
theorem withRelated_creation (n x : Name) (e : Error) (related causes : List Error) :
  (creation n e related).withRelated x causes = creation n e (related ++ causes)
  := by
  cases causes with
  | nil => rw [withRelated_nil, List.append_nil]
  | cons => rfl

/-- The error with a layer for each component of a chain around it; where the guard has an error
about the end of the creation, this one takes the place of what is inside. -/
def report : List (Name × Option Error) → Error → Error
  | [], e => e
  | (x, violation) :: chain, e => violation.getD (.creation x (report chain e) [])

/-- The same error for a request of `x`, with what was set aside in its outermost layer. -/
def answer (x : Name) (causes : List Error) : List (Name × Option Error) → Error → Error
  | [], e => e.withRelated x causes
  | (y, violation) :: chain, e => violation.getD (.creation y (report chain e) causes)

variable {chain : List (Name × Option Error)} {e : Error}

/-- If the guard releases every component of a chain, the root is the one of the error inside. -/
theorem root_report (released : ∀ member ∈ chain, member.2 = none) :
  (report chain e).root = e.root
  := by
  induction chain with
  | nil => rfl
  | cons member chain ih =>
    obtain ⟨x, violation⟩ := member
    obtain ⟨none, others⟩ := List.forall_mem_cons.mp released
    obtain rfl : violation = .none := none
    exact (root_creation x _ []).trans (ih others)

/-- Each component of a chain has its layer if the guard releases them all, and only then, since the
errors of the guard have no layers. -/
theorem layers_report_iff (bare : ∀ member ∈ chain, ∀ v ∈ member.2, v.layers = []) :
  (report chain e).layers = (chain.map Prod.fst).map (·, []) ++ e.layers
    ↔ ∀ member ∈ chain, member.2 = none
  := by
  induction chain with
  | nil => simp [report]
  | cons member chain ih =>
    obtain ⟨x, violation⟩ := member
    obtain ⟨first, bare⟩ := List.forall_mem_cons.mp bare
    rw [List.forall_mem_cons, ← ih bare]
    cases violation with
    | none => simp [report, layers]
    | some v => simp [report, first v rfl]

/-- What the error `r` of a request for the component `x` tells: that each component in `names` has
failed for the sake of the next one, and the last of them for the sake of `e`, and that meanwhile
the failures in `causes` were set aside. -/
structure Layered (r : Error) (x : Name) (names : List Name) (e : Error) (causes : List Error) :
    Prop where
  /-- The components have one layer each, in their order, around the layers of `e`; the outermost
  one carries what was set aside, and the others nothing. -/
  chain : ∀ n inner, names = n :: inner → r.layers = (n, causes) :: inner.map (·, []) ++ e.layers
  /-- If there are no such components, then the outermost layer of `e` carries it. -/
  own : names = [] → ∀ n related inner, e.layers = (n, related) :: inner →
    r.layers = (n, related ++ causes) :: inner
  /-- If there is no layer either, then one is added, unless there is nothing to carry. -/
  bare : names = [] → e.layers = [] → r.layers = if causes = [] then [] else [(x, causes)]
  /-- The root is the one of `e`. -/
  root : r.root = e.root
  /-- A request for a component in creation is told from the root. -/
  inCreation : r.isCurrentlyInCreation = true ↔ ∃ n, e.root = .currentlyInCreation n

/-- Whether an error tells of a request for a component in creation is decided by its root. -/
theorem isCurrentlyInCreation_iff :
  e.isCurrentlyInCreation = true ↔ ∃ n, e.root = .currentlyInCreation n
  := by
  unfold isCurrentlyInCreation
  cases e.root <;> simp

/-- An error that carries what was set aside, and has no layers around it, tells of it. -/
theorem layered_withRelated (x : Name) (e : Error) (causes : List Error) :
  (e.withRelated x causes).Layered x [] e causes
  where
  chain := nofun
  own _ n related inner outermost := by
    cases e with
    | creation =>
      cases outermost
      rw [withRelated_creation]
      rfl
    | _ => cases outermost
  bare _ none := by
    cases causes with
    | nil => exact none
    | cons =>
      cases e with
      | creation => cases none
      | _ => rfl
  root := root_withRelated e x causes
  inCreation := by rw [isCurrentlyInCreation_iff, root_withRelated]

/-- An error with layers for a chain tells of it if the guard releases all of its components, and
only then. -/
theorem layered_answer_iff {x : Name} {causes : List Error}
    (bare : ∀ member ∈ chain, ∀ v ∈ member.2, v.layers = []) :
  (answer x causes chain e).Layered x (chain.map Prod.fst) e causes
    ↔ ∀ member ∈ chain, member.2 = none
  := by
  cases chain with
  | nil => simp [answer, layered_withRelated]
  | cons member chain =>
    obtain ⟨y, violation⟩ := member
    obtain ⟨first, bare'⟩ := List.forall_mem_cons.mp bare
    constructor
    · intro h
      have layers := h.chain y (chain.map Prod.fst) rfl
      rw [List.forall_mem_cons, ← layers_report_iff (e := e) bare']
      cases violation with
      | none => simpa [answer, Error.layers] using layers
      | some v => simp [answer, first v rfl] at layers
    · intro released
      obtain ⟨none, others⟩ := List.forall_mem_cons.mp released
      obtain rfl : violation = .none := none
      have root : (answer x causes ((y, .none) :: chain) e).root = e.root :=
        (root_creation y _ causes).trans (root_report others)
      refine ⟨?_, nofun, nofun, root, ?_⟩
      · rintro n inner ⟨⟩
        simp [answer, Error.layers, (layers_report_iff (e := e) bare').mpr others]
      · rw [isCurrentlyInCreation_iff, root]

end Error

namespace Container

/-- Where failures can be set aside already, a creation collects none. -/
theorem Begins.nested (h : c.Begins b x d collects w w₁) {causes : List Error}
    (begun : w.registry.suppressed = some causes) :
  collects = false ∧ w₁.registry.suppressed = some causes
  := by
  obtain ⟨-, -, -, -, -, -, hc, -⟩ := Registry.of_admitted h.admitted
  have kept := Registry.suppressed_of_admitted h.admitted
  rw [begun] at hc kept
  exact ⟨hc, kept⟩

variable {chain : List (Name × Option Error)}

/-- A request that is made where failures can be set aside already fails with one layer for each
component of the chain. -/
theorem Breaks.error_eq (h : c.Breaks b w x chain e) {causes : List Error}
    (begun : w.registry.suppressed = some causes)
    (fails : Leads (c.host b) (start (c.resolveAlone x).run w) (.halted (.ok (.error r)) v)) :
  r = Error.report chain e
  := by
  induction h generalizing causes r v with
  | undefined unseen undefined =>
    obtain ⟨⟨⟩, -⟩ := fails.halted_unique (returns_undefined unseen undefined).leads_halted
    rfl
  | refused unseen defined refused =>
    obtain ⟨⟨⟩, -⟩ := fails.halted_unique (returns_refused unseen defined refused).leads_halted
    rfl
  | unexposed pending unmade =>
    obtain ⟨⟨⟩, -⟩ := fails.halted_unique (returns_unexposed pending unmade).leads_halted
    rfl
  | raised begins constructed destroyed released =>
    obtain ⟨rfl, -⟩ := begins.nested begun
    have same := begins.error_eq (returns_constructOrDestroy constructed destroyed) fails
    rw [released] at same
    exact same
  | relayed begins asks relays lacks destroyed inner ih =>
    -- failures can still be set aside when the next component is asked for
    obtain ⟨rfl, kept⟩ := begins.nested begun
    obtain ⟨causes', kept⟩ := relays.suppressed kept
    obtain rfl := ih kept lacks.leads_halted
    have constructed := relays.returns (asks.returns lacks)
    exact begins.error_eq (returns_constructOrDestroy constructed destroyed) fails

/-! ### The outermost request -/

section Outermost

variable {l : Nat} {o : Except Panic (Except Error Ref)}

/-- What the outermost creation has collected when its construction has failed is all that the run
sets aside. -/
theorem Begins.collected_eq (h : c.Begins b x d collects w w₁) (rest : w.registry.AtRest)
    (returns : (c.constructOrDestroy b x d).run.Returns (c.host b) w₁ (.error e) w₂)
    (ends : runFor (c.host b) l (start (c.resolveAlone x).run w) = .halted o v) :
  w₂.registry.collected collects = setAside (c.host b) (start (c.resolveAlone x).run w) 0 l
  := by
  obtain ⟨-, -, -, -, -, -, hc, -⟩ := Registry.of_admitted h.admitted
  have empty := Registry.suppressed_of_admitted h.admitted
  rw [rest.suppressed] at hc empty
  obtain rfl : collects = true := hc
  have gathers : (runFor (c.host b) 3 (start (c.resolveAlone x).run w)).Gathers
      [outermost x hand] [] := by
    rw [h.runFor_start]
    exact ⟨⟨[], rfl, nofun⟩, empty⟩
  obtain ⟨k, returned⟩ := returns.toDone (ρ := .maker) (.creating (ρ := .main) x true hand .base)
  rw [← h.runFor_start] at returned
  have later : runFor (c.host b) l (runFor (c.host b) 3 (start (c.resolveAlone x).run w))
      = .halted o v := by
    rw [← runFor_add, Nat.add_comm, runFor_add, ends, runFor_halted]
  have quits : (runFor (c.host b) (3 + l) (start (c.resolveAlone x).run w)).Quits := by
    rw [runFor_add, later]
    trivial
  rw [quits.setAside_eq ends, setAside_add, setAside_sought h.unseen, List.nil_append]
  rw [Registry.collected, suppressed_of_returned (fun _ => ⟨_, rfl⟩) gathers returned later]
  rfl

/-- A request that does not come to a creation sets nothing aside. -/
theorem setAside_eq_nil
    (unseen : w.registry.sight x c.settings.allowCircularReferences = .settled none)
    (unmet : ∀ d, w.memory.definitions.get? x = some d →
      ∃ e, w.registry.beginCreation x = .refused e)
    (ends : runFor (c.host b) l (start (c.resolveAlone x).run w) = .halted o v) :
  setAside (c.host b) (start (c.resolveAlone x).run w) 0 l = []
  := by
  have quits : (runFor (c.host b) 3 (start (c.resolveAlone x).run w)).Quits := by
    rw [runFor_step, runFor_sought_start unseen]
    cases defined : w.memory.definitions.get? x with
    | none => trivial
    | some d =>
      obtain ⟨e, refused⟩ := unmet d defined
      simp only [start, step, startCreation, refused]
      trivial
  rw [quits.setAside_eq ends, setAside_sought unseen]

/-- A request that is made at rest fails with the layers of the chain, of which the outermost one
has all that the run sets aside. -/
theorem Breaks.answer_eq (h : c.Breaks b w x chain e) (rest : w.registry.AtRest)
    (ends : runFor (c.host b) l (start (c.resolveAlone x).run w) = .halted (.ok (.error r)) v) :
  r = Error.answer x (setAside (c.host b) (start (c.resolveAlone x).run w) 0 l) chain e
  := by
  cases h with
  | undefined unseen undefined =>
    have same := returns_undefined (b := b) unseen undefined
    obtain ⟨⟨⟩, -⟩ := Leads.halted_unique ⟨l, ends⟩ same.leads_halted
    rw [setAside_eq_nil unseen (by simp [undefined]) ends]
    rfl
  | refused unseen defined refused =>
    have same := returns_refused (b := b) unseen defined refused
    obtain ⟨⟨⟩, -⟩ := Leads.halted_unique ⟨l, ends⟩ same.leads_halted
    rw [setAside_eq_nil unseen (fun _ _ => ⟨_, refused⟩) ends]
    rfl
  | unexposed pending fails =>
    -- an early reference is made of a component in creation only
    obtain ⟨lent, -⟩ := Registry.lends_of_pending pending
    obtain ⟨-, -, rfl⟩ := Registry.of_sight_pending pending
    rw [rest.inCreation] at lent
    simp at lent
  | raised begins constructed destroyed released =>
    have returns := returns_constructOrDestroy constructed destroyed
    have same := begins.error_eq returns ⟨l, ends⟩
    rw [released, begins.collected_eq rest returns ends] at same
    exact same
  | relayed begins asks relays lacks destroyed inner =>
    obtain ⟨causes, kept⟩ := relays.suppressed (Registry.suppressed_of_admitted begins.admitted)
    obtain rfl := inner.error_eq kept lacks.leads_halted
    have returns := returns_constructOrDestroy (relays.returns (asks.returns lacks)) destroyed
    have same := begins.error_eq returns ⟨l, ends⟩
    rw [begins.collected_eq rest returns ends, Error.withRelated_creation] at same
    exact same

end Outermost

end Container

/-! ### All layers -/

/-- The error about the end of a creation is that it was not entered. -/
theorem Guard.of_leave_eq_some {g : Guard} (h : (g.leave x).2 = some e) :
  e = notEntered x
  := by
  simp only [leave] at h
  split at h
  · cases h
  · split at h
    · cases h
    · cases h
      rfl

namespace Container

variable {chain : List (Name × Option Error)}

/-- All that the guard has about the end of a creation of a chain is that it was not entered. -/
theorem Breaks.notEntered_of_mem (h : c.Breaks b w x chain e) :
  ∀ member ∈ chain, ∀ v ∈ member.2, v = Guard.notEntered member.1
  := by
  induction h with
  | undefined | refused | unexposed | raised => nofun
  | relayed _ _ _ _ _ _ ih =>
    rw [List.forall_mem_cons]
    exact ⟨fun v hv => Guard.of_leave_eq_some hv, ih⟩

/-- The request comes to its end. -/
theorem Breaks.fails (h : c.Breaks b w x chain e) :
  ∃ outcome v, Leads (c.host b) (start (c.resolveAlone x).run w) (.halted outcome v) ∧
    c.Fails b x (fun _ => True) outcome v
  := by
  cases h with
  | undefined unseen undefined =>
    exact ⟨_, w, (returns_undefined unseen undefined).leads_halted, .error trivial⟩
  | refused unseen defined refused =>
    exact ⟨_, w, (returns_refused unseen defined refused).leads_halted, .error trivial⟩
  | unexposed pending fails =>
    exact ⟨_, _, (returns_unexposed pending fails).leads_halted, .error trivial⟩
  | raised begins constructed destroyed released =>
    obtain ⟨outcome, v, halts, fails⟩ :=
      begins.fails (returns_constructOrDestroy constructed destroyed)
    exact ⟨outcome, v, halts, fails.mono fun _ _ => trivial⟩
  | relayed begins asks relays lacks destroyed inner =>
    have constructed := relays.returns (asks.returns lacks)
    obtain ⟨outcome, v, halts, fails⟩ :=
      begins.fails (returns_constructOrDestroy constructed destroyed)
    exact ⟨outcome, v, halts, fails.mono fun _ _ => trivial⟩

/-- The creation of each component of the chain ends in the run. -/
theorem Breaks.ending_of_mem (h : c.Breaks b w x chain e) ⦃α : Type⦄ ⦃ρ : Role⦄
    (next : Except Error Ref → Job κ σ (ρ.Result α))
    (stack : Stack (Recipe κ) (Teardown κ) (Site κ σ) α ρ) :
  ∀ member ∈ chain, ∃ m collects,
    Leads (c.host b) (.running ((c.resolveAlone x).run.andThen next) stack w) m ∧
      m.ending? = some (member.1, collects) ∧ (m.registry.leave member.1 collects).2 = member.2
  := by
  induction h generalizing α ρ with
  | undefined | refused | unexposed | raised => nofun
  | relayed begins asks relays lacks destroyed inner ih =>
    have relays := Container.relays_constructOrDestroy relays destroyed
    rw [List.forall_mem_cons]
    constructor
    · have returns := relays.returns (asks.returns lacks)
      have begun := begins.runFor_eq next stack
      exact ⟨_, _, Leads.trans ⟨3, begun⟩ (returns.toDone (ρ := .maker) _), rfl, rfl⟩
    · intro member hm
      obtain ⟨next', stack', comes⟩ := begins.leads_asked asks relays next stack
      obtain ⟨m, collects, leads, ending⟩ := ih (ρ := .maker) next' stack' member hm
      exact ⟨m, collects, comes.trans leads, ending⟩

/-- If the exemptions stay as they are while components are created, then the guard releases each
creation of the chain. -/
theorem Breaks.released (h : c.Breaks b w x chain e) (rest : w.registry.AtRest)
    (calm : (c.host b).Calm) {l : Nat} {o : Except Panic (Except Error Ref)}
    (ends : runFor (c.host b) l (start (c.resolveAlone x).run w) = .halted o v)
    (keeps : ∀ j < l, (runFor (c.host b) j (start (c.resolveAlone x).run w)).KeepsExemptions) :
  ∀ member ∈ chain, member.2 = none
  := by
  intro member hm
  obtain ⟨m, collects, ⟨k, reached⟩, ending, violation⟩ :=
    h.ending_of_mem (ρ := .main) .done .base member hm
  replace reached : runFor (c.host b) k (start ((c.resolveAlone x).run.andThen .done) w) = m :=
    reached
  rw [Client.andThen_done] at reached
  have before : k ≤ l := by
    by_contra late
    obtain ⟨d, rfl⟩ := Nat.exists_eq_add_of_le (Nat.le_of_not_le late)
    rw [runFor_add, ends, runFor_halted] at reached
    subst reached
    cases ending
  have begins : (start (c.resolveAlone x).run w).Tracked w.registry.guard.limit :=
    ⟨rest.tracks, trivial⟩
  -- where the registry keeps track of the creations, one that ends has been entered
  have tracked := begins.runFor calm (k := k) fun j hj => keeps j (Nat.lt_of_lt_of_le hj before)
  rw [reached] at tracked
  rw [← violation]
  apply tracked.leave ending

end Container

/-- A component `x` is requested while no creation is under way, and the request fails for the sake
of `e`: the components in `chain` have each asked for the next one, through the context or as a
declared dependency, and have handed on that the request failed, and the last one has asked for one
whose request fails with `e`.  The error with which the request of `x` comes back tells of this
chain in its layers, and in the outermost layer of all failures that were set aside during the run,
exactly if the guard has no error about the end of a creation of the chain.  It has none if the
exemptions stay as they are while components are created, and no one who hears a notice panics. -/
theorem failures_layered_iff (c : Container κ) (b : Behaviour κ σ)
    {w : World (Recipe κ) (Teardown κ) (Site κ σ)} (rest : w.registry.AtRest) {x : Name}
    {chain : List (Name × Option Error)} {e : Error} (breaks : c.Breaks b w x chain e) :
  ∃ l outcome v, runFor (c.host b) l (start (c.resolve x none).run w) = .halted outcome v ∧
    c.Fails b x (fun r => r.Layered x (chain.map Prod.fst) e
      (setAside (c.host b) (start (c.resolve x none).run w) 0 l)
        ↔ ∀ member ∈ chain, member.2 = none) outcome v ∧
    ((c.host b).Calm →
      (∀ j < l, (runFor (c.host b) j (start (c.resolve x none).run w)).KeepsExemptions) →
        ∀ member ∈ chain, member.2 = none)
  := by
  rw [Container.resolve_none]
  obtain ⟨outcome, v, ⟨l, ends⟩, fails⟩ := breaks.fails
  refine ⟨l, outcome, v, ends, ?_, fun calm keeps => breaks.released rest calm ends keeps⟩
  cases fails with
  | bound h => exact .bound h
  | panic loud => exact .panic loud
  | error =>
    obtain rfl := breaks.answer_eq rest ends
    apply Container.Fails.error
    apply Error.layered_answer_iff
    intro member hm v hv
    rw [breaks.notEntered_of_mem member hm v hv]
    rfl

/-! ### A component whose need is not met -/

/-- What the callbacks of a small container do. -/
inductive Need where
  /-- Fails. -/
  | broken
  /-- Asks for `"c"`, does without it, and asks for another component. -/
  | tries (n : Name)
  /-- Ends the exemption of its component, and asks for another one. -/
  | exposes (n : Name)

/-- The behaviour of these callbacks. -/
def Need.behaviour (c : Container Need) : Behaviour Need Unit where
  instantiate
    | .broken, x => throw (.factory x "broken")
    | .tries n, x => do
      discard (c.requestOptional x "c")
      c.request x n
    | .exposes n, x => do
      Attempt.edit (.setExempt x false)
      c.request x n
  wire _ _ _ := return ()
  transform _ _ i := return i
  make _ n := throw (.notDefined n)
  dispose _ _ _ := .done (.ok ())
  hear _ s := (none, s)

/-- A container with one exempt name. -/
def Container.needing : Container Need := ⟨⟨true, 4, ["e"], false⟩, ⟨[]⟩⟩

/-- The host of this container. -/
abbrev Container.needer : Host (Recipe Need) (Teardown Need) (Site Need Unit) :=
  needing.host (Need.behaviour needing)

/-- A component with some dependencies, and no callback but the one that makes its instance. -/
def Definition.needing (x : Name) (dependsOn : List Name) (need : Need) : Definition Need :=
  ⟨x, need, none, none, none, dependsOn, true⟩

/-- The component `"a"` depends on `"b"`, by declaration.  Of the others, `"b"` and `"e"` ask for
`"d"`, which is not defined. -/
def Catalog.needing : Catalog (Definition Need) :=
  ofList [("a", .needing "a" ["b"] .broken), ("b", .needing "b" [] (.tries "d")),
    ("c", .needing "c" [] .broken), ("e", .needing "e" [] (.exposes "d"))]

/-- A moment of the run that asks for a component. -/
def Machine.needing (x : Name) (k : Nat) :
    Machine (Recipe Need) (Teardown Need) (Site Need Unit) (Except Error Ref) :=
  runFor Container.needer k (start (Container.needing.resolve x none).run
    ⟨.fresh Container.needing.settings, ⟨.needing, ()⟩⟩)

/-- The world in which `"b"` is asked for, where `"a"` is in creation and has it recorded that it
depends on `"b"`. -/
def World.dependent : World (Recipe Need) (Teardown Need) (Site Need Unit) :=
  { (needing "a" 3).world with
    registry := ((needing "a" 3).world.registry.edit (.depend "b" "a")).1 }

/-- A moment of the run that asks for `"b"` there. -/
def Machine.needed (k : Nat) :
    Machine (Recipe Need) (Teardown Need) (Site Need Unit) (Except Error Ref) :=
  runFor Container.needer k (start (Container.needing.resolveAlone "b").run .dependent)

/-- The world after `"b"` could not be had, and what there was of `"a"` was destroyed. -/
def World.unmet : World (Recipe Need) (Teardown Need) (Site Need Unit) :=
  (runFor Container.needer 5 (start (Attempt.destroy "a" : Trial Need Unit Unit).run
    (needed 26).world)).world

/-- The request of `"a"` comes to its creation. -/
theorem begins_needing :
  Container.needing.Begins (Need.behaviour .needing) "a" (.needing "a" ["b"] .broken) true
    (needing "a" 0).world (needing "a" 3).world
  := ⟨rfl, rfl, rfl, rfl⟩

/-- The creation of `"a"` comes to ask for `"b"`, on which it depends. -/
theorem relays_needing :
  (Container.needing.construct (Need.behaviour .needing) "a" (.needing "a" ["b"] .broken)).Relays
    Container.needer (needing "a" 3).world
    (Attempt.mapError (fun e => .creation "a" e []) (Container.needing.resolveAlone "b"))
    .dependent (needed 26).world (needed 26).world
  := by
  have declared : (Definition.needing "a" ["b"] .broken).dependsOn = [] ++ "b" :: [] := rfl
  apply Container.relays_declared declared (Client.returns_done _ _)
  -- nothing depends on anything yet
  rw [Graph.isDependent, Bool.eq_false_iff, ne_eq, Links.reaches_iff]
  rintro (⟨⟨⟩⟩ | ⟨⟨⟩, -⟩)

/-- The request of `"b"` fails, as there is no `"d"`. -/
theorem lacks_needing :
  (Container.needing.resolveAlone "b").run.Returns Container.needer .dependent
    (.error (.creation "b" (.notDefined "d") [])) (needed 26).world
  := fun _ _ _ _ => ⟨26, rfl⟩

/-- What there was of `"a"` is destroyed. -/
theorem destroyed_needing :
  (Attempt.destroy "a" : Trial Need Unit Unit).run.Returns Container.needer (needed 26).world
    (.ok ()) .unmet
  := fun _ _ _ _ => ⟨5, rfl⟩

/-- The needs of `"a"` and of `"b"` are not met: `"a"` depends on `"b"`, which asks for `"d"` after
it has done without `"c"`. -/
theorem breaks_needing :
  Container.needing.Breaks (Need.behaviour .needing) (needing "a" 0).world "a"
    [("a", none), ("b", none)] (.notDefined "d")
  := by
  have begins : Container.needing.Begins (Need.behaviour .needing) "b"
      (.needing "b" [] (.tries "d")) false .dependent (needed 3).world := ⟨rfl, rfl, rfl, rfl⟩
  have tried : (discard (Container.needing.requestOptional "b" "c") : Trial Need Unit Unit).run
      |>.Returns Container.needer (needed 3).world (.ok ()) (needed 15).world :=
    fun _ _ _ _ => ⟨12, rfl⟩
  have relays : (Container.needing.construct (Need.behaviour .needing) "b"
      (.needing "b" [] (.tries "d"))).Relays Container.needer (needed 3).world
      (Container.needing.request "b" "d") (needed 15).world (needed 17).world
      (needed 17).world := by
    apply Container.relays_instantiate (Client.returns_done _ _)
    apply Attempt.Relays.after tried
    apply Attempt.Relays.self
  have lacks : (Container.needing.resolveAlone "d").run.Returns Container.needer
      (needed 15).world (.error (.notDefined "d")) (needed 17).world := fun _ _ _ _ => ⟨2, rfl⟩
  have destroyed : (Attempt.destroy "b" : Trial Need Unit Unit).run.Returns Container.needer
      (needed 17).world (.ok ()) (needed 25).world := fun _ _ _ _ => ⟨8, rfl⟩
  have inner : Container.needing.Breaks (Need.behaviour .needing) .dependent "b" [("b", none)]
      (.notDefined "d") := .relayed begins .context relays lacks destroyed (.undefined rfl rfl)
  exact .relayed begins_needing .declared relays_needing lacks_needing destroyed_needing inner

/-- The request of `"a"` comes back with an error. -/
theorem halts_needing :
  Leads Container.needer (needing "a" 0) (.halted (.ok (.error (.creation "a"
    (.creation "b" (.notDefined "d") []) [.factory "c" "broken"])))
    ⟨(World.unmet.registry.leave "a" true).1, World.unmet.memory⟩)
  := by
  have constructed := relays_needing.returns (Container.Asks.declared.returns lacks_needing)
  have fails := Container.returns_constructOrDestroy constructed destroyed_needing
  rw [needing, runFor, Container.resolve_none]
  apply Leads.trans ⟨3, begins_needing.runFor_start⟩
  apply Leads.trans (fails.toFrame (ρ := .maker) _)
  exact ⟨1, rfl⟩

/-- The request of `"a"` fails with a layer for each of the two, of which the outermost one carries
the failure of `"c"`, without which `"b"` has done. -/
theorem failures_layered_iff_needing :
  ∃ l r v, needing "a" l = .halted (.ok (.error r)) v ∧
    r.Layered "a" ["a", "b"] (.notDefined "d") (setAside Container.needer (needing "a" 0) 0 l) ∧
    r.layers = [("a", [.factory "c" "broken"]), ("b", [])]
  := by
  obtain ⟨l, outcome, v, ends, fails, -⟩ := failures_layered_iff .needing (Need.behaviour .needing)
    (Registry.atRest_fresh _) breaks_needing
  obtain ⟨rfl, -⟩ := Leads.halted_unique ⟨l, ends⟩ halts_needing
  cases fails with
  | error layered => exact ⟨l, _, v, ends, layered.mpr (by simp), rfl⟩

/-- The component `"e"` needs `"d"`, which is not defined.  As its exemption has ended meanwhile,
the error is the one of the guard, which says nothing about the failure. -/
theorem not_failures_layered :
  (∃ violation, Container.needing.Breaks (Need.behaviour .needing) (needing "e" 0).world "e"
      [("e", violation)] (.notDefined "d")) ∧
    (needing "e" 13).result?.map Prod.fst = some (.ok (.error (Guard.notEntered "e"))) ∧
    ¬ (Guard.notEntered "e").Layered "e" ["e"] (.notDefined "d")
      (setAside Container.needer (needing "e" 0) 0 13)
  := by
  have begins : Container.needing.Begins (Need.behaviour .needing) "e"
      (.needing "e" [] (.exposes "d")) true (needing "e" 0).world (needing "e" 3).world :=
    ⟨rfl, rfl, rfl, rfl⟩
  have lacks : (Container.needing.resolveAlone "d").run.Returns Container.needer
      (needing "e" 4).world (.error (.notDefined "d")) (needing "e" 6).world :=
    fun _ _ _ _ => ⟨2, rfl⟩
  have exposed : (Attempt.edit (.setExempt "e" false) : Trial Need Unit Unit).run.Returns
      Container.needer (needing "e" 3).world (.ok ()) (needing "e" 4).world :=
    fun _ _ _ _ => ⟨1, rfl⟩
  have relays : (Container.needing.construct (Need.behaviour .needing) "e"
      (.needing "e" [] (.exposes "d"))).Relays Container.needer (needing "e" 3).world
      (Container.needing.request "e" "d") (needing "e" 4).world (needing "e" 6).world
      (needing "e" 6).world := by
    apply Container.relays_instantiate (Client.returns_done _ _)
    apply Attempt.Relays.after exposed
    apply Attempt.Relays.self
  have destroyed : (Attempt.destroy "e" : Trial Need Unit Unit).run.Returns Container.needer
      (needing "e" 6).world (.ok ()) (needing "e" 11).world := fun _ _ _ _ => ⟨5, rfl⟩
  refine ⟨⟨_, .relayed begins .context relays lacks destroyed (.undefined rfl rfl)⟩, rfl, ?_⟩
  intro layered
  cases layered.chain "e" [] rfl

end Componentry
