import Componentry.Proofs.Collection
import Componentry.Proofs.Reconciliation

/-!
# Requests that fail

A request for a component fails if there is no definition, if the creation is refused, if the early
reference cannot be made, or if the construction fails.  A construction may fail for the sake of
another component: `Attempt.Relays` says that it comes to ask for that one, and hands on that the
request has failed.  This is so for each declared dependency (`relays_declared`), and for what the
making of the instance asks for and does not do without (`relays_instantiate`).
-/

namespace Componentry

open Machine

variable {κ σ α β : Type} {c : Container κ} {b : Behaviour κ σ}

/-! ### Attempts that hand an error on -/

section Attempts

variable {φ δ μ : Type} {host : Host φ δ μ} {w w₁ w₂ w₃ : World φ δ μ} {e : Error}

/-- An attempt whose error is caught returns what comes of what is done about it. -/
theorem Client.Returns.caught {p : Attempt φ δ μ α} {k : Error → Attempt φ δ μ α}
    {outcome : Except Error α} (h : Client.Returns host p.run w (.error e) w₁)
    (h' : Client.Returns host (k e).run w₁ outcome w₂) :
  Client.Returns host (tryCatch p k : Attempt φ δ μ α).run w outcome w₂
  := by
  apply Client.Returns.andThen h
  apply h'

/-- A client that returns comes to the moment before its value is handed to the frame. -/
theorem Client.Returns.toDone {ρ : Role} {c : Client φ δ μ (ρ.Result α)} {a : ρ.Result α}
    (h : c.Returns host w a w₁) (stack : Stack φ δ μ α ρ) :
  Leads host (.running c stack w) (.running (.done a) stack w₁)
  := by
  have h := h .done stack
  rw [Client.andThen_done] at h
  exact h

/-- An attempt that is begun in `w` comes to the attempt `q` in `w₁`, and if this one fails in `w₂`,
it hands the error on and fails with it in `w₃`. -/
def Attempt.Relays (host : Host φ δ μ) (p : Attempt φ δ μ α) (w : World φ δ μ)
    (q : Attempt φ δ μ β) (w₁ w₂ w₃ : World φ δ μ) : Prop :=
  ∃ k : Except Error β → Client φ δ μ (Except Error α),
    (∀ ⦃γ : Type⦄ ⦃ρ : Role⦄ (next : Except Error α → Client φ δ μ (ρ.Result γ))
      (stack : Stack φ δ μ γ ρ), Leads host (.running (p.run.andThen next) stack w)
        (.running (q.run.andThen fun a => (k a).andThen next) stack w₁)) ∧
    ∀ e, Client.Returns host q.run w₁ (.error e) w₂ → (k (.error e)).Returns host w₂ (.error e) w₃

variable {p : Attempt φ δ μ α} {q : Attempt φ δ μ β}

/-- An attempt that comes to another one fails with its error, if this one fails. -/
theorem Attempt.Relays.returns (h : p.Relays host w q w₁ w₂ w₃)
    (fails : Client.Returns host q.run w₁ (.error e) w₂) :
  Client.Returns host p.run w (.error e) w₃
  := by
  obtain ⟨k, comes, hands⟩ := h
  intro _ _ next stack
  apply (comes next stack).trans
  apply (fails _ stack).trans
  apply hands e fails

/-- The failures that were set aside before are kept until the other attempt begins. -/
theorem Attempt.Relays.suppressed (h : p.Relays host w q w₁ w₂ w₃) {causes : List Error}
    (begins : w.registry.suppressed = some causes) :
  ∃ causes', w₁.registry.suppressed = some causes'
  := by
  obtain ⟨k, comes, -⟩ := h
  obtain ⟨j, reached⟩ : Leads host (start (p.run.andThen .done) w)
      (start (q.run.andThen fun a => (k a).andThen .done) w₁) := comes (ρ := .main) .done .base
  have gathers := gathers_runFor host (c := p.run.andThen .done) begins j
  rw [reached] at gathers
  exact ⟨_, gathers.suppressed⟩

/-- An attempt comes to itself. -/
theorem Attempt.Relays.self (p : Attempt φ δ μ α) (w w₁ : World φ δ μ) :
  p.Relays host w p w w₁ w₁
  := by
  use .done
  constructor
  · intro _ _ next stack
    apply Leads.refl
  · intro e _
    apply Client.returns_done

/-- What begins with an attempt that hands an error on hands it on. -/
theorem Attempt.Relays.bind {γ : Type} (h : p.Relays host w q w₁ w₂ w₃)
    (f : α → Attempt φ δ μ γ) :
  (p >>= f).Relays host w q w₁ w₂ w₃
  := by
  obtain ⟨k, comes, hands⟩ := h
  use fun a => (k a).andThen (ExceptT.bindCont f)
  constructor
  · intro _ _ next stack
    have h := comes (fun a => (ExceptT.bindCont f a).andThen next) stack
    rw [← Client.andThen_assoc] at h
    simp only [Client.andThen_assoc]
    exact h
  · intro e fails
    apply (hands e fails).andThen
    apply Client.returns_done

/-- What is done when an attempt has ended whose error is caught. -/
def Attempt.catching (f : Error → Attempt φ δ μ α) :
    Except Error α → Client φ δ μ (Except Error α)
  | .ok a => .done (.ok a)
  | .error e => (f e).run

/-- An attempt whose error is caught goes on when it has ended. -/
theorem Attempt.run_tryCatch (p : Attempt φ δ μ α) (f : Error → Attempt φ δ μ α) :
  (tryCatch p f : Attempt φ δ μ α).run = p.run.andThen (catching f)
  := by
  apply congrArg p.run.andThen
  funext a
  cases a <;> rfl

/-- An attempt hands an error on if it catches the error and throws it again. -/
theorem Attempt.Relays.caught {w₄ : World φ δ μ} {f : Error → Attempt φ δ μ α}
    (h : p.Relays host w q w₁ w₂ w₃)
    (again : ∀ e, Client.Returns host (f e).run w₃ (.error e) w₄) :
  (tryCatch p f : Attempt φ δ μ α).Relays host w q w₁ w₂ w₄
  := by
  obtain ⟨k, comes, hands⟩ := h
  use fun a => (k a).andThen (catching f)
  constructor
  · intro _ _ next stack
    have h := comes (fun a => (catching f a).andThen next) stack
    rw [← Client.andThen_assoc, ← run_tryCatch] at h
    simp only [Client.andThen_assoc]
    exact h
  · intro e fails
    apply (hands e fails).andThen
    apply again

/-- What comes to an attempt that hands an error on hands it on. -/
theorem Attempt.Relays.after {γ : Type} {w' : World φ δ μ} {r : Attempt φ δ μ γ}
    {f : γ → Attempt φ δ μ α} {a : γ} (first : Client.Returns host r.run w (.ok a) w')
    (h : (f a).Relays host w' q w₁ w₂ w₃) :
  (r >>= f).Relays host w q w₁ w₂ w₃
  := by
  obtain ⟨k, comes, hands⟩ := h
  refine ⟨k, ?_, hands⟩
  intro _ _ next stack
  have h := first (fun a => (ExceptT.bindCont f a).andThen next) stack
  rw [← Client.andThen_assoc] at h
  apply h.trans
  apply comes

end Attempts

/-- A creation whose factory has failed comes to the error of the guard, if it has one, or else to
the instance that is bound, or else to the error of the factory with what was collected. -/
theorem Registry.verdict_error {φ δ : Type} (r : Registry φ δ) (x : Name) (collects : Bool)
    (e : Error) :
  r.verdict x collects (.error e)
      = .error (((r.guard.leave x).2).getD (e.withRelated x (r.collected collects))) ∨
    ∃ i, r.verdict x collects (.error e) = .ok (.alreadyPresent i) ∧ r.finished.get? x = some i
  := by
  have left : (r.leave x collects).2 = (r.guard.leave x).2 := rfl
  unfold verdict
  rw [left]
  cases (r.guard.leave x).2 with
  | some violation => exact .inl rfl
  | none =>
    cases bound : r.finished.get? x with
    | some i => exact .inr ⟨i, rfl, rfl⟩
    | none => exact .inl rfl

variable {w w₁ w₂ w₃ v : World (Recipe κ) (Teardown κ) (Site κ σ)} {x y : Name} {d : Definition κ}
  {collects : Bool} {e r : Error}

/-! ### Requests -/

namespace Container

/-- Resolving a name, request by request. -/
theorem resolveAlone_andThen (c : Container κ) (x : Name) (next : Except Error Ref → Job κ σ α) :
  (c.resolveAlone x : Trial κ σ Ref).run.andThen next
    = .lookup x c.settings.allowCircularReferences fun
      | .error e => next (.error e)
      | .ok (some i) => next (.ok i)
      | .ok none => .view fun _ s =>
        match s.definitions.get? x with
        | none => next (.error (.notDefined x))
        | some d => .create x (.component x d) fun outcome => next (outcome.map Materialized.ref)
  := by
  apply congrArg (Client.lookup x _)
  funext found
  rcases found with e | _ | i
  · rfl
  · apply congrArg Client.view
    funext _ s
    beta_reduce
    cases s.definitions.get? x with
    | none => rfl
    | some d =>
      apply congrArg (Client.create x (Recipe.component x d))
      funext outcome
      cases outcome <;> rfl
  · rfl

/-- A request for a component that cannot be seen comes to its creation in two steps, if there is a
definition. -/
theorem runFor_sought {ρ : Role}
    (unseen : w.registry.sight x c.settings.allowCircularReferences = .settled none)
    (next : Except Error Ref → Job κ σ (ρ.Result α))
    (stack : Stack (Recipe κ) (Teardown κ) (Site κ σ) α ρ) :
  runFor (c.host b) 2 (running ((c.resolveAlone x : Trial κ σ Ref).run.andThen next) stack w)
    = running (match w.memory.definitions.get? x with
      | none => next (.error (.notDefined x))
      | some d => .create x (.component x d) fun outcome => next (outcome.map Materialized.ref))
      stack w
  := by
  rw [resolveAlone_andThen]
  simp only [runFor_succ, runFor]
  simp only [step, startLookup, unseen]

/-- Hands on the instance or the error to which a creation comes. -/
def hand (outcome : Except Error Materialized) : Job κ σ (Except Error Ref) :=
  .done (outcome.map Materialized.ref)

theorem runFor_sought_start
    (unseen : w.registry.sight x c.settings.allowCircularReferences = .settled none) :
  runFor (c.host b) 2 (start (c.resolveAlone x : Trial κ σ Ref).run w)
    = start (match w.memory.definitions.get? x with
      | none => .done (.error (.notDefined x))
      | some d => .create x (.component x d) hand) w
  := by
  rw [← Client.andThen_done (c.resolveAlone x).run]
  apply runFor_sought (ρ := .main) unseen

/-- Until then and with the next step nothing is set aside. -/
theorem setAside_sought
    (unseen : w.registry.sight x c.settings.allowCircularReferences = .settled none) :
  setAside (c.host b) (start (c.resolveAlone x : Trial κ σ Ref).run w) 0 3 = []
  := by
  rw [setAside_succ, Nat.zero_add, runFor_sought_start unseen]
  rw [← Client.andThen_done (c.resolveAlone x).run, resolveAlone_andThen]
  simp only [setAside, List.range'_succ, List.range'_zero, List.flatMap_cons, List.flatMap_nil,
    start, runFor]
  simp only [step, startLookup, unseen]
  cases w.memory.definitions.get? x <;> rfl

/-- A request for an unknown component fails. -/
theorem returns_undefined
    (unseen : w.registry.sight x c.settings.allowCircularReferences = .settled none)
    (undefined : w.memory.definitions.get? x = none) :
  (c.resolveAlone x : Trial κ σ Ref).run.Returns (c.host b) w (.error (.notDefined x)) w
  := by
  intro _ _ next stack
  use 2
  rw [runFor_sought unseen, undefined]

/-- A request for a component whose creation is refused fails. -/
theorem returns_refused
    (unseen : w.registry.sight x c.settings.allowCircularReferences = .settled none)
    (defined : w.memory.definitions.get? x = some d)
    (refused : w.registry.beginCreation x = .refused e) :
  (c.resolveAlone x : Trial κ σ Ref).run.Returns (c.host b) w (.error e) w
  := by
  intro _ _ next stack
  use 3
  rw [runFor_step, runFor_sought unseen, defined]
  simp only [step, startCreation, refused, Except.map]

/-- A request for a component whose early reference cannot be made fails, and the producer of the
reference is put back. -/
theorem returns_unexposed {producer : Recipe κ} {s : Registry (Recipe κ) (Teardown κ)}
    (pending : w.registry.sight x c.settings.allowCircularReferences = .pending producer s)
    (fails : ((c.host b).make producer).Returns (c.host b) { w with registry := s } (.error e) w₁) :
  (c.resolveAlone x : Trial κ σ Ref).run.Returns (c.host b) w (.error e)
    (w₁.onRegistry (·.restore x producer))
  := by
  intro _ _ next stack
  rw [resolveAlone_andThen]
  apply Leads.step
  simp only [step, startLookup, pending]
  apply fails.toFrame (ρ := .maker)

/-- Resolving a name for no one in particular is resolving it alone. -/
theorem resolve_none (c : Container κ) (x : Name) :
  (c.resolve x none : Trial κ σ Ref) = c.resolveAlone x
  := by
  simp [resolve]

/-- A request for the component `x` comes, in the world `w`, to the creation of `x` from the
definition `d`, whose construction begins in the world `w'`. -/
structure Begins (c : Container κ) (b : Behaviour κ σ) (x : Name) (d : Definition κ)
    (collects : Bool) (w w' : World (Recipe κ) (Teardown κ) (Site κ σ)) : Prop where
  /-- There is no instance, and no early reference. -/
  unseen : w.registry.sight x c.settings.allowCircularReferences = .settled none
  /-- There is a definition. -/
  defined : w.memory.definitions.get? x = some d
  /-- The creation is admitted. -/
  admitted : w.registry.beginCreation x = .admitted collects w'.registry
  /-- The notice of it is heard without a panic. -/
  heard : (c.host b).hear (.creating x) w.memory = (none, w'.memory)

/-- A request for the component `x` fails with an error of which `P` holds, unless `x` is bound to
an instance in the end, or someone who hears a notice panics. -/
inductive Fails (c : Container κ) (b : Behaviour κ σ) (x : Name) (P : Error → Prop) :
    Except Panic (Except Error Ref) → World (Recipe κ) (Teardown κ) (Site κ σ) → Prop
  /-- The request comes back with an error. -/
  | error {r : Error} {v : World (Recipe κ) (Teardown κ) (Site κ σ)} (h : P r) :
    Fails c b x P (.ok (.error r)) v
  /-- It comes back with an instance that was bound meanwhile. -/
  | bound {i : Ref} {v : World (Recipe κ) (Teardown κ) (Site κ σ)}
      (h : v.registry.finished.get? x = some i) :
    Fails c b x P (.ok (.ok i)) v
  /-- It does not come back. -/
  | panic {p : Panic} {v : World (Recipe κ) (Teardown κ) (Site κ σ)} (loud : ¬ (c.host b).Calm) :
    Fails c b x P (.error p) v

/-- What is said of the error of a request may be weakened. -/
theorem Fails.mono {P Q : Error → Prop} {outcome : Except Panic (Except Error Ref)}
    (h : c.Fails b x P outcome v) (implies : ∀ r, P r → Q r) :
  c.Fails b x Q outcome v
  := by
  cases h with
  | error h => exact .error (implies _ h)
  | bound h => exact .bound h
  | panic loud => exact .panic loud

/-- The ways in which a component `x` asks for another one on behalf of its creation. -/
inductive Asks (c : Container κ) (x y : Name) : Trial κ σ Ref → Prop
  /-- Through the context. -/
  | context : Asks c x y (c.request x y)
  /-- As a declared dependency. -/
  | declared : Asks c x y (Attempt.mapError (fun e => .creation x e []) (c.resolveAlone y))

/-- To ask for a component is to resolve it first of all. -/
theorem Asks.run_eq {q : Trial κ σ Ref} (h : c.Asks x y q) :
  ∃ k : Except Error Ref → Job κ σ (Except Error Ref), q.run = (c.resolveAlone y).run.andThen k
  := by
  cases h with
  | context =>
    rw [request, Attempt.mapError, Attempt.run_tryCatch]
    exact ⟨_, Client.andThen_assoc _ _ _⟩
  | declared => exact ⟨_, rfl⟩

/-- If the component that is asked for cannot be had, then the one that asks adds a layer. -/
theorem Asks.returns {q : Trial κ σ Ref} (h : c.Asks x y q)
    (fails : (c.resolveAlone y).run.Returns (c.host b) w (.error r) w₁) :
  q.run.Returns (c.host b) w (.error (.creation x r [])) w₁
  := by
  cases h with
  | context =>
    apply Client.Returns.caught
    · apply fails.bind_error
    · apply Client.returns_done
  | declared =>
    apply Client.Returns.caught fails
    apply Client.returns_done

/-- If the construction fails, what there is of the component is destroyed, and the error stays. -/
theorem returns_constructOrDestroy
    (constructed : (c.construct b x d).run.Returns (c.host b) w (.error e) w₁)
    (destroyed : (Attempt.destroy x : Trial κ σ Unit).run.Returns (c.host b) w₁ (.ok ()) w₂) :
  (c.constructOrDestroy b x d).run.Returns (c.host b) w (.error e) w₂
  := by
  apply constructed.caught
  apply destroyed.bind
  apply Client.returns_done

/-- A construction that hands an error on does so if what there is of the component is destroyed. -/
theorem relays_constructOrDestroy {q : Trial κ σ Ref}
    {w₄ w₅ : World (Recipe κ) (Teardown κ) (Site κ σ)}
    (h : (c.construct b x d).Relays (c.host b) w₁ q w₂ w₃ w₄)
    (destroyed : (Attempt.destroy x : Trial κ σ Unit).run.Returns (c.host b) w₄ (.ok ()) w₅) :
  (c.constructOrDestroy b x d).Relays (c.host b) w₁ q w₂ w₃ w₅
  := by
  apply h.caught
  intro e
  apply destroyed.bind
  apply Client.returns_done

/-- Declared dependencies are created in their order. -/
theorem createDependencies_append (c : Container κ) (x : Name) (pre post : List Name) :
  (c.createDependencies x (pre ++ post) : Trial κ σ Unit)
    = c.createDependencies x pre >>= fun _ => c.createDependencies x post
  := by
  induction pre with
  | nil => rfl
  | cons y pre ih =>
    simp only [List.cons_append, createDependencies, ih, bind_assoc]
    congr 1
    funext dependent
    cases dependent with
    | true => rfl
    | false =>
      symm
      apply (bind_assoc (Attempt.edit (.depend y x) : Trial κ σ Unit) _ _).trans
      apply congrArg (bind (Attempt.edit (.depend y x) : Trial κ σ Unit))
      funext _
      apply bind_assoc

/-- A declared dependency that cannot be had is handed on, if those before it can be had and it does
not depend on the component itself. -/
theorem relays_declared {pre post : List Name} (declared : d.dependsOn = pre ++ y :: post)
    (before : (c.createDependencies x pre : Trial κ σ Unit).run.Returns (c.host b) w (.ok ()) w₁)
    (apart : w₁.registry.graph.isDependent x y = false)
    (w₂ : World (Recipe κ) (Teardown κ) (Site κ σ)) :
  (c.construct b x d).Relays (c.host b) w
    (Attempt.mapError (fun e => .creation x e []) (c.resolveAlone y) : Trial κ σ Ref)
    { w₁ with registry := (w₁.registry.edit (.depend y x)).1 } w₂ w₂
  := by
  have checked : (Attempt.reads fun r => r.graph.isDependent x y : Trial κ σ Bool).run.Returns
      (c.host b) w₁ (.ok false) w₁ := by
    apply (Attempt.meets_reads _).returns
    exact ⟨apart, rfl⟩
  have recorded : (Attempt.edit (.depend y x) : Trial κ σ Unit).run.Returns (c.host b) w₁ (.ok ())
      { w₁ with registry := (w₁.registry.edit (.depend y x)).1 } := by
    apply (Attempt.meets_edit _).returns
    exact ⟨rfl, rfl⟩
  apply Attempt.Relays.bind
  rw [declared, createDependencies_append]
  apply Attempt.Relays.after before
  apply Attempt.Relays.after checked
  apply Attempt.Relays.after recorded
  apply Attempt.Relays.bind
  apply Attempt.Relays.bind
  apply Attempt.Relays.self

/-- When the declared dependencies are there, a construction hands on what the making of the
instance does. -/
theorem relays_instantiate {q : Trial κ σ Ref} {w' : World (Recipe κ) (Teardown κ) (Site κ σ)}
    (before : (c.createDependencies x d.dependsOn : Trial κ σ Unit).run.Returns (c.host b) w
      (.ok ()) w')
    (h : (b.instantiate d.instantiate x).Relays (c.host b) w' q w₁ w₂ w₃) :
  (c.construct b x d).Relays (c.host b) w q w₁ w₂ w₃
  := by
  apply Attempt.Relays.after before
  apply h.bind

namespace Begins

/-- The request comes to the creation in three steps. -/
theorem runFor_eq {ρ : Role} (h : c.Begins b x d collects w w₁)
    (next : Except Error Ref → Job κ σ (ρ.Result α))
    (stack : Stack (Recipe κ) (Teardown κ) (Site κ σ) α ρ) :
  runFor (c.host b) 3 (running ((c.resolveAlone x).run.andThen next) stack w)
    = @running _ _ _ _ .maker (c.constructOrDestroy b x d).run
      (.creating x collects (fun outcome => next (outcome.map Materialized.ref)) stack) w₁
  := by
  rw [runFor_step, runFor_sought h.unseen, h.defined]
  simp only [step, startCreation, h.admitted, announcing, World.announce, h.heard]
  rfl

/-- The run of a request comes to the creation in three steps. -/
theorem runFor_start (h : c.Begins b x d collects w w₁) :
  runFor (c.host b) 3 (start (c.resolveAlone x).run w)
    = @running _ _ _ _ .maker (c.constructOrDestroy b x d).run
      (.creating (ρ := .main) x collects hand .base) w₁
  := by
  rw [← Client.andThen_done (c.resolveAlone x).run]
  apply h.runFor_eq (ρ := .main)

/-- The construction comes to the request for another component. -/
theorem leads_asked {ρ : Role} {q : Trial κ σ Ref} (h : c.Begins b x d collects w w₁)
    (asks : c.Asks x y q) {w₄ : World (Recipe κ) (Teardown κ) (Site κ σ)}
    (relays : (c.constructOrDestroy b x d).Relays (c.host b) w₁ q w₂ w₃ w₄)
    (next : Except Error Ref → Job κ σ (ρ.Result α))
    (stack : Stack (Recipe κ) (Teardown κ) (Site κ σ) α ρ) :
  ∃ (next' : Except Error Ref → Job κ σ (Except Error Ref))
      (stack' : Stack (Recipe κ) (Teardown κ) (Site κ σ) α .maker),
    Leads (c.host b) (running ((c.resolveAlone x).run.andThen next) stack w)
      (@running _ _ _ _ .maker ((c.resolveAlone y).run.andThen next') stack' w₂)
  := by
  obtain ⟨k, asked⟩ := asks.run_eq
  obtain ⟨l, comes, -⟩ := relays
  let stack' : Stack (Recipe κ) (Teardown κ) (Site κ σ) α .maker :=
    .creating x collects (fun outcome => next (outcome.map Materialized.ref)) stack
  refine ⟨fun a => (k a).andThen fun a => (l a).andThen .done, stack', ?_⟩
  have begun := h.runFor_eq next stack
  rw [← Client.andThen_done (c.constructOrDestroy b x d).run] at begun
  have same : (c.resolveAlone y).run.andThen (fun a => (k a).andThen fun a => (l a).andThen .done)
      = q.run.andThen fun a => (l a).andThen .done := by
    rw [asked, Client.andThen_assoc]
  apply Leads.trans ⟨3, begun⟩
  exact same ▸ comes (ρ := .maker) .done stack'

/-- A request whose construction fails has the error that the guard has about the end of the
creation; if there is none, it has the error of the construction with what was collected. -/
theorem fails (h : c.Begins b x d collects w w₁)
    (returns : (c.constructOrDestroy b x d).run.Returns (c.host b) w₁ (.error e) w₂) :
  ∃ outcome v, Leads (c.host b) (start (c.resolveAlone x).run w) (.halted outcome v) ∧
    c.Fails b x (· = ((w₂.registry.guard.leave x).2).getD
      (e.withRelated x (w₂.registry.collected collects))) outcome v
  := by
  have ends : Leads (c.host b) (start (c.resolveAlone x).run w)
      (finishCreation (ρ := .main) (c.host b) x collects (.error e) hand .base w₂) :=
    Leads.trans ⟨3, h.runFor_start⟩ (returns.toFrame (ρ := .maker) _)
  obtain ⟨v, concluded, hands | ⟨loud, p, breaks⟩⟩ :=
    finishCreation_cases (ρ := .main) (c.host b) x collects (.error e) hand .base w₂
  · rw [hands] at ends
    have halts := ends.trans (Leads.step (Leads.refl _))
    refine ⟨_, v, halts, ?_⟩
    have finished := concluded.finished
    obtain error | ⟨i, present, bound⟩ := w₂.registry.verdict_error x collects e
    · rw [error]
      exact .error rfl
    · rw [present] at finished ⊢
      exact .bound ((congrArg (·.get? x) finished).trans bound)
  · rw [breaks] at ends
    exact ⟨_, v, ends.trans (Leads.step (Leads.refl _)), .panic loud⟩

/-- The error of a request whose construction fails is the one of the guard, or else the one of the
construction with what was collected. -/
theorem error_eq (h : c.Begins b x d collects w w₁)
    (returns : (c.constructOrDestroy b x d).run.Returns (c.host b) w₁ (.error e) w₂)
    (ends : Leads (c.host b) (start (c.resolveAlone x).run w) (.halted (.ok (.error r)) v)) :
  r = ((w₂.registry.guard.leave x).2).getD (e.withRelated x (w₂.registry.collected collects))
  := by
  obtain ⟨outcome, u, halts, fails⟩ := h.fails returns
  obtain ⟨rfl, -⟩ := halts.halted_unique ends
  cases fails with
  | error same => exact same

end Begins

end Container

end Componentry
