import Componentry.Machine
import Mathlib.Tactic.Common

/-!
# A logic of attempts

A machine `Leads` from one moment of a run to another if it gets there in some number of
steps.  A client `Returns` a value if, whatever waits for it, the machine leads from its
beginning to the moment at which the value is handed on; what waits plays no part, so that
clients may be reasoned about one at a time.

`Attempt.Meets` is the statement that an attempt ends, and that one condition holds if it
succeeds and another one if it fails.  There is a rule for every way in which attempts are put
together, and a rule for every request.
-/

namespace Componentry

namespace Machine

variable {φ δ μ α : Type} {host : Host φ δ μ}

/-- The machine gets from one moment to another. -/
def Leads (host : Host φ δ μ) (m m' : Machine φ δ μ α) : Prop := ∃ k, runFor host k m = m'

/-- The machine gets from every moment to itself. -/
theorem Leads.refl (m : Machine φ δ μ α) :
  Leads host m m
  := by
  use 0
  rfl

/-- Two stretches of a run make one. -/
theorem Leads.trans {m m' m'' : Machine φ δ μ α} (h : Leads host m m') (h' : Leads host m' m'') :
  Leads host m m''
  := by
  obtain ⟨j, rfl⟩ := h
  obtain ⟨k, rfl⟩ := h'
  use j + k
  apply runFor_add

/-- What can be got to from the next moment can be got to from this one. -/
theorem Leads.step {m m' : Machine φ δ μ α} (h : Leads host (m.step host) m') :
  Leads host m m'
  := by
  obtain ⟨k, rfl⟩ := h
  use k + 1
  apply runFor_succ

/-- A run that has ended stays where it is. -/
theorem runFor_halted (k : Nat) (outcome : Except Panic α) (w : World φ δ μ) :
  runFor host k (.halted outcome w) = .halted outcome w
  := by
  cases k <;> rfl

/-- A run has one end. -/
theorem Leads.halted_unique {m : Machine φ δ μ α} {o o' : Except Panic α} {w w' : World φ δ μ}
    (h : Leads host m (.halted o w)) (h' : Leads host m (.halted o' w')) :
  o = o' ∧ w = w'
  := by
  obtain ⟨j, hj⟩ := h
  obtain ⟨k, hk⟩ := h'
  have hjk : runFor host (j + k) m = .halted o w := by rw [runFor_add, hj, runFor_halted]
  rw [Nat.add_comm, runFor_add, hk, runFor_halted] at hjk
  injection hjk with ho hw
  constructor
  · symm
    apply ho
  · symm
    apply hw

/-- A run has a result exactly if it leads to its end. -/
theorem run?_eq_some_iff {c : Client φ δ μ α} {w w' : World φ δ μ} {o : Except Panic α} :
  (∃ k, run? host k c w = some (o, w')) ↔ Leads host (start c w) (.halted o w')
  := by
  constructor
  · rintro ⟨k, h⟩
    use k
    unfold run? at h
    revert h
    generalize runFor host k (start c w) = m
    cases m with
    | halted outcome w =>
      rintro h
      injection h with h
      injection h with ho hw
      rw [ho, hw]
    | running | tearing | unwinding => rintro ⟨⟩
  · rintro ⟨k, h⟩
    use k
    rw [run?, h]
    rfl

/-- A client whose run leads to an end comes to this end alone. -/
theorem Leads.run?_iff {c : Client φ δ μ α} {w w' : World φ δ μ} {o : Except Panic α}
    (h : Leads host (start c w) (.halted o w')) (o' : Except Panic α) (w'' : World φ δ μ) :
  (∃ k, run? host k c w = some (o', w'')) ↔ o' = o ∧ w'' = w'
  := by
  rw [run?_eq_some_iff]
  constructor
  · intro h'
    apply h'.halted_unique h
  · rintro ⟨rfl, rfl⟩
    exact h

end Machine

open Machine

variable {φ δ μ α β : Type} {host : Host φ δ μ}

/-- No one who hears a notice panics. -/
def Host.Calm (host : Host φ δ μ) : Prop := ∀ notice m, (host.hear notice m).1 = none

/-- If no one who hears a notice panics, the run goes on after it. -/
theorem Machine.announcing_calm (calm : host.Calm) (notice : Notice) {ρ : Role}
    (stack : Stack φ δ μ α ρ) (w : World φ δ μ) (next : World φ δ μ → Machine φ δ μ α) :
  announcing host notice stack w next = next { w with memory := (host.hear notice w.memory).2 }
  := by
  simp only [announcing, World.announce, calm notice w.memory]

/-! ### Clients that return -/

/-- A client, begun in `w`, returns `b` and leaves `w'`. -/
def Client.Returns (host : Host φ δ μ) (c : Client φ δ μ β) (w : World φ δ μ) (b : β)
    (w' : World φ δ μ) : Prop :=
  ∀ ⦃α : Type⦄ ⦃ρ : Role⦄ (next : β → Client φ δ μ (ρ.Result α)) (stack : Stack φ δ μ α ρ),
    Leads host (.running (c.andThen next) stack w) (.running (next b) stack w')

namespace Client

/-- A client that has its value returns it. -/
theorem returns_done (b : β) (w : World φ δ μ) :
  (done b : Client φ δ μ β).Returns host w b w
  := by
  intro _ _ next stack
  apply Leads.refl

/-- A client that goes on after another one returns what comes last. -/
theorem Returns.andThen {c : Client φ δ μ α} {k : α → Client φ δ μ β} {w w' w'' : World φ δ μ}
    {a : α} {b : β} (h : c.Returns host w a w') (h' : (k a).Returns host w' b w'') :
  (c.andThen k).Returns host w b w''
  := by
  intro _ _ next stack
  rw [andThen_assoc]
  apply Leads.trans (h _ stack)
  apply h'

/-- What a client returns on top of a frame is handed to the frame. -/
theorem Returns.toFrame {ρ : Role} {c : Client φ δ μ (ρ.Result α)} {w w' : World φ δ μ}
    {a : ρ.Result α} (h : c.Returns host w a w') (stack : Stack φ δ μ α ρ) :
  Leads host (.running c stack w) (finish host a stack w')
  := by
  have h := h done stack
  rw [andThen_done] at h
  apply Leads.trans h
  apply Leads.step
  apply Leads.refl

/-- A client that returns runs to its end. -/
theorem Returns.leads_halted {c : Client φ δ μ β} {w w' : World φ δ μ} {b : β}
    (h : c.Returns host w b w') :
  Leads host (start c w) (.halted (.ok b) w')
  := toFrame (ρ := .main) h .base

/-- A client returns one value. -/
theorem Returns.unique {c : Client φ δ μ β} {w w' w'' : World φ δ μ} {b b' : β}
    (h : c.Returns host w b w') (h' : c.Returns host w b' w'') :
  b = b' ∧ w' = w''
  := by
  obtain ⟨hb, hw⟩ := h.leads_halted.halted_unique h'.leads_halted
  injection hb with hb
  use hb

end Client

/-! ### Attempts that end -/

/-- The condition on an outcome that is `S` for a success and `F` for a failure. -/
def Outcome (S : α → World φ δ μ → Prop) (F : Error → World φ δ μ → Prop) :
    Except Error α → World φ δ μ → Prop
  | .ok a => S a
  | .error e => F e

/-- An attempt, begun in `w`, ends: with a success and a world of which `S` holds, or with an
error and a world of which `F` holds. -/
def Attempt.Meets (host : Host φ δ μ) (w : World φ δ μ) (c : Attempt φ δ μ α)
    (S : α → World φ δ μ → Prop) (F : Error → World φ δ μ → Prop) : Prop :=
  ∃ outcome w', Client.Returns host c.run w outcome w' ∧ Outcome S F outcome w'

namespace Attempt

variable {w : World φ δ μ} {S T : α → World φ δ μ → Prop} {F G : Error → World φ δ μ → Prop}

/-- What an attempt ends with may be weakened. -/
theorem Meets.mono {c : Attempt φ δ μ α} (h : Meets host w c S F)
    (hS : ∀ a w', S a w' → T a w') (hF : ∀ e w', F e w' → G e w') :
  Meets host w c T G
  := by
  obtain ⟨outcome, w', hr, ho⟩ := h
  use outcome, w', hr
  cases outcome with
  | ok a => apply hS _ _ ho
  | error e => apply hF _ _ ho

/-- What two statements say of an attempt holds together, since it has one outcome. -/
theorem Meets.and {c : Attempt φ δ μ α} (h : Meets host w c S F) (h' : Meets host w c T G) :
  Meets host w c (fun a w' => S a w' ∧ T a w') (fun e w' => F e w' ∧ G e w')
  := by
  obtain ⟨outcome, w', hr, ho⟩ := h
  obtain ⟨outcome', w'', hr', ho'⟩ := h'
  obtain ⟨rfl, rfl⟩ := hr.unique hr'
  use outcome, w', hr
  cases outcome with
  | ok a => use ho, ho'
  | error e => use ho, ho'

/-- An attempt that is known to end runs to one end, and does not panic. -/
theorem Meets.runs {c : Attempt φ δ μ α} (h : Meets host w c S F) :
  ∃ outcome w', Outcome S F outcome w' ∧
    ∀ o w'', (∃ k, run? host k c.run w = some (o, w'')) ↔ o = .ok outcome ∧ w'' = w'
  := by
  obtain ⟨outcome, w', hr, ho⟩ := h
  exact ⟨outcome, w', ho, hr.leads_halted.run?_iff⟩

/-- An attempt that has its value succeeds. -/
theorem meets_pure {a : α} (h : S a w) :
  Meets host w (pure a) S F
  := by
  use .ok a, w, Client.returns_done _ _, h

/-- An attempt that throws an error fails. -/
theorem meets_throw {e : Error} (h : F e w) :
  Meets host w (throw e : Attempt φ δ μ α) S F
  := by
  use .error e, w, Client.returns_done _ _, h

/-- An attempt that goes on after another one fails as soon as one of them does. -/
theorem meets_bind {c : Attempt φ δ μ β} {k : β → Attempt φ δ μ α}
    (h : Meets host w c (fun b w' => Meets host w' (k b) S F) F) :
  Meets host w (c >>= k) S F
  := by
  obtain ⟨outcome, w', hr, ho⟩ := h
  cases outcome with
  | ok b =>
    obtain ⟨outcome', w'', hr', ho'⟩ := ho
    use outcome', w'', hr.andThen hr', ho'
  | error e =>
    use .error e, w', hr.andThen (k := ExceptT.bindCont k) (Client.returns_done _ _), ho

/-- An attempt whose error is caught goes on with what is done about it. -/
theorem meets_tryCatch {c : Attempt φ δ μ α} {k : Error → Attempt φ δ μ α}
    (h : Meets host w c S (fun e w' => Meets host w' (k e) S F)) :
  Meets host w (tryCatch c k) S F
  := by
  obtain ⟨outcome, w', hr, ho⟩ := h
  cases outcome with
  | ok a =>
    refine ⟨.ok a, w', ?_, ho⟩
    apply Client.Returns.andThen hr
    apply Client.returns_done
  | error e =>
    obtain ⟨outcome', w'', hr', ho'⟩ := ho
    refine ⟨outcome', w'', ?_, ho'⟩
    apply Client.Returns.andThen hr
    apply hr'

/-- An attempt to whose value a function is applied succeeds with the value of the function. -/
theorem meets_map {c : Attempt φ δ μ β} {f : β → α}
    (h : Meets host w c (fun b w' => S (f b) w') F) :
  Meets host w (f <$> c) S F
  := by
  apply meets_bind
  apply h.mono _ (fun _ _ he => he)
  intro b w' hb
  apply meets_pure hb

/-- An attempt whose error is changed fails with the changed one. -/
theorem meets_mapError {c : Attempt φ δ μ α} {f : Error → Error}
    (h : Meets host w c S (fun e w' => F (f e) w')) :
  Meets host w (mapError f c) S F
  := by
  apply meets_tryCatch
  apply h.mono (fun _ _ ha => ha)
  intro e w' he
  apply meets_throw he

/-! ### Requests -/

/-- A client that returns is an attempt that succeeds. -/
theorem meets_ofClient {c : Client φ δ μ α} {w' : World φ δ μ} {a : α}
    (hr : c.Returns host w a w') (h : S a w') :
  Meets host w (ofClient c) S F
  := by
  refine ⟨.ok a, w', ?_, h⟩
  apply Client.Returns.andThen hr
  apply Client.returns_done

/-- To read from the registry succeeds with what is there. -/
theorem meets_reads {f : Registry φ δ → α} (h : S (f w.registry) w) :
  Meets host w (reads f) S F
  := by
  apply meets_ofClient _ h
  intro _ _ next stack
  apply Leads.step
  apply Leads.refl

/-- To recall something from the memory succeeds with what is there. -/
theorem meets_recalls {f : μ → α} (h : S (f w.memory) w) :
  Meets host w (recalls f) S F
  := by
  apply meets_ofClient _ h
  intro _ _ next stack
  apply Leads.step
  apply Leads.refl

/-- Changing the memory. -/
theorem meets_revise {f : μ → μ} {S : Unit → World φ δ μ → Prop}
    (h : S () { w with memory := f w.memory }) :
  Meets host w (ofClient (.revise f (.done ()))) S F
  := by
  apply meets_ofClient _ h
  intro _ _ next stack
  apply Leads.step
  apply Leads.refl

/-- A request that is answered at once succeeds with its answer. -/
theorem meets_edit {e : Edit φ δ} {S : e.Answer → World φ δ μ → Prop}
    (h : S (w.registry.edit e).2 { w with registry := (w.registry.edit e).1 }) :
  Meets host w (edit e) S F
  := by
  apply meets_ofClient _ h
  intro _ _ next stack
  apply Leads.step
  apply Leads.refl

/-- A lookup that needs no early reference to be made. -/
theorem meets_lookup_settled {n : Name} {early : Bool} {i : Option Ref}
    {S : Option Ref → World φ δ μ → Prop} (hs : w.registry.sight n early = .settled i)
    (h : S i w) :
  Meets host w (lookup n early) S F
  := by
  use .ok i, w, ?_, h
  intro _ _ next stack
  apply Leads.step
  change Leads host (startLookup host n early next stack w) _
  rw [startLookup, hs]
  apply Leads.refl

/-- A lookup for which an early reference has to be made. -/
theorem meets_lookup_pending {n : Name} {early : Bool} {producer : φ} {r : Registry φ δ}
    {S : Option Ref → World φ δ μ → Prop} (hs : w.registry.sight n early = .pending producer r)
    (h : Meets host { w with registry := r } (host.make producer)
      (fun i w' => S (some i) (w'.onRegistry (·.memoize n i)))
      (fun e w' => F e (w'.onRegistry (·.restore n producer)))) :
  Meets host w (lookup n early) S F
  := by
  obtain ⟨outcome, w', hr, ho⟩ := h
  have lead : ∀ {α : Type} {ρ : Role}
      (next : Except Error (Option Ref) → Client φ δ μ (ρ.Result α)) (stack : Stack φ δ μ α ρ),
      Leads host (.running (.lookup n early next) stack w)
        (finishLookup n producer outcome next stack w') := by
    intro _ _ next stack
    apply Leads.step
    change Leads host (startLookup host n early next stack w) _
    rw [startLookup, hs]
    apply hr.toFrame (ρ := .maker) (.producing n producer next stack)
  cases outcome with
  | ok i =>
    use .ok (some i), w'.onRegistry (·.memoize n i), ?_, ho
    intro _ _ next stack
    apply lead
  | error e =>
    use .error e, w'.onRegistry (·.restore n producer), ?_, ho
    intro _ _ next stack
    apply lead

/-- To ask for a creation that is refused fails with the reason. -/
theorem meets_create_refused {n : Name} {factory : φ} {e : Error}
    {S : Materialized → World φ δ μ → Prop} (hb : w.registry.beginCreation n = .refused e)
    (h : F e w) :
  Meets host w (create n factory) S F
  := by
  use .error e, w, ?_, h
  intro _ _ next stack
  apply Leads.step
  change Leads host (startCreation host n factory next stack w) _
  rw [startCreation, hb]
  apply Leads.refl

/-- A creation that begins, runs its factory and ends.  Notices are heard by `hear`, which does
not panic; nothing else is finished under the name meanwhile, and the guard knows it to the
end. -/
theorem meets_create_admitted {hear : Notice → μ → μ} (hh : ∀ t m, host.hear t m = (none, hear t m))
    {n : Name} {factory : φ} {collects : Bool} {r : Registry φ δ}
    {S : Materialized → World φ δ μ → Prop}
    (hb : w.registry.beginCreation n = .admitted collects r)
    (h : Meets host ⟨r, hear (.creating n) w.memory⟩ (host.make factory)
      (fun i w' => w'.registry.finished.get? n = none ∧ (w'.registry.guard.leave n).2 = none ∧
        S (.created i)
          ⟨(w'.registry.leave n collects).1.install n i, hear (.created n) w'.memory⟩)
      (fun e w' => w'.registry.finished.get? n = none ∧ (w'.registry.guard.leave n).2 = none ∧
        ∀ causes, F (e.withRelated n causes)
          ⟨(w'.registry.leave n collects).1.dropEarly n,
            hear (.creationFailed n (e.withRelated n causes)) w'.memory⟩)) :
  Meets host w (create n factory) S F
  := by
  obtain ⟨outcome, w', hr, ho⟩ := h
  have lead : ∀ {α : Type} {ρ : Role}
      (next : Except Error Materialized → Client φ δ μ (ρ.Result α)) (stack : Stack φ δ μ α ρ),
      Leads host (.running (.create n factory next) stack w)
        (finishCreation host n collects outcome next stack w') := by
    intro _ _ next stack
    apply Leads.step
    change Leads host (startCreation host n factory next stack w) _
    simp only [startCreation, hb, announcing, World.announce, hh]
    apply hr.toFrame (ρ := .maker) (.creating n collects next stack)
  cases outcome with
  | ok i =>
    obtain ⟨hf, hl, ho⟩ := ho
    use .ok (.created i), ⟨(w'.registry.leave n collects).1.install n i, hear (.created n) w'.memory⟩,
      ?_, ho
    intro _ _ next stack
    apply Leads.trans (lead _ stack)
    simp only [finishCreation, Registry.leave, hl, hf, announcing, World.announce, hh,
      World.onRegistry]
    apply Leads.refl
  | error e =>
    obtain ⟨hf, hl, ho⟩ := ho
    have ho := ho (w'.registry.collected collects)
    refine ⟨.error _, _, ?_, ho⟩
    intro _ _ next stack
    apply Leads.trans (lead _ stack)
    simp only [finishCreation, Registry.leave, hl, hf, announcing, World.announce, hh,
      World.onRegistry]
    apply Leads.refl

end Attempt

end Componentry
