import Componentry.Proofs.Logic

/-!
# A logic of attempts that may panic

A panic breaks out at one moment, in a program that runs somewhere above what waits for a client,
and it has unwound everything down there at a later one.  In between, no program runs, but the
creations that were under way are broken off, so that the two moments are not the same world.
`Client.Panics` relates them to the moment at which the client was begun.

`Attempt.Faces` is the statement that an attempt ends as `Attempt.Meets` says, or panics in such a
way that a condition holds of the two moments.  What puts attempts together hands a panic on, so
that only those rules are new here in which a part of an attempt may panic.
-/

namespace Componentry

open Machine

variable {φ δ μ α β : Type} {host : Host φ δ μ} {w w' u v : World φ δ μ} {p : Panic}

/-! ### Unwinding -/

namespace Machine

/-- A panic unwinds the stack. -/
def IsUnwinding (p : Panic) : Machine φ δ μ α → Prop
  | unwinding q _ _ => q = p
  | _ => False

/-- The machine gets from one moment to another by nothing but unwinding the stack. -/
def Unwinds (host : Host φ δ μ) (p : Panic) (m m' : Machine φ δ μ α) : Prop :=
  ∃ k, runFor host k m = m' ∧ ∀ j < k, (runFor host j m).IsUnwinding p

namespace Unwinds

variable {m m' m'' : Machine φ δ μ α}

/-- The machine gets to the same moment without unwinding anything. -/
theorem refl (m : Machine φ δ μ α) :
  Unwinds host p m m
  := by
  use 0, rfl
  rintro j ⟨⟩

/-- To unwind one frame is a part of unwinding the stack. -/
theorem step {ρ : Role} {stack : Stack φ δ μ α ρ}
    (h : Unwinds host p (unwind host p stack w) m) :
  Unwinds host p (.unwinding p stack w) m
  := by
  obtain ⟨k, hk, hu⟩ := h
  use k + 1, hk
  rintro (_ | j) hj
  · rfl
  · apply hu j (Nat.lt_of_succ_lt_succ hj)

/-- To unwind a stack in two parts is to unwind it. -/
theorem trans (h : Unwinds host p m m') (h' : Unwinds host p m' m'') :
  Unwinds host p m m''
  := by
  obtain ⟨k, rfl, hu⟩ := h
  obtain ⟨k', rfl, hu'⟩ := h'
  use k + k', runFor_add host k k' m
  intro j hj
  rcases Nat.lt_or_ge j k with hjk | hjk
  · apply hu j hjk
  · obtain ⟨i, rfl⟩ := Nat.exists_eq_add_of_le hjk
    rw [runFor_add]
    apply hu' i (Nat.lt_of_add_lt_add_left hj)

/-- The machine gets to where a panic has unwound the stack. -/
theorem leads (h : Unwinds host p m m') :
  Leads host m m'
  := by
  obtain ⟨k, hk, -⟩ := h
  use k

end Unwinds

end Machine

/-! ### Clients that panic -/

/-- A client, begun in `w`, panics, whatever waits for it.  The panic breaks out in `u`, and when it
has unwound everything down to what waits, the world is `v`. -/
def Client.Panics (host : Host φ δ μ) (c : Client φ δ μ β) (w : World φ δ μ) (p : Panic)
    (u v : World φ δ μ) : Prop :=
  ∀ ⦃α : Type⦄ ⦃ρ : Role⦄ (next : β → Client φ δ μ (ρ.Result α)) (stack : Stack φ δ μ α ρ),
    ∃ (ρ' : Role) (top : Stack φ δ μ α ρ'),
      Leads host (.running (c.andThen next) stack w) (@running φ δ μ α ρ' (.panic p) top u) ∧
      Unwinds host p (.unwinding p top u) (.unwinding p stack v)

namespace Client

/-- A client that panics at once panics where it is. -/
theorem panics_panic (p : Panic) (w : World φ δ μ) :
  (panic p : Client φ δ μ β).Panics host w p w w
  := by
  intro _ ρ next stack
  exact ⟨ρ, stack, Leads.refl _, Unwinds.refl _⟩

/-- A client that goes on after another one panics if what comes last does. -/
theorem Returns.andThen_panics {c : Client φ δ μ α} {k : α → Client φ δ μ β} {a : α}
    (h : c.Returns host w a w') (h' : (k a).Panics host w' p u v) :
  (c.andThen k).Panics host w p u v
  := by
  intro _ _ next stack
  obtain ⟨ρ', top, breaks, unwinds⟩ := h' next stack
  use ρ', top
  rw [andThen_assoc]
  use (h _ stack).trans breaks

/-- What would come after a panic does not come. -/
theorem Panics.andThen {c : Client φ δ μ α} (h : c.Panics host w p u v)
    (k : α → Client φ δ μ β) :
  (c.andThen k).Panics host w p u v
  := by
  intro _ _ next stack
  rw [andThen_assoc]
  apply h

/-- A panic on top of a frame unwinds down to the frame. -/
theorem Panics.toFrame {ρ : Role} {c : Client φ δ μ (ρ.Result α)} (h : c.Panics host w p u v)
    (stack : Stack φ δ μ α ρ) :
  ∃ (ρ' : Role) (top : Stack φ δ μ α ρ'),
    Leads host (.running c stack w) (@running φ δ μ α ρ' (.panic p) top u) ∧
    Unwinds host p (.unwinding p top u) (.unwinding p stack v)
  := by
  have h := h done stack
  rw [andThen_done] at h
  exact h

/-- The run of a client ends with a panic.  It breaks out in `u`, from where on no program runs any
more, and the run ends in `v`. -/
def Crashes (host : Host φ δ μ) (c : Client φ δ μ β) (w : World φ δ μ) (p : Panic)
    (u v : World φ δ μ) : Prop :=
  ∃ (ρ : Role) (top : Stack φ δ μ β ρ),
    Leads host (start c w) (@running φ δ μ β ρ (.panic p) top u) ∧
    Unwinds host p (.unwinding p top u) (.halted (.error p) v)

/-- A client that panics crashes if nothing waits for it. -/
theorem Panics.crashes {c : Client φ δ μ β} (h : c.Panics host w p u v) :
  c.Crashes host w p u v
  := by
  obtain ⟨ρ, top, breaks, unwinds⟩ := toFrame (ρ := .main) h .base
  use ρ, top, breaks
  apply unwinds.trans
  apply Unwinds.step
  apply Unwinds.refl

/-- A run that crashes ends with the panic. -/
theorem Crashes.leads {c : Client φ δ μ β} (h : c.Crashes host w p u v) :
  Leads host (start c w) (.halted (.error p) v)
  := by
  obtain ⟨ρ, top, breaks, unwinds⟩ := h
  apply breaks.trans
  apply Leads.step
  apply unwinds.leads

end Client

/-! ### Attempts that end or panic -/

/-- An attempt, begun in `w`, ends with a success of which `S` holds or with an error of which `F`
holds, or it panics, and `P` holds of the moment at which the panic breaks out and of the one at
which it has unwound the attempt. -/
def Attempt.Faces (host : Host φ δ μ) (w : World φ δ μ) (c : Attempt φ δ μ α)
    (S : α → World φ δ μ → Prop) (F : Error → World φ δ μ → Prop)
    (P : World φ δ μ → World φ δ μ → Prop) : Prop :=
  Meets host w c S F ∨ ∃ p u v, Client.Panics host c.run w p u v ∧ P u v

namespace Attempt

variable {S T : α → World φ δ μ → Prop} {F G : Error → World φ δ μ → Prop}
  {P Q : World φ δ μ → World φ δ μ → Prop}

/-- An attempt that ends faces no panic. -/
theorem Meets.faces {c : Attempt φ δ μ α} (h : Meets host w c S F) :
  Faces host w c S F P
  := .inl h

/-- An attempt ends if it cannot panic. -/
theorem Faces.meets {c : Attempt φ δ μ α} (h : Faces host w c S F fun _ _ => False) :
  Meets host w c S F
  := by
  obtain h | ⟨p, u, v, panics, ⟨⟩⟩ := h
  exact h

/-- An attempt that panics at once breaks out and is unwound where it is. -/
theorem faces_panic (h : P w w) :
  Faces host w (ExceptT.mk (.panic p) : Attempt φ δ μ α) S F P
  := .inr ⟨p, w, w, Client.panics_panic p w, h⟩

/-- An attempt may take a step. -/
theorem Faces.of_step {c c' : Client φ δ μ (Except Error α)}
    (step : ∀ {β : Type} {ρ : Role} (next : Except Error α → Client φ δ μ (ρ.Result β))
      (stack : Stack φ δ μ β ρ),
      Machine.step host (.running (c.andThen next) stack w) = .running (c'.andThen next) stack w')
    (h : Faces host w' (ExceptT.mk c') S F P) :
  Faces host w (ExceptT.mk c) S F P
  := by
  obtain ⟨outcome, v, returns, ends⟩ | ⟨p, u, v, panics, hp⟩ := h
  · refine .inl ⟨outcome, v, ?_, ends⟩
    intro _ _ next stack
    apply Leads.step
    rw [ExceptT.run_mk, step]
    apply returns
  · refine .inr ⟨p, u, v, ?_, hp⟩
    intro _ _ next stack
    obtain ⟨ρ', top, breaks, unwinds⟩ := panics next stack
    refine ⟨ρ', top, ?_, unwinds⟩
    apply Leads.step
    rw [ExceptT.run_mk, step]
    apply breaks

theorem faces_view {next : Registry φ δ → μ → Client φ δ μ (Except Error α)}
    (h : Faces host w (ExceptT.mk (next w.registry w.memory)) S F P) :
  Faces host w (ExceptT.mk (.view next)) S F P
  := h.of_step fun _ _ => rfl

theorem faces_revise {f : μ → μ} {next : Client φ δ μ (Except Error α)}
    (h : Faces host { w with memory := f w.memory } (ExceptT.mk next) S F P) :
  Faces host w (ExceptT.mk (.revise f next)) S F P
  := h.of_step fun _ _ => rfl

/-- What an attempt faces may be weakened. -/
theorem Faces.mono {c : Attempt φ δ μ α} (h : Faces host w c S F P)
    (hS : ∀ a w', S a w' → T a w') (hF : ∀ e w', F e w' → G e w')
    (hP : ∀ u v, P u v → Q u v) :
  Faces host w c T G Q
  := by
  obtain h | ⟨p, u, v, panics, hp⟩ := h
  · exact .inl (h.mono hS hF)
  · exact .inr ⟨p, u, v, panics, hP u v hp⟩

/-- An attempt that goes on after another one faces the panics of both. -/
theorem faces_bind {c : Attempt φ δ μ β} {k : β → Attempt φ δ μ α}
    (h : Faces host w c (fun b w' => Faces host w' (k b) S F P) F P) :
  Faces host w (c >>= k) S F P
  := by
  obtain ⟨outcome, w', returns, ends⟩ | ⟨p, u, v, panics, hp⟩ := h
  · cases outcome with
    | error e =>
      left
      use .error e, w', returns.andThen (k := ExceptT.bindCont k) (Client.returns_done _ _), ends
    | ok b =>
      obtain ⟨outcome', w'', returns', ends'⟩ | ⟨p, u, v, panics, hp⟩ := ends
      · left
        use outcome', w'', returns.andThen returns', ends'
      · right
        use p, u, v, returns.andThen_panics panics, hp
  · right
    use p, u, v, panics.andThen _, hp

/-- An attempt whose error is caught faces the panics of what is done about it as well. -/
theorem faces_tryCatch {c : Attempt φ δ μ α} {k : Error → Attempt φ δ μ α}
    (h : Faces host w c S (fun e w' => Faces host w' (k e) S F P) P) :
  Faces host w (tryCatch c k) S F P
  := by
  obtain ⟨outcome, w', returns, ends⟩ | ⟨p, u, v, panics, hp⟩ := h
  · cases outcome with
    | ok a =>
      left
      refine ⟨.ok a, w', ?_, ends⟩
      apply Client.Returns.andThen returns
      apply Client.returns_done
    | error e =>
      obtain ⟨outcome', w'', returns', ends'⟩ | ⟨p, u, v, panics, hp⟩ := ends
      · left
        refine ⟨outcome', w'', ?_, ends'⟩
        apply Client.Returns.andThen returns
        apply returns'
      · right
        refine ⟨p, u, v, ?_, hp⟩
        apply Client.Returns.andThen_panics returns
        apply panics
  · right
    refine ⟨p, u, v, ?_, hp⟩
    apply Client.Panics.andThen panics

/-- An attempt to whose value a function is applied faces the same panics. -/
theorem faces_map {c : Attempt φ δ μ β} {f : β → α}
    (h : Faces host w c (fun b w' => S (f b) w') F P) :
  Faces host w (f <$> c) S F P
  := by
  apply faces_bind
  apply h.mono _ (fun _ _ => id) fun _ _ => id
  intro b w' hb
  apply (meets_pure hb).faces

/-- An attempt whose error is changed faces the same panics. -/
theorem faces_mapError {c : Attempt φ δ μ α} {f : Error → Error}
    (h : Faces host w c S (fun e w' => F (f e) w') P) :
  Faces host w (mapError f c) S F P
  := by
  apply faces_tryCatch
  apply h.mono (fun _ _ => id) _ fun _ _ => id
  intro e w' he
  apply (meets_throw he).faces

/-- A lookup for which an early reference has to be made, if making it may panic. -/
theorem faces_lookup_pending {n : Name} {early : Bool} {producer : φ} {r : Registry φ δ}
    {S : Option Ref → World φ δ μ → Prop} (hs : w.registry.sight n early = .pending producer r)
    (h : Faces host { w with registry := r } (host.make producer)
      (fun i w' => S (some i) (w'.onRegistry (·.memoize n i)))
      (fun e w' => F e (w'.onRegistry (·.restore n producer))) P) :
  Faces host w (lookup n early) S F P
  := by
  obtain h | ⟨p, u, v, panics, hp⟩ := h
  · exact .inl (meets_lookup_pending hs h)
  · refine .inr ⟨p, u, v, ?_, hp⟩
    intro _ _ next stack
    obtain ⟨ρ', top, breaks, unwinds⟩ :=
      panics.toFrame (ρ := .maker) (.producing n producer next stack)
    refine ⟨ρ', top, ?_, ?_⟩
    · apply Leads.step
      change Leads host (startLookup host n early next stack w) _
      rw [startLookup, hs]
      apply breaks
    · apply unwinds.trans
      apply Unwinds.step
      apply Unwinds.refl

/-- A creation that begins and runs its factory.  If that panics, the creation is broken off. -/
theorem faces_create_admitted {hear : Notice → μ → μ} (hh : ∀ t m, host.hear t m = (none, hear t m))
    {n : Name} {factory : φ} {collects : Bool} {r : Registry φ δ}
    {S : Materialized → World φ δ μ → Prop}
    (hb : w.registry.beginCreation n = .admitted collects r)
    (h : Faces host ⟨r, hear (.creating n) w.memory⟩ (host.make factory)
      (fun i w' => w'.registry.finished.get? n = none ∧ (w'.registry.guard.leave n).2 = none ∧
        S (.created i)
          ⟨(w'.registry.leave n collects).1.install n i, hear (.created n) w'.memory⟩)
      (fun e w' => w'.registry.finished.get? n = none ∧ (w'.registry.guard.leave n).2 = none ∧
        ∀ causes, F (e.withRelated n causes)
          ⟨(w'.registry.leave n collects).1.dropEarly n,
            hear (.creationFailed n (e.withRelated n causes)) w'.memory⟩)
      (fun u v => P u (v.onRegistry (·.abandon n collects)))) :
  Faces host w (create n factory) S F P
  := by
  obtain h | ⟨p, u, v, panics, hp⟩ := h
  · exact .inl (meets_create_admitted hh hb h)
  · refine .inr ⟨p, u, _, ?_, hp⟩
    intro _ _ next stack
    obtain ⟨ρ', top, breaks, unwinds⟩ :=
      panics.toFrame (ρ := .maker) (.creating n collects next stack)
    refine ⟨ρ', top, ?_, ?_⟩
    · apply Leads.step
      change Leads host (startCreation host n factory next stack w) _
      simp only [startCreation, hb, announcing, World.announce, hh]
      apply breaks
    · apply unwinds.trans
      apply Unwinds.step
      apply Unwinds.refl

/-- An attempt that is known to end or to panic runs to one end. -/
theorem Faces.runs {c : Attempt φ δ μ α} (h : Faces host w c S F P) :
  (∃ outcome w', Outcome S F outcome w' ∧
    ∀ o w'', (∃ k, run? host k c.run w = some (o, w'')) ↔ o = .ok outcome ∧ w'' = w') ∨
  ∃ p u v, P u v ∧ Client.Crashes host c.run w p u v ∧
    ∀ o w'', (∃ k, run? host k c.run w = some (o, w'')) ↔ o = .error p ∧ w'' = v
  := by
  obtain h | ⟨p, u, v, panics, hp⟩ := h
  · exact .inl h.runs
  · have crashes := panics.crashes
    exact .inr ⟨p, u, v, hp, crashes, crashes.leads.run?_iff⟩

end Attempt

end Componentry
