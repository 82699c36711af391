import Componentry.Proofs.Context
import Componentry.Proofs.Release

/-!
# Creations end

Names that failed may be tried again, exempt names may be created while they are created, and links
may lead a destruction round in circles.  None of this goes on for ever in a container whose
callbacks are confined.  A destruction strikes the links that it follows, and a creation makes it
possible to begin one creation less, so that everything that runs comes to its end or panics.
-/

namespace Componentry

open Machine

variable {κ σ α β : Type} {D : Catalog (Definition κ)} {c : Container κ} {b : Behaviour κ σ}
  {host : Host (Recipe κ) (Teardown κ) (Site κ σ)}

/-! ### The guard -/

namespace Guard

variable {g g' : Guard} {n : Name}

/-- A creation begins only if there is room for it. -/
theorem room_of_enter (h : g.enter n = .ok g') :
  g.depth < g.limit ∧ g'.limit = g.limit
  := by
  unfold enter at h
  split at h
  · cases h
  · rename_i room
    use Nat.lt_of_not_le room
    split at h
    · cases h
      rfl
    · split at h
      · cases h
      · cases h
        rfl

theorem limit_le_of_enter {depth : Nat} (h : g.enter n = .error (.depthExceeded depth)) :
  g.limit ≤ g.depth
  := by
  unfold enter at h
  split at h
  · assumption
  · split at h
    · cases h
    · split at h <;> cases h

theorem limit_leave (g : Guard) (n : Name) :
  (g.leave n).1.limit = g.limit
  := by
  simp only [leave]
  repeat' split
  all_goals rfl

end Guard

namespace Registry

variable {φ δ : Type} {r r' r'' : Registry φ δ}

/-- Only the guard refuses a creation for its depth. -/
theorem enter_of_refused {n : Name} {depth : Nat}
    (h : r.beginCreation n = .refused (.depthExceeded depth)) :
  r.guard.enter n = .error (.depthExceeded depth)
  := by
  unfold beginCreation at h
  split at h
  · cases h
  · split at h
    · cases h
    · split at h
      · rename_i refused
        cases h
        exact refused
      · split at h <;> cases h

/-- As many creations are under way as before, and as many may be. -/
structure Level (r r' : Registry φ δ) : Prop where
  depth : r'.guard.depth = r.guard.depth
  limit : r'.guard.limit = r.guard.limit

theorem Level.of_guard (h : r'.guard = r.guard) :
  r.Level r'
  := by
  constructor <;> rw [h]

/-- Creations are counted by the guard alone. -/
theorem Level.congr (h : r.Level r') (same : r''.guard = r'.guard) :
  r.Level r''
  := by
  constructor
  · rw [same, h.depth]
  · rw [same, h.limit]

/-- A creation that has begun and ended leaves as many creations as there were. -/
theorem Level.left {n : Name} (level : r'.Level r'') (depth : r'.guard.depth = r.guard.depth + 1)
    (limit : r'.guard.limit = r.guard.limit) {r₃ : Registry φ δ}
    (left : r₃.guard = (r''.guard.leave n).1) :
  r.Level r₃
  := by
  constructor
  · rw [left, Guard.depth_leave, level.depth, depth]
    rfl
  · rw [left, Guard.limit_leave, level.limit, limit]

end Registry

/-! ### Programs that settle -/

namespace Machine

variable {ρ : Role} {m : Machine (Recipe κ) (Teardown κ) (Site κ σ) α}
  {next : β → Job κ σ (ρ.Result α)} {stack : Stack (Recipe κ) (Teardown κ) (Site κ σ) α ρ}
  {w : World (Recipe κ) (Teardown κ) (Site κ σ)} {r : Registry (Recipe κ) (Teardown κ)}

/-- The machine comes back to the program that waits on top of a stack, and as many creations are
under way then as in the registry `r`; or a panic unwinds down to the stack. -/
def Settles (host : Host (Recipe κ) (Teardown κ) (Site κ σ)) (next : β → Job κ σ (ρ.Result α))
    (stack : Stack (Recipe κ) (Teardown κ) (Site κ σ) α ρ) (r : Registry (Recipe κ) (Teardown κ))
    (m : Machine (Recipe κ) (Teardown κ) (Site κ σ) α) : Prop :=
  (∃ w a, r.Level w.registry ∧ Leads host m (running (next a) stack w)) ∨
    ∃ w p, Leads host m (unwinding p stack w)

theorem settles_running (a : β) (level : r.Level w.registry) :
  (running (next a) stack w).Settles host next stack r
  := .inl ⟨w, a, level, Leads.refl _⟩

theorem settles_unwinding (p : Panic) (w : World (Recipe κ) (Teardown κ) (Site κ σ)) :
  (unwinding p stack w).Settles host next stack r
  := .inr ⟨w, p, Leads.refl _⟩

theorem Settles.of_leads {m' : Machine (Recipe κ) (Teardown κ) (Site κ σ) α}
    (h : m'.Settles host next stack r) (leads : Leads host m m') :
  m.Settles host next stack r
  := by
  apply h.imp
  · rintro ⟨w, a, level, h⟩
    exact ⟨w, a, level, leads.trans h⟩
  · rintro ⟨w, p, h⟩
    exact ⟨w, p, leads.trans h⟩

theorem Settles.of_step (h : (m.step host).Settles host next stack r) :
  m.Settles host next stack r
  := h.of_leads (Leads.step (Leads.refl _))

/-- A program that works on the memory alone comes to its end, and leaves the registry as it is. -/
theorem leads_of_secluded (host : Host (Recipe κ) (Teardown κ) (Site κ σ)) {p : Job κ σ β}
    (hp : p.Secluded) (next : β → Job κ σ (ρ.Result α))
    (stack : Stack (Recipe κ) (Teardown κ) (Site κ σ) α ρ)
    (w : World (Recipe κ) (Teardown κ) (Site κ σ)) :
  ∃ memory, (∃ a, Leads host (running (p.andThen next) stack w)
      (running (next a) stack { w with memory })) ∨
    ∃ q, Leads host (running (p.andThen next) stack w) (unwinding q stack { w with memory })
  := by
  induction hp generalizing w with
  | done a => exact ⟨w.memory, .inl ⟨a, Leads.refl _⟩⟩
  | panic p => exact ⟨w.memory, .inr ⟨p, Leads.step (Leads.refl _)⟩⟩
  | view _ ih =>
    obtain ⟨memory, h⟩ := ih w.registry w.memory w
    exact ⟨memory, h.imp (fun ⟨a, h⟩ => ⟨a, Leads.step h⟩) fun ⟨q, h⟩ => ⟨q, Leads.step h⟩⟩
  | @revise f _ _ _ ih =>
    obtain ⟨memory, h⟩ := ih { w with memory := f w.memory }
    exact ⟨memory, h.imp (fun ⟨a, h⟩ => ⟨a, Leads.step h⟩) fun ⟨q, h⟩ => ⟨q, Leads.step h⟩⟩

/-- What it comes to is handed to the frame below. -/
theorem leads_frame_of_secluded (host : Host (Recipe κ) (Teardown κ) (Site κ σ))
    {p : Job κ σ (ρ.Result α)} (hp : p.Secluded)
    (stack : Stack (Recipe κ) (Teardown κ) (Site κ σ) α ρ)
    (w : World (Recipe κ) (Teardown κ) (Site κ σ)) :
  ∃ memory, (∃ a, Leads host (running p stack w) (finish host a stack { w with memory })) ∨
    ∃ q, Leads host (running p stack w) (unwind host q stack { w with memory })
  := by
  obtain ⟨memory, h⟩ := leads_of_secluded host hp Client.done stack w
  rw [Client.andThen_done] at h
  use memory
  apply h.imp
  · rintro ⟨a, h⟩
    exact ⟨a, h.trans (Leads.step (Leads.refl _))⟩
  · rintro ⟨q, h⟩
    exact ⟨q, h.trans (Leads.step (Leads.refl _))⟩

end Machine

/-! ### Destructions -/

/-- How much there is to do for a task, apart from the links that it follows. -/
def Task.weight {δ : Type} : Task δ → Nat
  | destroy _ => 5
  | contents _ => 2
  | dispose _ _ | forget _ | clear => 1

/-- What is to be done for the destruction of a component without dependents is less than the
destruction itself. -/
theorem Task.weight_destructionTasks {δ : Type} (n : Name) (disposal? : Option δ) :
  ((destructionTasks n [] disposal?).map weight).sum < 5
  := by
  cases disposal? <;> simp [destructionTasks, weight]

namespace Machine

variable {ρ : Role}

/-- A destruction comes to its end: with each link that it follows one row less is left. -/
theorem settles_tearing (hb : b.Confined D) (tasks : List (Task (Teardown κ)))
    (resume : Unit → Job κ σ (ρ.Result α)) (stack : Stack (Recipe κ) (Teardown κ) (Site κ σ) α ρ)
    (w : World (Recipe κ) (Teardown κ) (Site κ σ)) {r : Registry (Recipe κ) (Teardown κ)}
    (level : r.Level w.registry) :
  (tearing tasks resume stack w).Settles (c.host b) resume stack r
  := by
  match tasks with
  | [] =>
    apply Settles.of_step
    apply settles_running () level
  | .destroy n :: tasks =>
    apply Settles.of_step
    exact settles_tearing hb (destructionTasks n (w.registry.graph.dependentsOf n)
      (w.registry.disposals.get? n) ++ tasks) resume stack (w.onRegistry (·.withdraw n))
      (level.congr rfl)
  | .dispose n disposal :: tasks =>
    have after : ∀ notice memory, (finishDisposal (c.host b) notice tasks resume stack
        { w with memory }).Settles (c.host b) resume stack r := by
      intro notice memory
      apply announcing_of (P := fun m => m.Settles (c.host b) resume stack r)
      · intro _
        exact settles_tearing hb tasks resume stack ⟨w.registry, _⟩ level
      · intro p _
        apply settles_unwinding
    apply Settles.of_step
    obtain ⟨memory, ⟨text | u, h⟩ | ⟨q, h⟩⟩ := leads_frame_of_secluded (c.host b)
      (ρ := .disposer) (hb.dispose_host c disposal) (.disposing n tasks resume stack) w
    · exact (after _ memory).of_leads h
    · exact (after _ memory).of_leads h
    · exact (after _ memory).of_leads h
  | .contents n :: tasks =>
    apply Settles.of_step
    exact settles_tearing hb ((w.registry.graph.containedOf n).map .destroy ++ tasks) resume stack
      (w.onRegistry (·.release n))
      (level.congr rfl)
  | .forget n :: tasks =>
    apply Settles.of_step
    exact settles_tearing hb tasks resume stack (w.onRegistry (·.forget n))
      (level.congr rfl)
  | .clear :: tasks =>
    apply Settles.of_step
    exact settles_tearing hb tasks resume stack (w.onRegistry (·.clear))
      (level.congr rfl)
termination_by (w.registry.graph.rowCount, (tasks.map Task.weight).sum)
decreasing_by
  · cases linked : w.registry.graph.dependentsOf n with
    | nil =>
      apply Prod.Lex.right' _ (Registry.rowCount_withdraw_le _ _)
      rw [List.map_append, List.sum_append, List.map_cons, List.sum_cons]
      apply Nat.add_lt_add_right (Task.weight_destructionTasks n _)
    | cons m _ =>
      apply Prod.Lex.left
      apply Registry.rowCount_withdraw_lt (m := m)
      rw [linked]
      apply List.mem_cons_self
  · apply Prod.Lex.right
    simp [Task.weight]
  · cases linked : w.registry.graph.containedOf n with
    | nil =>
      apply Prod.Lex.right' _ (Registry.rowCount_release_le _ _)
      simp [Task.weight]
    | cons m _ =>
      apply Prod.Lex.left
      apply Registry.rowCount_release_lt (m := m)
      rw [linked]
      apply List.mem_cons_self
  · apply Prod.Lex.right' _ (Registry.rowCount_forget_le _ _)
    simp [Task.weight]
  · apply Prod.Lex.right' _ (Nat.zero_le _)
    simp [Task.weight]

end Machine

/-! ### Creations -/

namespace Client

/-- Wherever the program begins, it settles. -/
def Concludes (host : Host (Recipe κ) (Teardown κ) (Site κ σ)) (D : Catalog (Definition κ))
    (r : Registry (Recipe κ) (Teardown κ)) (p : Job κ σ β) : Prop :=
  ∀ ⦃α : Type⦄ ⦃ρ : Role⦄ (next : β → Job κ σ (ρ.Result α))
    (stack : Stack (Recipe κ) (Teardown κ) (Site κ σ) α ρ)
    (w : World (Recipe κ) (Teardown κ) (Site κ σ)), r.Level w.registry →
    (running (p.andThen next) stack w).Confined D none →
    (running (p.andThen next) stack w).Settles host next stack r

theorem Concludes.toFrame {ρ : Role} {r : Registry (Recipe κ) (Teardown κ)}
    {p : Job κ σ (ρ.Result α)} (h : p.Concludes host D r)
    {stack : Stack (Recipe κ) (Teardown κ) (Site κ σ) α ρ}
    {w : World (Recipe κ) (Teardown κ) (Site κ σ)} (level : r.Level w.registry)
    (hc : (running p stack w).Confined D none) :
  (running p stack w).Settles host done stack r
  := by
  have h := h done stack w level
  rw [andThen_done] at h
  apply h hc

end Client

namespace Machine

variable {ρ : Role} {r : Registry (Recipe κ) (Teardown κ)}
  {w : World (Recipe κ) (Teardown κ) (Site κ σ)}
  {stack : Stack (Recipe κ) (Teardown κ) (Site κ σ) α ρ}

theorem guard_records {r : Registry (Recipe κ) (Teardown κ)} {e : Edit (Recipe κ) (Teardown κ)}
    (he : e.Records) :
  (r.edit e).1.guard = r.guard
  := by
  cases e with
  | bind | publish | remove | setExempt => cases he
  | suppress | depend | contain | onDestroy => rfl

/-- A lookup settles if what goes on with its answer does. -/
theorem settles_startLookup (hb : b.Confined D) (n : Name) {early : Bool}
    (resume : Except Error (Option Ref) → Job κ σ (ρ.Result α)) {next : β → Job κ σ (ρ.Result α)}
    (level : r.Level w.registry)
    (h : (startLookup (c.host b) n early resume stack w).Confined D none)
    (goes : ∀ a w', r.Level w'.registry → (running (resume a) stack w').Confined D none →
      (running (resume a) stack w').Settles (c.host b) next stack r) :
  (startLookup (c.host b) n early resume stack w).Settles (c.host b) next stack r
  := by
  unfold startLookup at h ⊢
  cases hs : w.registry.sight n early with
  | settled i =>
    rw [hs] at h
    apply goes _ _ level h
  | pending producer r' =>
    simp only [hs] at h ⊢
    obtain ⟨-, -, rfl⟩ := Registry.of_sight_pending hs
    obtain ⟨raw, rfl⟩ := h.contained.2.1
    obtain ⟨memory, ⟨e | i, leads⟩ | ⟨q, leads⟩⟩ := leads_frame_of_secluded (c.host b)
      (ρ := .maker) (hb.intercept c .earlyReference n raw)
      (.producing n (.earlyReference n raw) resume stack)
      { w with registry := { w.registry with producers := w.registry.producers.erase n } }
    · apply Settles.of_leads _ leads
      apply goes _ _ _ (h.leads hb leads)
      obtain ⟨producers, hr⟩ := Registry.restore_eq
        { w.registry with producers := w.registry.producers.erase n } n (.earlyReference n raw)
      apply level.congr
      simp only [World.onRegistry, hr]
    · apply Settles.of_leads _ leads
      exact goes _ _ (level.congr rfl) (h.leads hb leads)
    · apply Settles.of_leads _ leads
      apply settles_unwinding

/-- A creation settles if every construction does for which there is less room, and if what goes on
with its outcome does. -/
theorem settles_startCreation (hb : b.Confined D) (n : Name) {d : Definition κ}
    (constructs : ∀ r' : Registry (Recipe κ) (Teardown κ), r'.guard.limit = r.guard.limit →
      r'.guard.depth = r.guard.depth + 1 → r.guard.depth < r.guard.limit →
      Client.Concludes (c.host b) D r' (c.constructOrDestroy b n d).run)
    (resume : Except Error Materialized → Job κ σ (ρ.Result α)) {next : β → Job κ σ (ρ.Result α)}
    (level : r.Level w.registry)
    (h : (startCreation (c.host b) n (.component n d) resume stack w).Confined D none)
    (goes : ∀ a w', r.Level w'.registry → (running (resume a) stack w').Confined D none →
      (running (resume a) stack w').Settles (c.host b) next stack r) :
  (startCreation (c.host b) n (.component n d) resume stack w).Settles (c.host b) next stack r
  := by
  unfold startCreation at h ⊢
  cases hs : w.registry.beginCreation n with
  | present i =>
    rw [hs] at h
    exact goes _ _ level h
  | refused e =>
    rw [hs] at h
    exact goes _ _ level h
  | admitted collects r' =>
    simp only [hs] at h ⊢
    obtain ⟨-, -, guard, suppressed, entered, -, -, rfl⟩ := Registry.of_admitted hs
    have more : guard.depth = r.guard.depth + 1 := by
      rw [Guard.depth_of_enter entered, level.depth]
    obtain ⟨room, most⟩ := Guard.room_of_enter entered
    have most := most.trans level.limit
    rw [level.depth, level.limit] at room
    revert h
    apply announcing_of (P := fun m => m.Confined D none → m.Settles (c.host b) next stack r)
    · intro _ h
      -- within the creation there is less room
      have construct := constructs { w.registry with guard := guard, suppressed := suppressed }
        most more room
      obtain ⟨w', outcome, level', leads⟩ | ⟨w', q, leads⟩ :=
        construct.toFrame (ρ := .maker) (.of_guard rfl) h
      · have leads := leads.trans (Leads.step (Leads.refl _))
        change Leads _ _ (finishCreation (c.host b) n collects outcome resume stack w') at leads
        obtain ⟨w'', concluded, goesOn | ⟨-, p, breaks⟩⟩ :=
          finishCreation_cases (c.host b) n collects outcome resume stack w'
        · rw [goesOn] at leads
          apply Settles.of_leads _ leads
          apply goes _ _ _ (h.leads hb leads)
          exact level'.left more most concluded.steady.guard
        · rw [breaks] at leads
          apply Settles.of_leads _ leads
          apply settles_unwinding
      · apply Settles.of_leads _ (leads.trans (Leads.step (Leads.refl _)))
        apply settles_unwinding
    · intro p _ _
      apply settles_unwinding

end Machine

namespace Client

variable {r : Registry (Recipe κ) (Teardown κ)} {last : Job κ σ β → Prop}

/-- A confined program settles, if the constructions do that it asks for. -/
theorem Confined.concludes (hb : b.Confined D)
    (constructs : ∀ r' : Registry (Recipe κ) (Teardown κ), r'.guard.limit = r.guard.limit →
      r'.guard.depth = r.guard.depth + 1 → r.guard.depth < r.guard.limit → ∀ n d,
      Concludes (c.host b) D r' (c.constructOrDestroy b n d).run)
    (hlast : ∀ p, last p → Concludes (c.host b) D r p) {p : Job κ σ β} (hp : p.Confined D last) :
  Concludes (c.host b) D r p
  := by
  -- the induction is on the program; whatever it asks for settles by itself before it goes on
  induction hp with
  | last h => apply hlast _ h
  | done a =>
    intro _ _ next stack w level h
    apply settles_running a level
  | panic p =>
    intro _ _ next stack w level h
    apply Settles.of_step
    apply settles_unwinding
  | view _ ih =>
    intro _ _ next stack w level h
    apply Settles.of_step
    exact ih _ _ h.world.definitions next stack w level (h.step (c := c) hb)
  | revise keeps _ ih =>
    intro _ _ next stack w level h
    apply Settles.of_step
    exact ih next stack _ level (h.step (c := c) hb)
  | edit he _ ih =>
    intro _ _ next stack w level h
    apply Settles.of_step
    exact ih _ next stack _ (level.congr (guard_records he)) (h.step (c := c) hb)
  | @lookup n early resume _ ih =>
    intro _ _ next stack w level h
    apply Settles.of_step
    exact settles_startLookup hb n (fun a => (resume a).andThen next) level
      (h.step (c := c) hb) fun a w' => ih a next stack w'
  | @create n d _ resume _ ih =>
    intro _ _ next stack w level h
    apply Settles.of_step
    exact settles_startCreation hb n
      (fun r' limit depth room => constructs r' limit depth room n d)
      (fun a => (resume a).andThen next) level (h.step (c := c) hb)
      fun a w' => ih a next stack w'
  | destroy n _ ih =>
    intro _ _ next stack w level h
    have h := h.step (c := c) hb
    apply Settles.of_step
    obtain ⟨w', a, level, leads⟩ | ⟨w', q, leads⟩ := settles_tearing hb [.destroy n] _ stack w level
    · apply Settles.of_leads _ leads
      exact ih a next stack w' level (h.leads hb leads)
    · apply Settles.of_leads _ leads
      apply settles_unwinding

/-- A program that offers early references settles, if reserved programs do. -/
theorem Offers.concludes (hb : b.Confined D)
    (reserved : ∀ p : Job κ σ β, p.Reserved D → Concludes (c.host b) D r p) {n : Name}
    {p : Job κ σ β} (hp : p.Offers D n) :
  Concludes (c.host b) D r p
  := by
  obtain ⟨raw, after, rfl, hn⟩ := hp
  intro _ _ next stack w level h
  have still := w.registry.still_edit (.publish n (.earlyReference n raw)) nofun nofun
  apply Settles.of_step
  exact reserved _ (hn _) next stack _ (level.congr still.guard) (h.step (c := c) hb)

end Client

/-- Every construction settles: one that is begun within another one has less room. -/
theorem Container.constructOrDestroy_concludes (hb : b.Confined D) (n : Name) (d : Definition κ)
    (r : Registry (Recipe κ) (Teardown κ)) :
  Client.Concludes (c.host b) D r (c.constructOrDestroy b n d).run
  := by
  induction room : r.guard.limit - r.guard.depth using Nat.strong_induction_on
    generalizing r n d with
  | h room ih =>
    have constructs : ∀ r' : Registry (Recipe κ) (Teardown κ), r'.guard.limit = r.guard.limit →
        r'.guard.depth = r.guard.depth + 1 → r.guard.depth < r.guard.limit → ∀ n d,
        Client.Concludes (c.host b) D r' (c.constructOrDestroy b n d).run := by
      intro r' limit depth left n d
      exact ih _ (by omega) n d r' rfl
    apply Client.Confined.concludes hb constructs _ (hb.constructOrDestroy c n d)
    intro p hp
    apply hp.concludes hb
    intro p hp
    apply hp.concludes hb constructs
    rintro _ ⟨⟩

/-- Every confined program settles. -/
theorem Client.Reserved.concludes (hb : b.Confined D) {p : Job κ σ β} (hp : p.Reserved D)
    (r : Registry (Recipe κ) (Teardown κ)) :
  p.Concludes (c.host b) D r
  := by
  apply Client.Confined.concludes hb _ _ hp
  · intro r' _ _ _ n d
    apply Container.constructOrDestroy_concludes hb
  · rintro _ ⟨⟩

/-! ### Creations within creations -/

namespace Machine

variable {own : Option Name} {most : Nat} {m : Machine (Recipe κ) (Teardown κ) (Site κ σ) α}
  {ρ : Role} {stack : Stack (Recipe κ) (Teardown κ) (Site κ σ) α ρ}
  {w : World (Recipe κ) (Teardown κ) (Site κ σ)} {n : Name}

/-- The registry goes by the same exemptions after every step. -/
theorem Confined.exempt_step (h : m.Confined D own) :
  (m.step (c.host b)).registry.guard.exempt = m.registry.guard.exempt
  := by
  have alters := alters_step (c.host b) m
  generalize (m.step (c.host b)).registry = r at alters ⊢
  cases alters with
  | keeps | memoizes | marks | withdraws | releases | forgets | clears => rfl
  | edits e next stack w =>
    by_cases aside : ∃ f, e = .suppress f
    · obtain ⟨f, rfl⟩ := aside
      rfl
    · have still := w.registry.still_edit e h.exempt_edit fun f hf => aside ⟨f, hf⟩
      exact congrArg Guard.exempt still.guard
  | takes next stack w pending =>
    exact congrArg Guard.exempt (Registry.still_of_pending pending).guard
  | restores n producer e resume below w =>
    exact congrArg Guard.exempt (w.registry.still_restore n producer).guard
  | admits factory next stack w admitted =>
    obtain ⟨-, -, guard, _, entered, -, -, rfl⟩ := Registry.of_admitted admitted
    exact Guard.exempt_enter entered
  | leaves | installs | drops | abandons => exact Guard.exempt_leave _ _

/-- A creation that is under way after a step was under way before it, or is the one that was asked
for. -/
theorem mem_creations_step (host : Host (Recipe κ) (Teardown κ) (Site κ σ)) {x : Name}
    (h : x ∈ (m.step host).creations) :
  x ∈ m.creations ∨ ∃ (ρ : Role) (factory : Recipe κ)
    (next : Except Error Materialized → Job κ σ (ρ.Result α))
    (stack : Stack (Recipe κ) (Teardown κ) (Site κ σ) α ρ)
    (w : World (Recipe κ) (Teardown κ) (Site κ σ)), m = running (.create x factory next) stack w
  := by
  rw [creations_eq] at h
  cases effect_step host m with
  | stays _ frames | suppresses _ _ frames | exempts _ _ _ _ frames | spills _ _ _ _ frames =>
    left
    rw [frames, ← creations_eq] at h
    exact h
  | begins n factory next below w collects running admitted frames =>
    rw [frames, List.map_append, List.mem_append, ← Stack.creations_eq] at h
    obtain h | h := h
    · left
      rw [running]
      exact h
    · right
      obtain rfl := List.mem_singleton.mp h
      exact ⟨_, factory, next, below, w, running⟩
  | ends f _ frames =>
    left
    rw [creations_eq, frames, List.map_append]
    exact List.mem_append_left _ h

/-- A panic unwinds the stack, and no disposal stops it. -/
def Doomed : Machine (Recipe κ) (Teardown κ) (Site κ σ) α → Prop
  | unwinding _ stack _ => stack.IsOpen
  | halted _ _ => True
  | running _ _ _ | tearing _ _ _ _ => False

/-- A machine that is doomed only ends creations. -/
theorem Doomed.step (doomed : m.Doomed) (h : m.Confined D own)
    (host : Host (Recipe κ) (Teardown κ) (Site κ σ)) :
  (m.step host).Doomed ∧ (m.step host).creations.Sublist m.creations
  := by
  cases m with
  | running | tearing => cases doomed
  | halted outcome w => exact ⟨trivial, .refl _⟩
  | unwinding p stack w =>
    cases stack with
    | base => exact ⟨trivial, .refl _⟩
    | creating n collects resume below =>
      use h.contained.1.isOpen
      apply List.sublist_append_left
    | producing | disposing | protecting => cases doomed

/-- If a panic comes back from the one who hears that a creation begins, nothing stops it. -/
theorem Spills.doomed {host : Host (Recipe κ) (Teardown κ) (Site κ σ)} (spills : m.Spills host)
    (h : m.Confined D own) :
  (m.step host).Doomed ∧ (m.step host).creations = m.creations
  := by
  unfold Spills at spills
  split at spills
  · rename_i n factory next stack w
    obtain ⟨⟨collects, r, admitted⟩, loud⟩ := spills
    obtain ⟨p, loud⟩ := Option.isSome_iff_exists.mp loud
    have next : Machine.step host (running (.create n factory next) stack w)
        = unwinding p stack ⟨r, (host.hear (.creating n) w.memory).2⟩ := by
      simp only [Machine.step, startCreation, admitted, announcing, World.announce, loud]
    rw [next]
    exact ⟨h.of_create.1, rfl⟩
  · cases spills

/-- The creations under way are no more than may be, and none is of a name that is not defined.  If
no name is exempt, they are of different names. -/
structure Nested (D : Catalog (Definition κ)) (most : Nat) (exempt : Roster)
    (m : Machine (Recipe κ) (Teardown κ) (Site κ σ) α) : Prop where
  bound : m.creations.length ≤ most
  defined : ∀ n ∈ m.creations, D.contains n = true
  nodup : exempt = ∅ → m.creations.Nodup

variable {exempt : Roster}

theorem Nested.sublist {m' : Machine (Recipe κ) (Teardown κ) (Site κ σ) α}
    (h : m.Nested D most exempt) (fewer : m'.creations.Sublist m.creations) :
  m'.Nested D most exempt
  where
  bound := fewer.length_le.trans h.bound
  defined n hn := h.defined n (fewer.subset hn)
  nodup none := (h.nodup none).sublist fewer

/-- What the guard keeps track of is nested as it should be. -/
theorem Tracked.nested (h : m.Tracked most) (hx : m.registry.guard.exempt = exempt)
    (defined : ∀ n ∈ m.creations, D.contains n = true) :
  m.Nested D most exempt
  where
  bound := h.tracks.guard.bound
  defined := defined
  nodup none := by
    have names := h.tracks.guard.inCreation
    rw [Guard.noted, hx, none] at names
    have all : m.creations.filter (· ∉ (∅ : Roster)) = m.creations := by
      apply List.filter_eq_self.mpr
      intro n _
      simp
    rw [← all, ← names]
    apply Roster.nodup

/-- At every moment the guard keeps track of the creations, or a panic brings all of them to an
end. -/
structure Ordered (D : Catalog (Definition κ)) (most : Nat) (exempt : Roster)
    (m : Machine (Recipe κ) (Teardown κ) (Site κ σ) α) : Prop where
  confined : m.Confined D none
  exemptions : m.registry.guard.exempt = exempt
  nested : m.Nested D most exempt
  tracked : m.Tracked most ∨ m.Doomed

theorem Ordered.step (hb : b.Confined D) (h : m.Ordered D most exempt) :
  (m.step (c.host b)).Ordered D most exempt
  := by
  have confined := h.confined.step (c := c) hb
  have hx := (h.confined.exempt_step (c := c) (b := b)).trans h.exemptions
  obtain tracked | doomed := h.tracked
  · by_cases spills : m.Spills (c.host b)
    · obtain ⟨doomed, same⟩ := spills.doomed h.confined
      use confined, hx
      · apply h.nested.sublist
        rw [same]
      · exact .inr doomed
    · have next := tracked.next spills h.confined.keepsExemptions
      use confined, hx
      · apply next.nested hx
        intro x hx
        obtain hx | ⟨ρ, factory, resume, stack, w, rfl⟩ := mem_creations_step (c.host b) hx
        · exact h.nested.defined x hx
        · obtain ⟨-, d, -, defined⟩ := h.confined.of_create
          exact Option.isSome_iff_exists.mpr ⟨d, defined⟩
      · exact .inl next
  · obtain ⟨next, fewer⟩ := doomed.step h.confined (c.host b)
    exact ⟨confined, hx, h.nested.sublist fewer, .inr next⟩

theorem Ordered.runFor (hb : b.Confined D) (h : m.Ordered D most exempt) (k : Nat) :
  (runFor (c.host b) k m).Ordered D most exempt
  := by
  induction k generalizing m with
  | zero => exact h
  | succ k ih =>
    rw [runFor_succ]
    apply ih (h.step hb)

/-- A creation is refused since creations are nested too deep. -/
def Overruns : Machine (Recipe κ) (Teardown κ) (Site κ σ) α → Prop
  | running (.create n _ _) _ w =>
    ∃ depth, w.registry.beginCreation n = .refused (.depthExceeded depth)
  | _ => False

/-- Creations that are nested are no more than there are definitions, if no name is exempt. -/
theorem Nested.length_le (h : m.Nested D most ∅) :
  m.creations.length ≤ D.size
  := by
  rw [Catalog.size, ← D.entries.length_map Prod.fst]
  apply (h.nodup rfl).length_le_of_subset
  intro n hn
  exact Catalog.contains_iff.mp (h.defined n hn)

/-- There is room for every creation that is asked for, if there are fewer definitions than
creations that may be nested. -/
theorem Ordered.not_overruns (h : m.Ordered D most ∅) (room : D.size < most) :
  ¬ m.Overruns
  := by
  unfold Overruns
  split
  · rename_i n factory next stack w
    rintro ⟨depth, refused⟩
    have guard := (h.tracked.resolve_right id).tracks.guard
    have full := Guard.limit_le_of_enter (Registry.enter_of_refused refused)
    have few := h.nested.length_le
    have hd : w.registry.guard.depth = _ := guard.depth
    have hl : w.registry.guard.limit = most := guard.limit
    omega
  · exact id

end Machine

/-- Asking a container for a component comes to one end, whatever fails and is tried again on the
way.  Creations are nested no deeper than may be, and all of them are of components that are
defined. If no name is exempt, no component is created within its own creation, so that creations
are nested no deeper than there are definitions, and none is refused for its depth if there are
fewer definitions than creations that may be nested. -/
theorem creation_terminates (c : Container κ) (b : Behaviour κ σ) (hb : b.Confined D) (n : Name)
    (w : World (Recipe κ) (Teardown κ) (Site κ σ)) (rest : w.registry.AtRest) (hw : w.Confined D) :
  (∃ outcome w', ∀ o v, (∃ k, run? (c.host b) k (c.resolve n none).run w = some (o, v))
    ↔ o = outcome ∧ v = w') ∧
  ∀ k, (runFor (c.host b) k (start (c.resolve n none).run w)).Nested D w.registry.guard.limit
      w.registry.guard.exempt ∧
    (w.registry.guard.exempt = ∅ →
      (runFor (c.host b) k (start (c.resolve n none).run w)).creations.length ≤ D.size ∧
      (D.size < w.registry.guard.limit →
        ¬ (runFor (c.host b) k (start (c.resolve n none).run w)).Overruns))
  := by
  have reserved : Client.Reserved D (c.resolve n none : Trial κ σ Ref).run :=
    c.reserved_resolve n none
  have confined : (start (c.resolve n none).run w).Confined D none :=
    .running ⟨fun _ => reserved.of_reserved, fun closed => absurd trivial closed⟩ trivial hw
  constructor
  · obtain ⟨w', a, -, leads⟩ | ⟨w', p, leads⟩ :=
      (reserved.concludes hb w.registry).toFrame (ρ := .main) (.of_guard rfl) confined
    · have ends := leads.trans (Leads.step (Leads.refl _))
      exact ⟨.ok a, w', ends.run?_iff⟩
    · have ends := leads.trans (Leads.step (Leads.refl _))
      exact ⟨.error p, w', ends.run?_iff⟩
  · intro k
    have begins : (start (c.resolve n none).run w).Ordered D w.registry.guard.limit
        w.registry.guard.exempt := by
      have tracked : (start (c.resolve n none).run w).Tracked w.registry.guard.limit :=
        ⟨rest.tracks, trivial⟩
      exact ⟨confined, rfl, tracked.nested rfl nofun, .inl tracked⟩
    have h := begins.runFor (c := c) hb k
    use h.nested
    intro none
    rw [none] at h
    exact ⟨h.nested.length_le, h.not_overruns⟩

/-- In a container with a cycle of two, and with a third component that asks for one that is not
defined, asking for the third one comes to an end, and creations are nested no deeper than three. -/
theorem creation_terminates_trio :
  (∃ outcome w', ∀ o v, (∃ k, run? (Crew.asking.host .small) k (Container.small.resolve "c" none).run
      (Container.small.opened .trio 0) = some (o, v)) ↔ o = outcome ∧ v = w') ∧
  ∀ k, let m := runFor (Crew.asking.host .small) k (start (Container.small.resolve "c" none).run
      (Container.small.opened .trio 0))
    m.creations.Nodup ∧ m.creations.length ≤ 3 ∧ ¬ m.Overruns
  := by
  have confined : (Container.small.opened .trio 0).Confined .trio := ⟨rfl, nofun⟩
  obtain ⟨ends, moments⟩ := creation_terminates .small (Crew.asking.behaviour .small)
    (Crew.asking.confined_behaviour .small .trio) "c" (Container.small.opened .trio 0)
    (Registry.atRest_fresh _) confined
  use ends
  intro k
  obtain ⟨nested, within⟩ := moments k
  obtain ⟨few, roomy⟩ := within rfl
  exact ⟨nested.nodup rfl, few, roomy (by decide)⟩

end Componentry
