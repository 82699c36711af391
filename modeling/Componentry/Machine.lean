import Componentry.Notice

/-!
# The machine

The machine runs a client against a registry.  It works in small steps, so that what holds
after every step holds at every moment of a run, also while callbacks of callbacks are
running.

A callback runs on top of the program that needs its result.  That program waits in a frame
of the stack: a frame for a creation, for an early reference that is being made, for a
disposal, or for something done under protection.  A destruction is a list of tasks that are
worked off one by one: the dependents of a component come first, then its disposal, then what
it contains.  A panic unwinds the stack frame by frame; the frames of disposals and of
protection stop it.
-/

namespace Componentry

/-- What a running program is for. -/
inductive Role where
  /-- It makes an instance. -/
  | maker
  /-- It disposes of a component. -/
  | disposer
  /-- It is the program that was asked for. -/
  | main
deriving DecidableEq

/-- The type of what a program returns. -/
def Role.Result (α : Type) : Role → Type
  | maker => Except Error Ref
  | disposer => Except String Unit
  | main => α

/-- A registry and a memory. -/
structure World (φ δ μ : Type) where
  /-- The registry. -/
  registry : Registry φ δ
  /-- The memory. -/
  memory : μ

/-- A part of a destruction. -/
inductive Task (δ : Type) where
  /-- Destroy a component. -/
  | destroy (name : Name)
  /-- Run the disposal of a component. -/
  | dispose (name : Name) (disposal : δ)
  /-- Destroy what a component contains. -/
  | contents (name : Name)
  /-- Strike the links of a component. -/
  | forget (name : Name)
  /-- Clear the registry, after everything was destroyed. -/
  | clear

/-- The programs that wait for the one that is running, which plays the role `ρ`. -/
inductive Stack (φ δ μ α : Type) : Role → Type where
  /-- No program waits. -/
  | base : Stack φ δ μ α .main
  /-- A program waits for the creation of a component; `collects` says that this creation
  collects the failures set aside. -/
  | creating (name : Name) (collects : Bool) {ρ : Role}
      (resume : Except Error Materialized → Client φ δ μ (ρ.Result α))
      (below : Stack φ δ μ α ρ) : Stack φ δ μ α .maker
  /-- A program waits for an early reference, which `producer` is making. -/
  | producing (name : Name) (producer : φ) {ρ : Role}
      (resume : Except Error (Option Ref) → Client φ δ μ (ρ.Result α))
      (below : Stack φ δ μ α ρ) : Stack φ δ μ α .maker
  /-- A program waits for a destruction, in which the disposal of a component runs and the
  tasks are left. -/
  | disposing (name : Name) (tasks : List (Task δ)) {ρ : Role}
      (resume : Unit → Client φ δ μ (ρ.Result α))
      (below : Stack φ δ μ α ρ) : Stack φ δ μ α .disposer
  /-- A program waits for what is done under its protection. -/
  | protecting {ρ : Role}
      (resume : Except Panic (Except String Unit) → Client φ δ μ (ρ.Result α))
      (below : Stack φ δ μ α ρ) : Stack φ δ μ α .disposer

/-- A moment of a run. -/
inductive Machine (φ δ μ α : Type) where
  /-- A program is running. -/
  | running {ρ : Role} (c : Client φ δ μ (ρ.Result α)) (stack : Stack φ δ μ α ρ)
      (w : World φ δ μ)
  /-- A destruction is worked off, for which a program waits. -/
  | tearing (tasks : List (Task δ)) {ρ : Role} (resume : Unit → Client φ δ μ (ρ.Result α))
      (stack : Stack φ δ μ α ρ) (w : World φ δ μ)
  /-- A panic unwinds the stack. -/
  | unwinding (p : Panic) {ρ : Role} (stack : Stack φ δ μ α ρ) (w : World φ δ μ)
  /-- The run has ended, with a value or with a panic. -/
  | halted (outcome : Except Panic α) (w : World φ δ μ)

namespace World

variable {φ δ μ : Type}

/-- Changes the registry. -/
def onRegistry (w : World φ δ μ) (f : Registry φ δ → Registry φ δ) : World φ δ μ :=
  { w with registry := f w.registry }

/-- Sends a notice out; the result says whether a panic came back. -/
def announce (w : World φ δ μ) (host : Host φ δ μ) (notice : Notice) :
    Option Panic × World φ δ μ :=
  let (p, m) := host.hear notice w.memory
  (p, { w with memory := m })

end World

/-- The tasks that destroy a component which has been withdrawn from the registry: its
dependents, its disposal, and then what it contains. -/
def destructionTasks {δ : Type} (name : Name) (dependents : List Name) (disposal? : Option δ) :
    List (Task δ) :=
  dependents.map .destroy ++ (disposal?.map (.dispose name)).toList
    ++ [.contents name, .forget name]

namespace Machine

variable {φ δ μ α : Type}

/-- Sends a notice out, and goes on unless a panic comes back. -/
def announcing (host : Host φ δ μ) (notice : Notice) {ρ : Role} (stack : Stack φ δ μ α ρ)
    (w : World φ δ μ) (next : World φ δ μ → Machine φ δ μ α) : Machine φ δ μ α :=
  match w.announce host notice with
  | (none, w) => next w
  | (some p, w) => .unwinding p stack w

/-- Meets a request to create a component. -/
def startCreation (host : Host φ δ μ) (n : Name) (factory : φ) {ρ : Role}
    (resume : Except Error Materialized → Client φ δ μ (ρ.Result α)) (stack : Stack φ δ μ α ρ)
    (w : World φ δ μ) : Machine φ δ μ α :=
  match w.registry.beginCreation n with
  | .present i => .running (resume (.ok (.alreadyPresent i))) stack w
  | .refused e => .running (resume (.error e)) stack w
  | .admitted collects r =>
    announcing host (.creating n) stack { w with registry := r } fun w =>
      @running φ δ μ α .maker (host.make factory) (.creating n collects resume stack) w

/-- Ends a creation whose factory has returned. -/
def finishCreation (host : Host φ δ μ) (n : Name) (collects : Bool) (outcome : Except Error Ref)
    {ρ : Role} (resume : Except Error Materialized → Client φ δ μ (ρ.Result α))
    (stack : Stack φ δ μ α ρ) (w : World φ δ μ) : Machine φ δ μ α :=
  let causes := w.registry.collected collects
  let (r, violation) := w.registry.leave n collects
  let w := { w with registry := r }
  match violation with
  | some e => .running (resume (.error e)) stack w
  | none =>
    match r.finished.get? n, outcome with
    | some i, _ => .running (resume (.ok (.alreadyPresent i))) stack w
    | none, .ok i =>
      announcing host (.created n) stack (w.onRegistry (·.install n i)) fun w =>
        .running (resume (.ok (.created i))) stack w
    | none, .error e =>
      let e := e.withRelated n causes
      announcing host (.creationFailed n e) stack (w.onRegistry (·.dropEarly n)) fun w =>
        .running (resume (.error e)) stack w

/-- Looks a name up. -/
def startLookup (host : Host φ δ μ) (n : Name) (early : Bool) {ρ : Role}
    (resume : Except Error (Option Ref) → Client φ δ μ (ρ.Result α)) (stack : Stack φ δ μ α ρ)
    (w : World φ δ μ) : Machine φ δ μ α :=
  match w.registry.sight n early with
  | .settled i => .running (resume (.ok i)) stack w
  | .pending producer r =>
    @running φ δ μ α .maker (host.make producer) (.producing n producer resume stack)
      { w with registry := r }

/-- Ends a lookup whose early reference was made, or failed to be. -/
def finishLookup (n : Name) (producer : φ) (outcome : Except Error Ref) {ρ : Role}
    (resume : Except Error (Option Ref) → Client φ δ μ (ρ.Result α)) (stack : Stack φ δ μ α ρ)
    (w : World φ δ μ) : Machine φ δ μ α :=
  match outcome with
  | .ok i => .running (resume (.ok (some i))) stack (w.onRegistry (·.memoize n i))
  | .error e => .running (resume (.error e)) stack (w.onRegistry (·.restore n producer))

/-- Goes on with a destruction after a disposal. -/
def finishDisposal (host : Host φ δ μ) (notice : Notice) (tasks : List (Task δ)) {ρ : Role}
    (resume : Unit → Client φ δ μ (ρ.Result α)) (stack : Stack φ δ μ α ρ) (w : World φ δ μ) :
    Machine φ δ μ α :=
  announcing host notice stack w fun w => .tearing tasks resume stack w

/-- Begins a destruction of everything: the components with a disposal, the newest first. -/
def startDestruction {ρ : Role} (resume : Unit → Client φ δ μ (ρ.Result α))
    (stack : Stack φ δ μ α ρ) (w : World φ δ μ) : Machine φ δ μ α :=
  .tearing (w.registry.disposals.names.reverse.map .destroy ++ [.clear]) resume stack
    (w.onRegistry (·.beginDestruction))

/-- Hands the value that a program has returned to the one that waits for it. -/
def finish (host : Host φ δ μ) {ρ : Role} (a : ρ.Result α) (stack : Stack φ δ μ α ρ)
    (w : World φ δ μ) : Machine φ δ μ α :=
  match stack, a with
  | .base, a => .halted (.ok a) w
  | .creating n collects resume below, outcome =>
    finishCreation host n collects outcome resume below w
  | .producing n producer resume below, outcome => finishLookup n producer outcome resume below w
  | .disposing n tasks resume below, .ok () =>
    finishDisposal host (.destroyed n) tasks resume below w
  | .disposing n tasks resume below, .error text =>
    finishDisposal host (.disposalFailed n (.failed text)) tasks resume below w
  | .protecting resume below, outcome => .running (resume (.ok outcome)) below w

/-- Works off one task of a destruction. -/
def tear (host : Host φ δ μ) (task : Task δ) (tasks : List (Task δ)) {ρ : Role}
    (resume : Unit → Client φ δ μ (ρ.Result α)) (stack : Stack φ δ μ α ρ) (w : World φ δ μ) :
    Machine φ δ μ α :=
  match task with
  | .destroy n =>
    .tearing
      (destructionTasks n (w.registry.graph.dependentsOf n) (w.registry.disposals.get? n)
        ++ tasks)
      resume stack (w.onRegistry (·.withdraw n))
  | .dispose n disposal =>
    @running φ δ μ α .disposer (host.dispose disposal) (.disposing n tasks resume stack) w
  | .contents n =>
    .tearing ((w.registry.graph.containedOf n).map .destroy ++ tasks) resume stack
      (w.onRegistry (·.release n))
  | .forget n => .tearing tasks resume stack (w.onRegistry (·.forget n))
  | .clear => .tearing tasks resume stack (w.onRegistry (·.clear))

/-- Unwinds one frame of the stack. -/
def unwind (host : Host φ δ μ) (p : Panic) {ρ : Role} (stack : Stack φ δ μ α ρ)
    (w : World φ δ μ) : Machine φ δ μ α :=
  match stack with
  | .base => .halted (.error p) w
  | .creating n collects _ below => .unwinding p below (w.onRegistry (·.abandon n collects))
  | .producing _ _ _ below => .unwinding p below w
  | .disposing n tasks resume below =>
    finishDisposal host (.disposalFailed n (.panicked p.reason)) tasks resume below w
  | .protecting resume below => .running (resume (.error p)) below w

/-- The next moment of a run. -/
def step (host : Host φ δ μ) : Machine φ δ μ α → Machine φ δ μ α
  | .running (.done a) stack w => finish host a stack w
  | .running (.panic p) stack w => .unwinding p stack w
  | .running (.view next) stack w => .running (next w.registry w.memory) stack w
  | .running (.revise f next) stack w => .running next stack { w with memory := f w.memory }
  | .running (.edit e next) stack w =>
    let (r, a) := w.registry.edit e
    .running (next a) stack { w with registry := r }
  | .running (.lookup n early next) stack w => startLookup host n early next stack w
  | .running (.create n factory next) stack w => startCreation host n factory next stack w
  | .running (.destroy n next) stack w => .tearing [.destroy n] next stack w
  | .running (.destroyAll next) stack w => startDestruction next stack w
  | .running (.protect body next) stack w =>
    @running φ δ μ α .disposer (host.dispose body) (.protecting next stack) w
  | .tearing [] resume stack w => .running (resume ()) stack w
  | .tearing (task :: tasks) resume stack w => tear host task tasks resume stack w
  | .unwinding p stack w => unwind host p stack w
  | .halted outcome w => .halted outcome w

/-- The moment after a number of steps, or the end of the run if that comes before. -/
def runFor (host : Host φ δ μ) : Nat → Machine φ δ μ α → Machine φ δ μ α
  | 0, m => m
  | _ + 1, .halted outcome w => .halted outcome w
  | k + 1, m => runFor host k (m.step host)

/-- The run of a client begins. -/
def start (c : Client φ δ μ α) (w : World φ δ μ) : Machine φ δ μ α :=
  @running φ δ μ α .main c .base w

/-- The end of a run, if the machine has reached it. -/
def result? : Machine φ δ μ α → Option (Except Panic α × World φ δ μ)
  | .halted outcome w => some (outcome, w)
  | _ => none

/-- Runs a client to its end, if that comes within a number of steps. -/
def run? (host : Host φ δ μ) (limit : Nat) (c : Client φ δ μ α) (w : World φ δ μ) :
    Option (Except Panic α × World φ δ μ) :=
  (runFor host limit (start c w)).result?

/-! ### Runs -/

/-- A run that has ended stays as it is. -/
@[simp]
theorem step_halted (host : Host φ δ μ) (outcome : Except Panic α) (w : World φ δ μ) :
  step host (.halted outcome w) = .halted outcome w
  := by
  simp [step]

theorem runFor_succ (host : Host φ δ μ) (k : Nat) (m : Machine φ δ μ α) :
  runFor host (k + 1) m = runFor host k (m.step host)
  := by
  cases m with
  | halted outcome w =>
    rw [step_halted]
    cases k <;> rfl
  | running | tearing | unwinding => rfl

/-- A number of steps can be made in two parts. -/
theorem runFor_add (host : Host φ δ μ) (j k : Nat) (m : Machine φ δ μ α) :
  runFor host (j + k) m = runFor host k (runFor host j m)
  := by
  induction j generalizing m with
  | zero => simp [runFor]
  | succ j ih => rw [Nat.succ_add, runFor_succ, runFor_succ, ih]

theorem runFor_step (host : Host φ δ μ) (k : Nat) (m : Machine φ δ μ α) :
  runFor host (k + 1) m = (runFor host k m).step host
  := by
  rw [runFor_add, runFor_succ]
  rfl

/-- A longer limit does not change a result. -/
theorem run?_mono {host : Host φ δ μ} {j k : Nat} {c : Client φ δ μ α} {w : World φ δ μ}
    {result : Except Panic α × World φ δ μ} (hjk : j ≤ k)
    (h : run? host j c w = some result) :
  run? host k c w = some result
  := by
  obtain ⟨d, rfl⟩ := Nat.exists_eq_add_of_le hjk
  unfold run? at h ⊢
  rw [runFor_add]
  generalize runFor host j (start c w) = m at h ⊢
  cases m with
  | halted outcome w =>
    cases d <;> exact h
  | running | tearing | unwinding => simp [result?] at h

end Machine

end Componentry
