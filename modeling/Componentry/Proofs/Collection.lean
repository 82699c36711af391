import Componentry.Proofs.Aside
import Componentry.Proofs.Threads

/-!
# The collection of failures

Failures that are set aside go to one creation, which is the outermost one.  Those within it collect
none, for each of them begins when there is a place for failures already.  None of this has to do
with the guard, so that it holds however exemptions change: `Gathers` follows the place and its
contents through a run, up to the end of the creation that collects.
-/

namespace Componentry

open Machine

variable {φ δ μ α : Type} {host : Host φ δ μ} {m : Machine φ δ μ α}

namespace Machine

variable {causes : List Error}

/-- As long as failures can be set aside in the beginning, they can be throughout a run, and no
creation of the run collects them. -/
theorem gathers_runFor (host : Host φ δ μ) {c : Client φ δ μ α} {w : World φ δ μ}
    (begins : w.registry.suppressed = some causes) (k : Nat) :
  (runFor host k (start c w)).Gathers [] (causes ++ setAside host (start c w) 0 k)
  := by
  induction k with
  | zero =>
    refine ⟨⟨[], rfl, nofun⟩, ?_⟩
    exact begins.trans (by simp [setAside])
  | succ k ih =>
    rw [runFor_step, setAside_succ, Nat.zero_add, ← List.append_assoc]
    obtain h | ⟨f, empty, -⟩ := ih.step host
    · exact h
    · simp at empty

/-- What is set aside in a run can be told in two parts. -/
theorem setAside_add (host : Host φ δ μ) (m : Machine φ δ μ α) (i d : Nat) :
  setAside host m 0 (i + d) = setAside host m 0 i ++ setAside host (runFor host i m) 0 d
  := by
  induction d with
  | zero => simp [setAside]
  | succ d ih =>
    rw [← Nat.add_assoc, setAside_succ, setAside_succ, ih, List.append_assoc, Nat.zero_add,
      Nat.zero_add, runFor_add]

/-! ### The end of the creation that collects -/

/-- The program that was asked for has nothing more to do. -/
def Quits : Machine φ δ μ α → Prop
  | @running _ _ _ _ _ (.done _) .base _ => True
  | unwinding _ .base _ => True
  | halted _ _ => True
  | _ => False

/-- A program that has nothing more to do stays so, and sets no failure aside. -/
theorem Quits.step (h : m.Quits) (host : Host φ δ μ) :
  (m.step host).Quits ∧ m.settingAside? = none
  := by
  unfold Quits at h
  split at h
  · exact ⟨trivial, rfl⟩
  · exact ⟨trivial, rfl⟩
  · exact ⟨trivial, rfl⟩
  · exact h.elim

/-- Nothing is set aside any more when the program has nothing more to do. -/
theorem Quits.later {i : Nat} (h : (runFor host i m).Quits) (d : Nat) :
  (runFor host (i + d) m).Quits ∧ setAside host m 0 (i + d) = setAside host m 0 i
  := by
  induction d with
  | zero => exact ⟨h, rfl⟩
  | succ d ih =>
    obtain ⟨quits, same⟩ := ih
    obtain ⟨next, aside⟩ := quits.step host
    rw [← Nat.add_assoc, runFor_step, setAside_succ, Nat.zero_add, same, aside]
    exact ⟨next, List.append_nil _⟩

/-- What a run has set aside when the program has nothing more to do is all that it sets aside. -/
theorem Quits.setAside_eq {i l : Nat} (h : (runFor host i m).Quits) {o : Except Panic α}
    {w : World φ δ μ} (ends : runFor host l m = .halted o w) :
  setAside host m 0 l = setAside host m 0 i
  := by
  have quits : (runFor host l m).Quits := by
    rw [ends]
    trivial
  rw [← (quits.later i).2, Nat.add_comm, (h.later l).2]

/-- A creation that ends has returned or is unwound. -/
theorem of_ending {n : Name} {collects : Bool} (h : m.ending? = some (n, collects)) :
  ∃ (ρ : Role) (resume : Except Error Materialized → Client φ δ μ (ρ.Result α))
    (below : Stack φ δ μ α ρ) (w : World φ δ μ),
    (∃ outcome, m = @running φ δ μ α .maker (.done outcome) (.creating n collects resume below) w) ∨
      ∃ p, m = unwinding p (.creating n collects resume below) w
  := by
  unfold ending? at h
  split at h
  · cases h
    exact ⟨_, _, _, _, .inl ⟨_, rfl⟩⟩
  · cases h
    exact ⟨_, _, _, _, .inr ⟨_, rfl⟩⟩
  · cases h

section Outermost

variable {n : Name} {resume : Except Error Materialized → Client φ δ μ α}

/-- The creation that the program asks for which is run. -/
def outermost (n : Name) (resume : Except Error Materialized → Client φ δ μ α) : Frame φ δ μ α where
  name := n
  collects := true
  ρ := .main
  resume := resume
  below := .base

/-- When this creation ends, and all that is left to do is to hand on what it comes to, then nothing
is left to do. -/
theorem quits_of_ending (hands : ∀ outcome, ∃ a, resume outcome = .done a)
    (alone : m.frames = [outermost n resume]) (ending : m.ending? = some (n, true))
    (host : Host φ δ μ) :
  (m.step host).Quits
  := by
  obtain ⟨ρ, resume', below, w, h⟩ := of_ending ending
  have same : below.frames ++ [⟨n, true, resume', below⟩] = [] ++ [outermost n resume] := by
    rw [List.nil_append, ← alone]
    obtain ⟨outcome, rfl⟩ | ⟨p, rfl⟩ := h
    · rfl
    · rfl
  obtain ⟨-, last⟩ := List.append_inj' same rfl
  cases List.singleton_inj.mp last
  obtain ⟨outcome, rfl⟩ | ⟨p, rfl⟩ := h
  · change (finishCreation (ρ := .main) host n true outcome resume .base w).Quits
    obtain ⟨w', -, ends⟩ :=
      finishCreation_cases (α := α) (ρ := .main) host n true outcome resume .base w
    obtain ⟨a, ha⟩ := hands (w.registry.verdict n true outcome)
    rw [ha] at ends
    obtain ends | ⟨-, p, ends⟩ := ends
    · rw [ends]
      trivial
    · rw [ends]
      trivial
  · trivial

/-- The failures that are set aside while this creation is under way are all that are set aside. -/
theorem gathers_or_quits (host : Host φ δ μ) (hands : ∀ outcome, ∃ a, resume outcome = .done a)
    (begins : m.Gathers [outermost n resume] []) (k : Nat) :
  (runFor host k m).Gathers [outermost n resume] (setAside host m 0 k) ∨ (runFor host k m).Quits
  := by
  induction k with
  | zero => exact .inl begins
  | succ k ih =>
    rw [runFor_step, setAside_succ, Nat.zero_add]
    obtain gathers | quits := ih
    · obtain h | ⟨f, last, alone, ending⟩ := gathers.step host
      · exact .inl h
      · right
        obtain rfl : outermost n resume = f := by
          rw [← List.nil_append [outermost n resume]] at last
          exact List.singleton_inj.mp (List.append_inj' last rfl).2
        exact quits_of_ending hands alone ending host
    · right
      apply (quits.step host).1

/-- When the factory of this creation has returned, the failures that the run sets aside have all
been collected. -/
theorem suppressed_of_returned (hands : ∀ outcome, ∃ a, resume outcome = .done a)
    (begins : m.Gathers [outermost n resume] []) {k l : Nat} {outcome : Except Error Ref}
    {v w : World φ δ μ} {o : Except Panic α}
    (returned : runFor host k m
      = @running φ δ μ α .maker (.done outcome) (.creating (ρ := .main) n true resume .base) v)
    (ends : runFor host l m = .halted o w) :
  v.registry.suppressed = some (setAside host m 0 l)
  := by
  obtain gathers | quits := gathers_or_quits host hands begins k
  · obtain ⟨⟨inner, -, -⟩, hs⟩ := gathers
    have quits : (runFor host (k + 1) m).Quits := by
      rw [runFor_step, returned]
      exact quits_of_ending hands rfl rfl host
    have same : setAside host m 0 (k + 1) = setAside host m 0 k := by
      rw [setAside_succ, Nat.zero_add, returned]
      apply List.append_nil
    rw [quits.setAside_eq ends, same, ← hs, returned]
    rfl
  · rw [returned] at quits
    exact quits.elim

end Outermost

end Machine

end Componentry
