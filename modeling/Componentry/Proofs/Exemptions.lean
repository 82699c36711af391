import Componentry.Proofs.Threads
import Mathlib.Tactic.IntervalCases

/-!
# Exemptions that change

A creation enters the guard when it begins, and is struck from it when it ends.  Both times the
guard asks whether the name is exempt at that moment.  The exemption may change in between, from
within callbacks, for a name that is in creation: then the two do not fit together.  The main
result, `symmetric_iff`, says that this is the only way for them not to: creations are entered and
struck symmetrically exactly as long as none ends under another exemption than it began with.
-/

namespace Componentry

open Machine

variable {φ δ μ α : Type} {host : Host φ δ μ} {n : Name}

/-- A creation that has begun. -/
structure Ticket where
  /-- The name of the component. -/
  name : Name
  /-- Whether it was exempt when the creation began. -/
  exempt : Bool
deriving DecidableEq

/-! ### The guard -/

namespace Guard

variable {g g' : Guard} {tickets : List Ticket}

/-- The names that are entered for creations. -/
def entries (tickets : List Ticket) : List Name :=
  (tickets.filter fun t => !t.exempt).map Ticket.name

/-- A creation that begins while its name is exempt adds no entry. -/
@[simp]
theorem entries_concat_exempt (tickets : List Ticket) (n : Name) :
  entries (tickets ++ [⟨n, true⟩]) = entries tickets
  := by
  simp [entries]

/-- A creation that begins while its name is not exempt adds an entry. -/
@[simp]
theorem entries_concat_plain (tickets : List Ticket) (n : Name) :
  entries (tickets ++ [⟨n, false⟩]) = entries tickets ++ [n]
  := by
  simp [entries]

/-- A creation that begins is entered as its ticket says. -/
theorem entries_of_enter (h : g.inCreation.toList = entries tickets) (he : g.enter n = .ok g') :
  g'.inCreation.toList = entries (tickets ++ [⟨n, decide (n ∈ g.exempt)⟩])
  := by
  unfold enter at he
  split at he
  · cases he
  · split at he
    · rename_i exempt
      cases he
      rw [decide_eq_true exempt, entries_concat_exempt]
      exact h
    · rename_i plain
      split at he
      · cases he
      · rename_i outside
        cases he
        rw [decide_eq_false plain, entries_concat_plain, Roster.toList_insert, if_neg outside, h]

/-- The innermost creation is struck without a violation, and leaves the entries of the others,
exactly if its name is exempt as its ticket says. -/
theorem leave_iff {b : Bool} (h : g.inCreation.toList = entries (tickets ++ [⟨n, b⟩])) :
  (g.leave n).2 = none ∧ (g.leave n).1.inCreation.toList = entries tickets
    ↔ b = decide (n ∈ g.exempt)
  := by
  unfold leave
  dsimp only
  by_cases exempt : n ∈ g.exempt
  · rw [if_pos exempt, decide_eq_true exempt]
    cases b with
    | true => simpa using h
    | false => simp [h]
  · rw [if_neg exempt, decide_eq_false exempt]
    cases b with
    | true =>
      rw [entries_concat_exempt] at h
      -- the name is entered for another creation, if at all, and the entry of that one is struck
      by_cases entered : n ∈ g.inCreation
      · have shorter := List.length_erase_of_mem (Roster.mem_iff.mp entered)
        have some := List.length_pos_of_mem (Roster.mem_iff.mp entered)
        rw [if_pos entered, ← h, Roster.toList_erase]
        refine iff_of_false ?_ Bool.noConfusion
        rintro ⟨-, same⟩
        rw [same] at shorter
        omega
      · simp [entered]
    | false =>
      rw [entries_concat_plain] at h
      have entered : n ∈ g.inCreation := by
        rw [Roster.mem_iff, h]
        simp
      have fresh : n ∉ entries tickets := by
        have nodup := g.inCreation.nodup
        rw [h, List.nodup_append] at nodup
        exact fun hn => nodup.2.2 n hn n (List.mem_singleton_self n) rfl
      rw [if_pos entered, Roster.toList_erase, h, List.erase_append_right _ fresh]
      simp

end Guard

/-! ### Tickets -/

namespace Machine

variable {m : Machine φ δ μ α} {k : Nat} {collects : Bool}

/-- The ticket of the creation that is requested with the next step. -/
def requested : Machine φ δ μ α → List Ticket
  | running (.create n _ _) _ w => [⟨n, decide (n ∈ w.registry.guard.exempt)⟩]
  | _ => []

/-- The tickets of the creations that are under way after `k` steps of a run, the outermost in
front. -/
def tickets (host : Host φ δ μ) (m : Machine φ δ μ α) : Nat → List Ticket
  | 0 => []
  | k + 1 =>
    (tickets host m k ++ (runFor host k m).requested).take (runFor host (k + 1) m).creations.length

/-- With the step `k` of a run a creation ends whose name is exempt and was not when it began, or
the other way round. -/
def Switches (host : Host φ δ μ) (m : Machine φ δ μ α) (k : Nat) : Prop :=
  ∃ n collects b, (runFor host k m).ending? = some (n, collects) ∧
    (tickets host m k).getLast? = some ⟨n, b⟩ ∧
    b ≠ decide (n ∈ (runFor host k m).registry.guard.exempt)

/-- The step `k` of a run is such that creations are entered and struck symmetrically. -/
structure Symmetric (host : Host φ δ μ) (m : Machine φ δ μ α) (k : Nat) : Prop where
  /-- After the step the names in creation are those of the creations under way that were not exempt
  when they began. -/
  names : (runFor host (k + 1) m).registry.guard.inCreation.toList
    = Guard.entries (tickets host m (k + 1))
  /-- If a creation ends, then without a violation. -/
  ending : ∀ n collects, (runFor host k m).ending? = some (n, collects) →
    ((runFor host k m).registry.leave n collects).2 = none
  /-- An instance that a factory has made is installed and handed on, if no other one is bound. -/
  installs : ∀ {ρ : Role} n collects i
    (resume : Except Error Materialized → Client φ δ μ (ρ.Result α)) (below : Stack φ δ μ α ρ)
    (w : World φ δ μ),
    runFor host k m = @running φ δ μ α .maker (.done (.ok i)) (.creating n collects resume below) w →
    w.registry.finished.get? n = none →
    ∃ v, runFor host (k + 1) m = running (resume (.ok (.created i))) below v ∧
      v.registry.finished.get? n = some i
  /-- When no creation is under way, no name is in creation. -/
  rest : (runFor host (k + 1) m).creations = [] →
    (runFor host (k + 1) m).registry.guard.inCreation.toList = []

/-! ### One step -/

/-- The creation that ends is the innermost one, and is struck from the guard. -/
theorem creations_of_ending (host : Host φ δ μ) (h : m.ending? = some (n, collects)) :
  m.creations = (m.step host).creations ++ [n] ∧
    (m.step host).registry.guard = (m.registry.guard.leave n).1
  := by
  unfold ending? at h
  split at h
  · rename_i outcome n collects ρ resume below w
    cases h
    obtain ⟨w', concluded, next | ⟨-, p, next⟩⟩ :=
      finishCreation_cases host n collects outcome resume below w <;>
    · rw [step, finish, next]
      exact ⟨rfl, concluded.steady.guard⟩
  · cases h
    exact ⟨rfl, rfl⟩
  · cases h

/-- A step with which no creation ends begins one or leaves the guard's names alone. -/
theorem creations_of_not_ending (calm : host.Calm) (h : m.ending? = none) :
  (∃ n, m.requested = [⟨n, decide (n ∈ m.registry.guard.exempt)⟩] ∧
      (m.step host).creations = m.creations ++ [n] ∧
      m.registry.guard.enter n = .ok (m.step host).registry.guard) ∨
    (m.step host).creations = m.creations ∧
      (m.step host).registry.guard.inCreation = m.registry.guard.inCreation
  := by
  simp only [creations_eq]
  cases effect_step host m with
  | stays _ frames still =>
    right
    rw [frames, still.guard]
    exact ⟨rfl, rfl⟩
  | suppresses _ _ frames registry | exempts _ _ _ _ frames registry =>
    right
    rw [frames, registry]
    exact ⟨rfl, rfl⟩
  | begins n factory resume below w collects running admitted frames =>
    left
    subst running
    obtain ⟨-, -, guard, suppressed, entered, -, -, registry⟩ := Registry.of_admitted admitted
    use n, rfl
    rw [frames, List.map_append, registry]
    exact ⟨rfl, entered⟩
  | spills n collects spills => exact absurd spills (not_spills calm m)
  | ends f _ _ _ _ ending => cases h.symm.trans ending

/-- There is a ticket for each creation that is under way. -/
theorem map_tickets (calm : host.Calm) (rest : m.creations = []) (k : Nat) :
  (tickets host m k).map Ticket.name = (runFor host k m).creations
  := by
  induction k with
  | zero => exact rest.symm
  | succ k ih =>
    rw [tickets, List.map_take, List.map_append, ih, runFor_step]
    cases he : (runFor host k m).ending? with
    | some ending =>
      obtain ⟨n, collects⟩ := ending
      rw [(creations_of_ending host he).1, List.append_assoc, List.take_left]
    | none =>
      obtain ⟨n, requested, begins, -⟩ | ⟨stays, -⟩ := creations_of_not_ending calm he
      · rw [begins, requested, List.map_singleton, List.take_length]
      · rw [stays, List.take_left]

/-- A ticket is handed back when a creation ends. -/
theorem tickets_of_ending (calm : host.Calm) (rest : m.creations = [])
    (h : (runFor host k m).ending? = some (n, collects)) :
  ∃ b, tickets host m k = tickets host m (k + 1) ++ [⟨n, b⟩]
  := by
  have names := map_tickets calm rest k
  have ends := (creations_of_ending host h).1
  rw [ends] at names
  obtain ⟨others, last, split, hothers, hlast⟩ := List.map_eq_append_iff.mp names
  obtain ⟨t, rfl, rfl⟩ := List.map_eq_singleton_iff.mp hlast
  use t.exempt
  have length : (runFor host (k + 1) m).creations.length = others.length := by
    rw [runFor_step, ← hothers, List.length_map]
  rw [tickets, length, split, List.append_assoc, List.take_left]

/-- As long as no creation ends, tickets are only added, and that as the guard enters them. -/
theorem entries_of_not_ending (calm : host.Calm) (rest : m.creations = [])
    (names : (runFor host k m).registry.guard.inCreation.toList
      = Guard.entries (tickets host m k))
    (h : (runFor host k m).ending? = none) :
  (runFor host (k + 1) m).registry.guard.inCreation.toList
    = Guard.entries (tickets host m (k + 1))
  := by
  have length : (tickets host m k).length = (runFor host k m).creations.length := by
    rw [← map_tickets calm rest k, List.length_map]
  rw [tickets, runFor_step]
  obtain ⟨n, requested, begins, entered⟩ | ⟨stays, same⟩ := creations_of_not_ending calm h
  · have all : (tickets host m k
        ++ [Ticket.mk n (decide (n ∈ (runFor host k m).registry.guard.exempt))]).length
        = ((runFor host k m).creations ++ [n]).length := by
      rw [List.length_append, List.length_append, length]
      rfl
    rw [requested, begins, ← all, List.take_length]
    apply Guard.entries_of_enter names entered
  · rw [stays, same, ← length, List.take_left, names]

/-- Where the names in creation agree with the tickets, a creation that ends is struck properly
exactly if it does not end under another exemption than it began with. -/
theorem leave_iff_not_switches (calm : host.Calm) (rest : m.creations = [])
    (names : (runFor host k m).registry.guard.inCreation.toList
      = Guard.entries (tickets host m k))
    (h : (runFor host k m).ending? = some (n, collects)) :
  ((runFor host k m).registry.leave n collects).2 = none ∧
      (runFor host (k + 1) m).registry.guard.inCreation.toList
        = Guard.entries (tickets host m (k + 1))
    ↔ ¬ Switches host m k
  := by
  obtain ⟨b, split⟩ := tickets_of_ending calm rest h
  rw [split] at names
  rw [runFor_step, (creations_of_ending host h).2]
  apply (Guard.leave_iff names).trans
  constructor
  · rintro same ⟨n', collects', b', ending, last, ne⟩
    obtain ⟨rfl, rfl⟩ := Prod.mk.inj (Option.some.inj (h.symm.trans ending))
    rw [split, List.getLast?_concat] at last
    cases last
    apply ne same
  · intro sure
    by_contra ne
    apply sure
    refine ⟨n, collects, b, h, ?_, ne⟩
    rw [split, List.getLast?_concat]

/-- Where no creation ends, no exemption has been switched. -/
theorem not_switches (h : (runFor host k m).ending? = none) :
  ¬ Switches host m k
  := by
  rintro ⟨n, collects, b, ending, -⟩
  cases h.symm.trans ending

/-- Where the names in creation agree with the tickets, a step is symmetric exactly if no creation
ends with it under another exemption than it began with. -/
theorem symmetric_iff_not_switches (calm : host.Calm) (rest : m.creations = [])
    (names : (runFor host k m).registry.guard.inCreation.toList
      = Guard.entries (tickets host m k)) :
  Symmetric host m k ↔ ¬ Switches host m k
  := by
  constructor
  · intro h
    cases he : (runFor host k m).ending? with
    | none => apply not_switches he
    | some ending =>
      obtain ⟨n, collects⟩ := ending
      apply (leave_iff_not_switches calm rest names he).mp
      exact ⟨h.ending n collects he, h.names⟩
  · intro sure
    have ending : ∀ n collects, (runFor host k m).ending? = some (n, collects) →
        ((runFor host k m).registry.leave n collects).2 = none := by
      intro n collects he
      apply ((leave_iff_not_switches calm rest names he).mpr sure).1
    -- the names agree with the tickets after the step, too
    have after : (runFor host (k + 1) m).registry.guard.inCreation.toList
        = Guard.entries (tickets host m (k + 1)) := by
      cases he : (runFor host k m).ending? with
      | none => apply entries_of_not_ending calm rest names he
      | some ending =>
        obtain ⟨n, collects⟩ := ending
        apply ((leave_iff_not_switches calm rest names he).mpr sure).2
    constructor
    case names => exact after
    case ending => exact ending
    case installs =>
      intro ρ n collects i resume below w now unbound
      have entered := ending n collects
      rw [now] at entered
      have entered : (w.registry.leave n collects).2 = none := entered rfl
      have left : (w.registry.leave n collects).1.finished.get? n = none := unbound
      rw [runFor_step, now]
      simp only [step, finish, finishCreation, entered, left, announcing_calm calm]
      refine ⟨_, rfl, ?_⟩
      apply Catalog.get?_insert_self
    case rest =>
      intro none
      rw [after, List.map_eq_nil_iff.mp ((map_tickets calm rest (k + 1)).trans none)]
      rfl

end Machine

/-- Creations are entered and struck symmetrically throughout a run that begins at rest, exactly if
none ends whose name is exempt and was not when it began, or the other way round.  As long as none
does, exemptions may change at any time: no creation ends with a violation, what a factory makes is
installed if nothing else is bound, and no name is left in creation.  Factories may panic, and those
who hear notices do not. -/
theorem symmetric_iff (calm : host.Calm) (c : Client φ δ μ α) (w : World φ δ μ)
    (rest : w.registry.AtRest) (k : Nat) :
  (∀ j < k, Symmetric host (start c w) j) ↔ ∀ j < k, ¬ Switches host (start c w) j
  := by
  have begins : (start c w).creations = [] := rfl
  have empty : w.registry.guard.inCreation.toList = [] := by
    rw [rest.inCreation]
    rfl
  induction k with
  | zero => exact ⟨fun _ _ => nofun, fun _ _ => nofun⟩
  | succ k ih =>
    -- the names agree with the tickets as long as all steps before have been symmetric
    have last (before : ∀ j < k, Symmetric host (start c w) j) :
        Symmetric host (start c w) k ↔ ¬ Switches host (start c w) k := by
      apply symmetric_iff_not_switches calm begins
      cases k with
      | zero => exact empty
      | succ k => apply (before k (Nat.lt_succ_self k)).names
    constructor
    · intro h j hj
      have before : ∀ j < k, Symmetric host (start c w) j :=
        fun j hj => h j (Nat.lt_succ_of_lt hj)
      obtain hj | rfl := Nat.lt_succ_iff_lt_or_eq.mp hj
      · apply ih.mp before j hj
      · apply (last before).mp (h j hj)
    · intro h j hj
      have before := ih.mpr fun j hj => h j (Nat.lt_succ_of_lt hj)
      obtain hj | rfl := Nat.lt_succ_iff_lt_or_eq.mp hj
      · apply before j hj
      · apply (last before).mpr (h j hj)

/-- A host whose factories change the exemption of `a` a number of times, and then succeed. -/
def Host.fickle : Host (List Bool) Unit Unit where
  make changes :=
    changes.foldr (fun b rest => .edit (.setExempt "a" b) fun _ => rest) (.done (.ok ⟨0⟩))
  dispose _ := .done (.ok ())
  hear _ m := (none, m)

/-- A moment of the run that asks for `a`, where some names are exempt at first. -/
def Machine.fickle (exempt : List Name) (changes : List Bool) (k : Nat) :
    Machine (List Bool) Unit Unit (Except Error Materialized) :=
  runFor .fickle k (start (.create "a" changes .done) ⟨.fresh ⟨true, 2, exempt, false⟩, ()⟩)

/-- The name may become exempt in the meantime. -/
theorem symmetric_iff_fickle :
  "a" ∈ (Machine.fickle [] [true, false] 2).registry.guard.exempt ∧
    (Machine.fickle [] [true, false] 5).result?.map Prod.fst
      = some (.ok (.ok (.created ⟨0⟩))) ∧
    (Machine.fickle [] [true, false] 5).registry.guard.inCreation.toList = []
  := by
  have calm : Host.fickle.Calm := fun _ _ => rfl
  have h := (symmetric_iff calm (.create "a" [true, false] .done)
    ⟨.fresh ⟨true, 2, [], false⟩, ()⟩ (Registry.atRest_fresh _) 5).mpr ?_
  · refine ⟨by decide, rfl, (h 4 (by decide)).rest rfl⟩
  · intro j hj
    interval_cases j
    case «3» =>
      rintro ⟨n, collects, b, ⟨⟩, last, ne⟩
      cases last
      apply ne rfl
    all_goals apply not_switches rfl

/-- A name that is exempt when its creation ends and was not before stays in creation.  One that
was exempt before and is no longer makes the creation end with a violation: the instance that the
factory has made is lost. -/
theorem not_symmetric :
  ((Machine.fickle [] [true] 4).result?.map Prod.fst = some (.ok (.ok (.created ⟨0⟩))) ∧
      (Machine.fickle [] [true] 4).registry.guard.inCreation.toList = ["a"] ∧
      ¬ Symmetric .fickle (Machine.fickle [] [true] 0) 2) ∧
    ((Machine.fickle ["a"] [false] 4).result?.map Prod.fst
        = some (.ok (.error (Guard.notEntered "a"))) ∧
      (Machine.fickle ["a"] [false] 4).registry.finished.get? "a" = none ∧
      ¬ Symmetric .fickle (Machine.fickle ["a"] [false] 0) 2)
  := by
  refine ⟨⟨rfl, rfl, ?_⟩, rfl, rfl, ?_⟩
  · intro h
    cases h.rest rfl
  · intro h
    cases h.ending "a" true rfl

end Componentry
