import Componentry.Proofs.Inquiries

/-!
# Registrations of early references

A producer that is registered for a component takes the place of an earlier one, and of what that
has made.  While a lookup has an early reference made, the producer may call the registry back, also
for the same component: it may register another producer, bind an instance, or look the component up
itself.  When such a lookup ends it keeps what its producer has made, or puts the producer back,
whatever was registered in the meantime.

The main result, `registration_followed_iff`, says that this is the only way for a lookup not to
follow the registration that stands: lookups do so throughout a run exactly as long as none that
began earlier overtakes it.
-/

namespace Componentry

open Machine

variable {φ δ μ α : Type} {host : Host φ δ μ} {n : Name} {p q : φ} {i : Ref}

namespace Machine

variable {m : Machine φ δ μ α} {j k s : Nat}

/-! ### Registrations -/

/-- With the next step a producer is registered for a component, which is not finished. -/
def Registers (n : Name) (p : φ) (m : Machine φ δ μ α) : Prop :=
  m.Publishes n p ∧ (m.registry.publish n p).2 = true

/-- With the next step a registration for a component comes to its end. -/
inductive Withdraws (host : Host φ δ μ) (n : Name) (m : Machine φ δ μ α) : Prop
  /-- The component is removed. -/
  | removes (removes : m.Removes n)
  /-- A creation of the component ends. -/
  | ends (collects : Bool) (ending : m.ending? = some (n, collects))
  /-- The component is finished. -/
  | finishes (i : Ref) (binds : (m.step host).Binds n i)
  /-- Another producer is registered. -/
  | replaces (p : φ) (registers : m.Registers n p)

/-- Before the step `k` of a run the registration of `p` for a component stands, which was made with
the step `j`. -/
structure Registered (host : Host φ δ μ) (m : Machine φ δ μ α) (n : Name) (j : Nat) (p : φ)
    (k : Nat) : Prop where
  registers : (runFor host j m).Registers n p
  before : j < k
  stands : ∀ l, j < l → l < k → ¬ (runFor host l m).Withdraws host n

/-- Before the step `k` of a run the producer `p` has made an early reference to a component, for a
lookup that began after the step `j`. -/
def Made (host : Host φ δ μ) (m : Machine φ δ μ α) (n : Name) (j : Nat) (p : φ) (k : Nat)
    (i : Ref) : Prop :=
  ∃ l < k, (runFor host l m).Materializes n p i ∧
    ∃ x, (inquiries host m l).getLast? = some x ∧ j < x.began

/-- The next step answers a lookup with an instance that is there. -/
def Finds (n : Name) (i : Ref) : Machine φ δ μ α → Prop
  | running (.lookup m early _) _ w => m = n ∧ w.registry.sight m early = .settled (some i)
  | _ => False

/-- With the step `k` of a run a lookup that began with the step `s` returns an instance of a
component. -/
inductive Answers (host : Host φ δ μ) (m : Machine φ δ μ α) (n : Name) (s k : Nat) (i : Ref) : Prop
  /-- The instance is there. -/
  | finds (now : s = k) (finds : (runFor host k m).Finds n i)
  /-- An early reference has been made. -/
  | makes (p : φ) (materializes : (runFor host k m).Materializes n p i)
      (last : (inquiries host m k).getLast? = some ⟨n, p, s⟩)

/-- The step `k` of a run is such that lookups follow the last registration. -/
structure Follows (host : Host φ δ μ) (m : Machine φ δ μ α) (k : Nat) : Prop where
  /-- If a component is finished, then its lookups return the finished instance. -/
  bound : ∀ n s i f, Answers host m n s k i → (runFor host (k + 1) m).Binds n f → i = f
  /-- Lookups that begin after a registration return what the producer has made. -/
  produced : ∀ n j p s i, Registered host m n j p k → j < s → Answers host m n s k i →
    Made host m n j p (k + 1) i
  /-- They return the same instance every time. -/
  same : ∀ n j p s i s' k' i', Registered host m n j p k → j < s → Answers host m n s k i →
    j < s' → k' ≤ k → Answers host m n s' k' i' → i' = i
  /-- The registry holds no other early reference. -/
  held : ∀ n j p i, Registered host m n j p (k + 1) →
    (runFor host (k + 1) m).registry.early.get? n = some i → Made host m n j p (k + 1) i
  /-- The registry takes no other producer for one. -/
  offered : ∀ n j p q, Registered host m n j p (k + 1) →
    (runFor host (k + 1) m).registry.early.get? n = none →
    (runFor host (k + 1) m).registry.producers.get? n = some q → q = p

/-- With the step `k` of a run a lookup ends, and what it leaves takes the place of what came in the
meantime. -/
inductive Overtakes (host : Host φ δ μ) (m : Machine φ δ μ α) (k : Nat) : Prop
  /-- It returns an early reference to a component that is bound to something else. -/
  | finished (n : Name) (p : φ) (i f : Ref) (materializes : (runFor host k m).Materializes n p i)
      (binds : (runFor host k m).Binds n f) (other : i ≠ f)
  /-- It began before a registration, and keeps an early reference that was not made for it. -/
  | keeps (n : Name) (j : Nat) (q p : φ) (s : Nat) (i : Ref)
      (registered : Registered host m n j q k)
      (materializes : (runFor host k m).Materializes n p i)
      (last : (inquiries host m k).getLast? = some ⟨n, p, s⟩) (earlier : s ≤ j)
      (other : ¬ Made host m n j q k i)
  /-- It began before a registration, of which nothing is left, and puts its producer back. -/
  | restores (n : Name) (j : Nat) (q p : φ) (s : Nat)
      (registered : Registered host m n j q k) (fails : (runFor host k m).Fails n p)
      (last : (inquiries host m k).getLast? = some ⟨n, p, s⟩) (earlier : s ≤ j) (other : p ≠ q)
      (bare : (runFor host k m).registry.Bare n)
      (back : (runFor host (k + 1) m).registry.producers.get? n = some p)

/-! ### What a step does to the early tiers -/

/-- How a step treats the early tiers of a component for which a registration goes on. -/
inductive Handles (host : Host φ δ μ) (n : Name) (m : Machine φ δ μ α) : Prop
  /-- They stay as they are. -/
  | spares (unmade : ∀ p i, ¬ m.Materializes n p i) (unsought : ∀ p, m.sought? ≠ some (n, p))
      (producers : (m.step host).registry.producers.get? n = m.registry.producers.get? n)
      (early : (m.step host).registry.early.get? n = m.registry.early.get? n)
  /-- A lookup takes the producer. -/
  | takes (p : φ) (sought : m.sought? = some (n, p))
      (offered : m.registry.producers.get? n = some p) (early : m.registry.early.get? n = none)
      (bare : (m.step host).registry.Bare n)
  /-- An early reference is kept. -/
  | keeps (p : φ) (i : Ref) (materializes : m.Materializes n p i)
  /-- A producer has failed, and may be put back. -/
  | restores (p : φ) (fails : m.Fails n p)
      (producers : (m.step host).registry.producers.get? n = m.registry.producers.get? n ∨
        m.registry.producers.get? n = none ∧
          (m.step host).registry.producers.get? n = some p)
      (early : (m.step host).registry.early.get? n = m.registry.early.get? n)

/-- A producer that is offered is registered, unless the component is finished. -/
theorem Publishes.withdraws (h : m.Publishes n p) (host : Host φ δ μ) :
  m.Withdraws host n
  := by
  obtain ⟨ρ, next, stack, w, rfl⟩ := h.eq
  cases finished : w.registry.finished.get? n with
  | none =>
    apply Withdraws.replaces p
    use ⟨rfl, rfl⟩
    change (w.registry.publish n p).2 = true
    simp [Registry.publish, Catalog.contains, finished]
  | some i =>
    apply Withdraws.finishes i
    change (w.registry.publish n p).1.finished.get? n = some i
    simp [Registry.publish, Catalog.contains, finished]

/-- As long as the registration for a component stands, its early tiers are only changed by its
lookups. -/
theorem handles (stands : ¬ m.Withdraws host n) :
  m.Handles host n
  := by
  by_cases touches : m.Touches n
  · cases touches with
    | binds i next stack w =>
      obtain ⟨f, bound⟩ := w.registry.bound_edit_bind n i
      exact absurd (.finishes f bound) stands
    | publishes p publishes => exact absurd (publishes.withdraws host) stands
    | removes removes => exact absurd (.removes removes) stands
    | ends collects ending => exact absurd (.ends collects ending) stands
    | takes p sought =>
      obtain ⟨offered, early, bare⟩ := bare_of_sought sought host
      exact .takes p sought offered early bare
    | keeps p i makes => exact .keeps p i makes
    | restores p fails => exact .restores p fails (fails.producers host) (fails.early host)
  · obtain ⟨producers, early⟩ := tiers_of_not_touches touches host
    exact .spares (fun p i makes => touches (.keeps p i makes))
      (fun p sought => touches (.takes p sought)) producers early

/-! ### The registration that stands -/

/-- A producer is registered at the request of a program, for a component that is not finished. -/
theorem Registers.eq (h : m.Registers n p) :
  ∃ (ρ : Role) (next : Bool → Client φ δ μ (ρ.Result α)) (stack : Stack φ δ μ α ρ)
    (w : World φ δ μ),
    m = running (.edit (.publish n p) next) stack w ∧ w.registry.finished.get? n = none
  := by
  obtain ⟨publishes, taken⟩ := h
  obtain ⟨ρ, next, stack, w, rfl⟩ := publishes.eq
  refine ⟨ρ, next, stack, w, rfl, ?_⟩
  change (w.registry.publish n p).2 = true at taken
  unfold Registry.publish at taken
  split at taken
  · cases taken
  · rename_i unfinished
    exact Option.not_isSome_iff_eq_none.mp unfinished

/-- A registration does not finish the component. -/
theorem Registers.unfinished (h : m.Registers n p) (host : Host φ δ μ) :
  (m.step host).registry.finished.get? n = none
  := by
  obtain ⟨ρ, next, stack, w, rfl, unfinished⟩ := h.eq
  change (w.registry.publish n p).1.finished.get? n = none
  unfold Registry.publish
  split <;> exact unfinished

/-- A registration takes the place of an earlier one. -/
theorem Registers.early (h : m.Registers n p) (host : Host φ δ μ) :
  (m.step host).registry.producers.get? n = some p ∧
    (m.step host).registry.early.get? n = none
  := by
  obtain ⟨ρ, next, stack, w, rfl, unfinished⟩ := h.eq
  apply Registry.publish_unfinished unfinished

/-- A registration stands until a step withdraws it. -/
theorem Registered.succ (h : Registered host m n j p k)
    (stands : ¬ (runFor host k m).Withdraws host n) :
  Registered host m n j p (k + 1)
  where
  registers := h.registers
  before := Nat.lt_succ_of_lt h.before
  stands l hj hl := by
    obtain hl | rfl := Nat.lt_succ_iff_lt_or_eq.mp hl
    · exact h.stands l hj hl
    · exact stands

/-- A registration is made with the last step, or it stood before. -/
theorem Registered.of_succ (h : Registered host m n j p (k + 1)) :
  j = k ∨ Registered host m n j p k ∧ ¬ (runFor host k m).Withdraws host n
  := by
  obtain before | now := Nat.lt_succ_iff_lt_or_eq.mp h.before
  · right
    use ⟨h.registers, before, fun l hj hl => h.stands l hj (Nat.lt_succ_of_lt hl)⟩
    exact h.stands k before (Nat.lt_succ_self k)
  · exact .inl now

/-- A component with a registration is not finished. -/
theorem Registered.unfinished (h : Registered host m n j p k) :
  (runFor host k m).registry.finished.get? n = none
  := by
  cases k with
  | zero => cases h.before
  | succ k =>
    rw [runFor_step]
    obtain rfl | ⟨-, stands⟩ := h.of_succ
    · exact h.registers.unfinished host
    · by_contra finished
      obtain ⟨i, binds⟩ := Option.ne_none_iff_exists'.mp finished
      exact stands (.finishes i binds)

/-- An early reference has been made before the next step if it was made before, or is materialized
with this one for a lookup that began after the registration. -/
theorem made_succ_iff :
  Made host m n j p (k + 1) i ↔ Made host m n j p k i ∨
    (runFor host k m).Materializes n p i ∧
      ∃ x, (inquiries host m k).getLast? = some x ∧ j < x.began
  := by
  constructor
  · rintro ⟨l, hl, made⟩
    obtain hl | rfl := Nat.lt_succ_iff_lt_or_eq.mp hl
    · exact .inl ⟨l, hl, made⟩
    · exact .inr made
  · rintro (⟨l, hl, made⟩ | made)
    · exact ⟨l, Nat.lt_succ_of_lt hl, made⟩
    · exact ⟨k, Nat.lt_succ_self k, made⟩

/-- What has been made before a step has been made before later ones. -/
theorem Made.mono {k' : Nat} (h : Made host m n j p k i) (le : k ≤ k') :
  Made host m n j p k' i
  := by
  obtain ⟨l, hl, made⟩ := h
  exact ⟨l, Nat.lt_of_lt_of_le hl le, made⟩

/-- What is left of the registration of `p` with the step `j` before the step `k` of a run. -/
structure Upholds (host : Host φ δ μ) (m : Machine φ δ μ α) (n : Name) (j : Nat) (p : φ) (k : Nat) :
    Prop where
  /-- The early reference is the one that was made for it. -/
  held : ∀ i, (runFor host k m).registry.early.get? n = some i ↔ Made host m n j p k i
  /-- If there is no early reference, then there is no other producer either. -/
  offered : (runFor host k m).registry.early.get? n = none →
    ∀ q, (runFor host k m).registry.producers.get? n = some q → q = p
  /-- A lookup under way that began later has taken the producer. -/
  taken : ∀ x ∈ inquiries host m k, x.name = n → j < x.began →
    x.producer = p ∧ (runFor host k m).registry.Bare n
  /-- There is no more than one such lookup. -/
  alone : ∀ x ∈ inquiries host m k, ∀ y ∈ inquiries host m k, x.name = n → y.name = n →
    j < x.began → j < y.began → x = y

/-- With a registration its producer is in the registry, and nothing has been made yet. -/
theorem Registers.upholds (h : (runFor host j m).Registers n p) :
  Upholds host m n j p (j + 1)
  := by
  obtain ⟨offered, early⟩ := h.early host
  rw [← runFor_step] at offered early
  have older {x : Inquiry φ} (hx : x ∈ inquiries host m (j + 1)) : ¬ j < x.began :=
    Nat.not_lt_of_le (Nat.lt_succ_iff.mp (began_lt hx))
  constructor
  case held =>
    intro i
    apply iff_of_false
    · rw [early]
      exact (Option.some_ne_none i).symm
    · rintro ⟨l, hl, -, x, last, later⟩
      have began := began_lt (List.mem_of_getLast? last)
      omega
  case offered =>
    intro _ q hq
    exact Option.some.inj (hq.symm.trans offered)
  case taken => exact fun x hx _ later => absurd later (older hx)
  case alone => exact fun x hx _ _ _ _ later => absurd later (older hx)

/-- When a lookup ends, none is left that began after the registration. -/
theorem Upholds.none_left (h : Upholds host m n j p k) {last : Inquiry φ}
    (split : inquiries host m k = inquiries host m (k + 1) ++ [last]) (hn : last.name = n)
    {x : Inquiry φ} (hx : x ∈ inquiries host m (k + 1)) (name : x.name = n) :
  ¬ j < x.began
  := by
  intro later
  have ordered := pairwise_began host m k
  rw [split, List.pairwise_append] at ordered
  have inner := ordered.2.2 x hx last (List.mem_singleton_self last)
  have same := h.alone x (split ▸ List.mem_append_left _ hx) last
    (split ▸ List.mem_append_right _ (List.mem_singleton_self last)) name hn later
    (Nat.lt_trans later inner)
  rw [same] at inner
  exact Nat.lt_irrefl _ inner

/-- A step keeps what is left of a registration, if it leaves the early tiers alone. -/
theorem Upholds.spares (h : Upholds host m n j p k)
    (unmade : ∀ q i, ¬ (runFor host k m).Materializes n q i)
    (unsought : ∀ q, (runFor host k m).sought? ≠ some (n, q))
    (producers : (runFor host (k + 1) m).registry.producers.get? n
      = (runFor host k m).registry.producers.get? n)
    (early : (runFor host (k + 1) m).registry.early.get? n
      = (runFor host k m).registry.early.get? n) :
  Upholds host m n j p (k + 1)
  := by
  have before {x : Inquiry φ} (hx : x ∈ inquiries host m (k + 1)) (name : x.name = n) :
      x ∈ inquiries host m k := by
    obtain old | ⟨sought, -⟩ := of_mem_inquiries hx
    · exact old
    · rw [name] at sought
      exact absurd sought (unsought _)
  constructor
  case held =>
    intro i
    rw [early, h.held, made_succ_iff]
    exact (or_iff_left fun made => unmade p i made.1).symm
  case offered =>
    rw [early, producers]
    exact h.offered
  case taken =>
    intro x hx name later
    rw [Registry.Bare, early, producers]
    exact h.taken x (before hx name) name later
  case alone =>
    intro x hx y hy hxn hyn
    exact h.alone x (before hx hxn) y (before hy hyn) hxn hyn

/-- A lookup begins that takes the producer. -/
theorem Upholds.takes (h : Upholds host m n j p k)
    (sought : (runFor host k m).sought? = some (n, q))
    (offered : (runFor host k m).registry.producers.get? n = some q)
    (early : (runFor host k m).registry.early.get? n = none)
    (bare : (runFor host (k + 1) m).registry.Bare n) :
  Upholds host m n j p (k + 1)
  := by
  -- no lookup under way has taken it before
  have new {x : Inquiry φ} (hx : x ∈ inquiries host m (k + 1)) (name : x.name = n)
      (later : j < x.began) : x = ⟨n, q, k⟩ := by
    obtain old | ⟨sought', rfl⟩ := of_mem_inquiries hx
    · have := (h.taken x old name later).2.1
      rw [offered] at this
      cases this
    · obtain ⟨rfl, rfl⟩ := Prod.mk.inj (Option.some.inj (sought'.symm.trans sought))
      rfl
  constructor
  case held =>
    intro i
    rw [bare.2, made_succ_iff, ← h.held, early]
    apply iff_of_false nofun
    rintro (held | ⟨made, -⟩)
    · cases held
    · exact not_materializes_of_sought sought p i made
  case offered =>
    rw [bare.1]
    nofun
  case taken =>
    intro x hx name later
    obtain rfl := new hx name later
    exact ⟨h.offered early q offered, bare⟩
  case alone =>
    intro x hx y hy hxn hyn hxl hyl
    rw [new hx hxn hxl, new hy hyn hyl]

/-- A lookup keeps what its producer has made. -/
theorem Upholds.keeps (h : Upholds host m n j p k) (rest : m.makings = [])
    (sure : ¬ Overtakes host m k) (registered : Registered host m n j p k)
    (makes : (runFor host k m).Materializes n q i) :
  Upholds host m n j p (k + 1)
  := by
  obtain ⟨s, split⟩ := inquiries_of_ends rest (makes.makings host)
  have last : (inquiries host m k).getLast? = some ⟨n, q, s⟩ := by
    rw [split, List.getLast?_concat]
  have early := makes.early host
  rw [← runFor_step] at early
  have unique {i' : Ref} : Made host m n j p (k + 1) i' ↔ i' = i := by
    rw [made_succ_iff, last]
    -- a lookup that began before the registration would overtake it
    by_cases later : j < s
    · obtain ⟨same, bare⟩ := h.taken ⟨n, q, s⟩ (List.mem_of_getLast? last) rfl later
      obtain rfl : q = p := same
      rw [← h.held, bare.2]
      constructor
      · rintro (held | ⟨made, -⟩)
        · cases held
        · exact (made.unique makes).2
      · rintro rfl
        exact .inr ⟨makes, _, rfl, later⟩
    · have made : Made host m n j p k i := by
        by_contra other
        exact sure (.keeps n j p q s i registered makes last (Nat.le_of_not_lt later) other)
      rw [← h.held] at made ⊢
      rw [made]
      constructor
      · rintro (held | ⟨-, x, now, began⟩)
        · exact (Option.some.inj held).symm
        · cases now
          exact absurd began later
      · rintro rfl
        exact .inl rfl
  constructor
  case held =>
    intro i'
    rw [early, unique, Option.some_inj]
    exact eq_comm
  case offered =>
    rw [early]
    nofun
  case taken => exact fun x hx name later => absurd later (h.none_left split rfl hx name)
  case alone => exact fun x hx _ _ name _ later => absurd later (h.none_left split rfl hx name)

/-- A lookup puts its producer back, unless there is another one. -/
theorem Upholds.restores (h : Upholds host m n j p k) (rest : m.makings = [])
    (sure : ¬ Overtakes host m k) (registered : Registered host m n j p k)
    (fails : (runFor host k m).Fails n q) :
  Upholds host m n j p (k + 1)
  := by
  obtain ⟨s, split⟩ := inquiries_of_ends rest (fails.makings host)
  have last : (inquiries host m k).getLast? = some ⟨n, q, s⟩ := by
    rw [split, List.getLast?_concat]
  have early := fails.early host
  have producers := fails.producers host
  rw [← runFor_step] at early producers
  constructor
  case held =>
    intro i
    rw [early, h.held, made_succ_iff]
    exact (or_iff_left fun made => fails.not_materializes p i made.1).symm
  case offered =>
    intro unmade q' hq'
    rw [early] at unmade
    obtain same | ⟨none, back⟩ := producers
    · exact h.offered unmade q' (same ▸ hq')
    · obtain rfl := Option.some.inj (hq'.symm.trans back)
      by_cases later : j < s
      · exact (h.taken _ (List.mem_of_getLast? last) rfl later).1
      · by_contra other
        exact sure (.restores n j p q' s registered fails last (Nat.le_of_not_lt later) other
          ⟨none, unmade⟩ back)
  case taken => exact fun x hx name later => absurd later (h.none_left split rfl hx name)
  case alone => exact fun x hx _ _ name _ later => absurd later (h.none_left split rfl hx name)

/-- A step keeps what is left of a registration that stands, unless it overtakes it. -/
theorem Upholds.step (h : Upholds host m n j p k) (rest : m.makings = [])
    (sure : ¬ Overtakes host m k) (registered : Registered host m n j p k)
    (stands : ¬ (runFor host k m).Withdraws host n) :
  Upholds host m n j p (k + 1)
  := by
  cases handles stands with
  | spares unmade unsought producers early =>
    rw [← runFor_step] at producers early
    exact h.spares unmade unsought producers early
  | takes q sought offered early bare =>
    rw [← runFor_step] at bare
    exact h.takes sought offered early bare
  | keeps q i makes => exact h.keeps rest sure registered makes
  | restores q fails => exact h.restores rest sure registered fails

/-- As long as no lookup has overtaken it, what is left of a registration is its own. -/
theorem Registered.upholds (h : Registered host m n j p k) (rest : m.makings = [])
    (sure : ∀ l < k, ¬ Overtakes host m l) :
  Upholds host m n j p k
  := by
  induction k with
  | zero => cases h.before
  | succ k ih =>
    obtain rfl | ⟨registered, stands⟩ := h.of_succ
    · exact h.registers.upholds
    · have before := ih registered fun l hl => sure l (Nat.lt_succ_of_lt hl)
      exact before.step rest (sure k (Nat.lt_succ_self k)) registered stands

/-! ### Answers -/

/-- An instance that is there is found at the request of a program. -/
theorem Finds.eq (h : m.Finds n i) :
  ∃ (ρ : Role) (early : Bool) (next : Except Error (Option Ref) → Client φ δ μ (ρ.Result α))
    (stack : Stack φ δ μ α ρ) (w : World φ δ μ),
    m = running (.lookup n early next) stack w ∧ w.registry.sight n early = .settled (some i)
  := by
  unfold Finds at h
  split at h
  · obtain ⟨rfl, settled⟩ := h
    exact ⟨_, _, _, _, _, rfl, settled⟩
  · cases h

/-- To find an instance that is there changes nothing in the registry. -/
theorem Finds.registry (h : m.Finds n i) (host : Host φ δ μ) :
  (m.step host).registry = m.registry
  := by
  obtain ⟨ρ, early, next, stack, w, rfl, settled⟩ := h.eq
  simp only [step, startLookup, settled]
  rfl

/-- What a lookup finds is the finished instance, or the early reference. -/
theorem Finds.cases (h : m.Finds n i) :
  m.registry.finished.get? n = some i ∨
    m.registry.finished.get? n = none ∧ m.registry.early.get? n = some i
  := by
  obtain ⟨ρ, early, next, stack, w, rfl, settled⟩ := h.eq
  exact Registry.of_sight_settled settled

/-- A lookup binds nothing. -/
theorem Answers.finished (h : Answers host m n s k i) :
  (runFor host (k + 1) m).registry.finished = (runFor host k m).registry.finished
  := by
  rw [runFor_step]
  cases h with
  | finds now finds => rw [finds.registry]
  | makes p makes =>
    obtain ⟨ρ, resume, below, w, eq⟩ := makes.eq
    rw [eq]
    rfl

/-- The instance with which a lookup is answered stays there, if it is an early reference. -/
theorem Answers.early (h : Answers host m n s k i)
    (unfinished : (runFor host k m).registry.finished.get? n = none) :
  (runFor host (k + 1) m).registry.early.get? n = some i
  := by
  rw [runFor_step]
  cases h with
  | finds now finds =>
    rw [finds.registry]
    obtain bound | ⟨-, made⟩ := finds.cases
    · cases unfinished.symm.trans bound
    · exact made
  | makes p makes => exact makes.early host

/-- A registration stands if its component is neither removed, created to its end, registered anew
nor finished. -/
theorem not_withdraws (unremoved : ¬ m.Removes n) (ending : m.ending? = none)
    (quiet : ∀ p, ¬ m.Publishes n p)
    (unfinished : (m.step host).registry.finished.get? n = none) :
  ¬ m.Withdraws host n
  := by
  rintro (removes | ⟨collects, ends⟩ | ⟨i, binds⟩ | ⟨p, registers⟩)
  · exact unremoved removes
  · cases ending.symm.trans ends
  · cases unfinished.symm.trans binds
  · exact quiet p registers.1

/-- A registration goes on when a lookup is answered. -/
theorem Registered.answers (h : Registered host m n j p k) (answers : Answers host m n s k i) :
  Registered host m n j p (k + 1)
  := by
  have unfinished := h.unfinished
  rw [← answers.finished, runFor_step] at unfinished
  apply h.succ
  cases answers with
  | finds now finds =>
    obtain ⟨ρ, early, next, stack, w, eq, -⟩ := finds.eq
    rw [eq] at unfinished ⊢
    exact not_withdraws id rfl (fun _ => id) unfinished
  | makes p makes =>
    obtain ⟨ρ, resume, below, w, eq⟩ := makes.eq
    rw [eq] at unfinished ⊢
    exact not_withdraws id rfl (fun _ => id) unfinished

/-- A registration goes on when a producer fails. -/
theorem Registered.fails (h : Registered host m n j p k)
    (fails : (runFor host k m).Fails n q) :
  Registered host m n j p (k + 1)
  := by
  have unfinished := h.unfinished
  obtain ⟨e, ρ, resume, below, w, eq⟩ := fails.eq
  apply h.succ
  rw [eq] at unfinished ⊢
  apply not_withdraws id rfl (fun _ => id)
  change (finishLookup n q (.error e) resume below w).registry.finished.get? n = none
  rw [finished_finishLookup]
  exact unfinished

/-- A lookup is answered when it has begun. -/
theorem Answers.began_le (h : Answers host m n s k i) :
  s ≤ k
  := by
  cases h with
  | finds now => exact Nat.le_of_eq now
  | makes p makes last => exact Nat.le_of_lt (began_lt (List.mem_of_getLast? last))

/-- A registration that stands before a step has stood before every step since it was made. -/
theorem Registered.of_le {l : Nat} (h : Registered host m n j p k) (before : j < l) (le : l ≤ k) :
  Registered host m n j p l
  where
  registers := h.registers
  before := before
  stands l' hj hl := h.stands l' hj (Nat.lt_of_lt_of_le hl le)

/-- While a registration stands that no lookup has overtaken, lookups are answered with what has
been made for it. -/
theorem Registered.made (h : Registered host m n j p k) (rest : m.makings = [])
    (sure : ∀ l < k + 1, ¬ Overtakes host m l) (answers : Answers host m n s k i) :
  Made host m n j p (k + 1) i
  := by
  have upholds := (h.answers answers).upholds rest sure
  exact (upholds.held i).mp (answers.early h.unfinished)

/-- Where no lookup overtakes, lookups follow the registrations. -/
theorem follows_of_not_overtakes (rest : m.makings = [])
    (sure : ∀ l < k + 1, ¬ Overtakes host m l) :
  Follows host m k
  where
  bound n s i f answers binds := by
    rw [Binds, answers.finished] at binds
    cases answers with
    | finds now finds =>
      obtain bound | ⟨unbound, -⟩ := finds.cases
      · exact Option.some.inj (bound.symm.trans binds)
      · cases unbound.symm.trans binds
    | makes p makes =>
      by_contra other
      exact sure k (Nat.lt_succ_self k) (.finished n p i f makes binds other)
  produced n j p s i registered _ answers := registered.made rest sure answers
  same n j p s i s' k' i' registered _ answers later le answers' := by
    -- both have been made for the registration, and it has one early reference
    have earlier := registered.of_le (Nat.lt_of_lt_of_le later answers'.began_le) le
    have made : Made host m n j p (k' + 1) i' :=
      earlier.made rest (fun l hl => sure l (Nat.lt_of_lt_of_le hl (Nat.succ_le_succ le))) answers'
    have upholds := (registered.answers answers).upholds rest sure
    have held := (upholds.held i').mpr (made.mono (Nat.succ_le_succ le))
    exact Option.some.inj (held.symm.trans (answers.early registered.unfinished))
  held n j p i registered := ((registered.upholds rest sure).held i).mp
  offered n j p q registered early := (registered.upholds rest sure).offered early q

/-- A lookup that overtakes is one that does not follow. -/
theorem Follows.not_overtakes (h : Follows host m k) (rest : m.makings = []) :
  ¬ Overtakes host m k
  := by
  rintro (⟨n, p, i, f, makes, binds, other⟩ |
    ⟨n, j, q, p, s, i, registered, makes, last, earlier, other⟩ |
    ⟨n, j, q, p, s, registered, fails, last, earlier, other, bare, back⟩)
  · obtain ⟨s, split⟩ := inquiries_of_ends rest (makes.makings host)
    have answers : Answers host m n s k i := .makes p makes (by rw [split, List.getLast?_concat])
    apply other
    apply h.bound n s i f answers
    rwa [Binds, answers.finished]
  · have answers : Answers host m n s k i := .makes p makes last
    have held := h.held n j q i (registered.answers answers) (answers.early registered.unfinished)
    obtain made | ⟨-, x, now, later⟩ := made_succ_iff.mp held
    · exact other made
    · cases last.symm.trans now
      exact Nat.not_lt_of_le earlier later
  · apply other
    apply h.offered n j q p (registered.fails fails) _ back
    rw [runFor_step, fails.early, bare.2]

end Machine

/-- Lookups follow the last registration throughout a run exactly as long as none overtakes it.
They are answered with the finished instance of a component if there is one.  After a producer has
been registered, and until the component is removed or finished, its creation ends, or another
producer is registered, those that begin later are answered with what this producer has made, and
with the same instance every time.  This holds whatever producers, factories and disposals do. -/
theorem registration_followed_iff (host : Host φ δ μ) (c : Client φ δ μ α) (w : World φ δ μ)
    (k : Nat) :
  (∀ j < k, Follows host (start c w) j) ↔ ∀ j < k, ¬ Overtakes host (start c w) j
  := by
  have rest : (start c w).makings = [] := rfl
  constructor
  · exact fun h j hj => (h j hj).not_overtakes rest
  · intro sure j hj
    exact follows_of_not_overtakes rest fun l hl => sure l (Nat.lt_of_lt_of_le hl hj)

/-- The factories and producers of a component. -/
inductive Part where
  /-- Makes another producer take its place, and then an early reference. -/
  | replaced
  /-- Binds an instance, and then makes an early reference. -/
  | bound
  /-- At first makes a fragile producer take its place, has the component looked up, and fails.
  Later it makes an early reference. -/
  | evicted
  /-- Makes an early reference. -/
  | plain
  /-- Panics. -/
  | fragile
  /-- Offers a producer of early references, and looks the component up twice. -/
  | seeker (p : Part)

/-- A host with one component. -/
def Host.seeking : Host Part Unit Bool where
  make
    | .replaced => .edit (.publish "a" .plain) fun _ => .done (.ok ⟨0⟩)
    | .bound => .edit (.bind "a" ⟨1⟩) fun _ => .done (.ok ⟨0⟩)
    | .evicted => .view fun _ again =>
      if again then .done (.ok ⟨0⟩)
      else .revise (fun _ => true) (.edit (.publish "a" .fragile) fun _ =>
        .protect () fun _ => .done (.error (.notDefined "a")))
    | .plain => .done (.ok ⟨1⟩)
    | .fragile => .panic .other
    | .seeker p => .edit (.publish "a" p) fun _ =>
      .lookup "a" true fun _ => .lookup "a" true fun _ => .done (.ok ⟨2⟩)
  dispose _ := .lookup "a" true fun _ => .done (.ok ())
  hear _ m := (none, m)

/-- The run that creates the component with a producer begins. -/
def Machine.seeking (p : Part) : Machine Part Unit Bool (Except Error Materialized) :=
  start (.create "a" (.seeker p) .done) ⟨.fresh ⟨true, 1, [], false⟩, false⟩

/-- A producer that registers another one overtakes it: the component keeps an early reference that
the other one has not made.  One that binds an instance makes its lookup return an early reference
to a component that is finished.  One that fails after the other producer has panicked takes its
place again. -/
theorem not_registration_followed :
  (Registered .seeking (.seeking .replaced) "a" 3 .plain 5 ∧
      Answers .seeking (.seeking .replaced) "a" 5 5 ⟨0⟩ ∧
      ¬ Made .seeking (.seeking .replaced) "a" 3 .plain 6 ⟨0⟩) ∧
    (Answers .seeking (.seeking .bound) "a" 2 4 ⟨0⟩ ∧
      (runFor .seeking 5 (.seeking .bound)).Binds "a" ⟨1⟩) ∧
    (Registered .seeking (.seeking .evicted) "a" 5 .fragile 14 ∧
      Answers .seeking (.seeking .evicted) "a" 12 14 ⟨0⟩ ∧
      ¬ Made .seeking (.seeking .evicted) "a" 5 .fragile 15 ⟨0⟩) ∧
    ¬ Follows .seeking (.seeking .replaced) 5 ∧ ¬ Follows .seeking (.seeking .bound) 4 ∧
    ¬ Follows .seeking (.seeking .evicted) 14
  := by
  have replaced : Registered .seeking (.seeking .replaced) "a" 3 .plain 5 := by
    refine ⟨⟨⟨rfl, rfl⟩, rfl⟩, by decide, ?_⟩
    intro l hj hl
    interval_cases l
    exact not_withdraws id rfl (fun _ => id) rfl
  have early : Answers .seeking (.seeking .replaced) "a" 5 5 ⟨0⟩ := .finds rfl ⟨rfl, rfl⟩
  have unmade : ¬ Made .seeking (.seeking .replaced) "a" 3 .plain 6 ⟨0⟩ := by
    rintro ⟨l, hl, makes, -⟩
    interval_cases l
    case «4» => cases makes.2.1
    all_goals exact makes
  have late : Answers .seeking (.seeking .bound) "a" 2 4 ⟨0⟩ := .makes .bound ⟨rfl, rfl, rfl⟩ rfl
  have binds : (runFor .seeking 5 (.seeking .bound)).Binds "a" ⟨1⟩ := rfl
  have evicted : Registered .seeking (.seeking .evicted) "a" 5 .fragile 14 := by
    refine ⟨⟨⟨rfl, rfl⟩, rfl⟩, by decide, ?_⟩
    intro l hj hl
    interval_cases l <;> exact not_withdraws id rfl (fun _ => id) rfl
  have again : Answers .seeking (.seeking .evicted) "a" 12 14 ⟨0⟩ :=
    .makes .evicted ⟨rfl, rfl, rfl⟩ rfl
  have none : ¬ Made .seeking (.seeking .evicted) "a" 5 .fragile 15 ⟨0⟩ := by
    rintro ⟨l, hl, makes, -⟩
    interval_cases l
    case «11» | «14» => cases makes.2.1
    all_goals exact makes
  refine ⟨⟨replaced, early, unmade⟩, ⟨late, binds⟩, ⟨evicted, again, none⟩, ?_, ?_, ?_⟩
  · intro h
    exact unmade (h.produced "a" 3 .plain 5 ⟨0⟩ replaced (by decide) early)
  · intro h
    cases h.bound "a" 2 ⟨0⟩ ⟨1⟩ late binds
  · intro h
    exact none (h.produced "a" 5 .fragile 12 ⟨0⟩ evicted (by decide) again)

end Componentry
