import Componentry.Proofs.Installation
import Mathlib.Data.List.Nodup

/-!
# The tail of a chain

An installation adds interceptors tier by tier, and then moves the internal ones to the tail.  On
the way it sorts them once more, all tiers together and by order values alone, so that one of the
second tier may overtake one of the first.  The main result, `internals_tiered_iff`, says in which
order the internal interceptors come to stand, and that they keep the one in which they were added
exactly if none overtakes another one.
-/

namespace Componentry

open Precedence

variable {κ ε α : Type}

namespace Precedence

variable {precedence : α → Precedence} {items : List α} {a b : α}

/-! ### Two orders on the items of a list -/

/-- Of the items of a list, one of the second tier overtakes one of the first: its order value is
lower, or it is the same and the item stands in front. -/
def Overtakes (precedence : α → Precedence) (items : List α) (a b : α) : Prop :=
  ∃ x y, precedence a = .ordered x ∧ precedence b = .priority y ∧
    (x < y ∨ x = y ∧ [a, b].Sublist items)

theorem Lower.asymm {p q : Precedence} (h : p.Lower q) :
  ¬ q.Lower p
  := by
  rintro ⟨y, hy, less⟩
  obtain ⟨x, hx, greater⟩ := h
  apply Int.lt_asymm (greater y hy) (less x hx)

theorem Lower.order?_ne {p q : Precedence} (h : p.Lower q) :
  p.order? ≠ q.order?
  := by
  obtain ⟨x, hx, greater⟩ := h
  intro same
  apply Int.lt_irrefl x (greater x (same.symm.trans hx))

theorem Precedes.asymm {p q : Precedence} (h : p.Precedes q) :
  ¬ q.Precedes p
  := by
  obtain earlier | ⟨tier, x, y, hx, hy, lt⟩ := h
  · rintro (later | ⟨tier, -⟩)
    · apply Nat.lt_asymm earlier later
    · rw [tier] at earlier
      apply Nat.lt_irrefl _ earlier
  · rintro (later | ⟨-, y', x', hy', hx', gt⟩)
    · rw [tier] at later
      apply Nat.lt_irrefl _ later
    · cases hx.symm.trans hx'
      cases hy.symm.trans hy'
      apply Int.lt_asymm lt gt

/-- In a list without repetition, of two items not each comes in front of the other one. -/
theorem InFront.asymm (once : items.Nodup) (h : InFront precedence items a b) :
  ¬ InFront precedence items b a
  := by
  obtain lower | ⟨alike, h⟩ := h
  · rintro (higher | ⟨alike, -⟩)
    · apply lower.asymm higher
    · apply lower.order?_ne alike.symm
  · rintro (lower | ⟨-, h'⟩)
    · apply lower.order?_ne alike.symm
    · apply not_sublist_of_sublist once h h'

/-- In a list without repetition, of two items not each is ahead of the other one. -/
theorem Ahead.asymm (once : items.Nodup) (h : Ahead precedence items a b) :
  ¬ Ahead precedence items b a
  := by
  obtain precedes | ⟨alike, h⟩ := h
  · rintro (behind | ⟨alike, -⟩)
    · apply precedes.asymm behind
    · rw [alike] at precedes
      apply precedes.asymm precedes
  · rintro (precedes | ⟨-, h'⟩)
    · rw [alike] at precedes
      apply precedes.asymm precedes
    · apply not_sublist_of_sublist once h h'

theorem Overtakes.inFront (h : Overtakes precedence items a b) :
  InFront precedence items a b
  := by
  obtain ⟨x, y, ha, hb, lt | ⟨rfl, h⟩⟩ := h
  · left
    simpa [Lower, order?, ha, hb] using lt
  · right
    rw [ha, hb]
    use rfl, h

/-- An item that overtakes another one does not stand ahead of it by precedence. -/
theorem Overtakes.not_ahead (h : Overtakes precedence items a b) :
  ¬ Ahead precedence items a b
  := by
  obtain ⟨x, y, ha, hb, -⟩ := h
  intro ahead
  have := ahead.tier
  simp [ha, hb, Precedence.tier, Tier.place] at this

/-- What comes in front of an item is ahead of it, unless it overtakes it. -/
theorem InFront.ahead_of_not_overtakes (h : InFront precedence items a b)
    (not : ¬ Overtakes precedence items a b) :
  Ahead precedence items a b
  := by
  cases ha : precedence a with
  | priority x =>
    cases hb : precedence b with
    | priority y => exact h.ahead (by simp [ha, hb, Precedence.tier])
    | ordered | unordered =>
      left
      left
      simp [ha, hb, Precedence.tier, Tier.place]
  | ordered x =>
    cases hb : precedence b with
    | priority y =>
      -- the item would overtake the other one
      apply absurd _ not
      use x, y, ha, hb
      simpa [InFront, Lower, ha, hb, order?] using h
    | ordered y => exact h.ahead (by simp [ha, hb, Precedence.tier])
    | unordered =>
      left
      left
      simp [ha, hb, Precedence.tier, Tier.place]
  | unordered =>
    cases hb : precedence b with
    | priority | ordered => simp [InFront, Lower, ha, hb, order?] at h
    | unordered => exact h.ahead (by simp [ha, hb, Precedence.tier])

/-- Of a list without repetition, items that are sorted by order values are sorted by precedence
exactly if none of them overtakes another one. -/
theorem pairwise_ahead_iff {sorted : List α} (once : items.Nodup)
    (fronts : sorted.Pairwise (InFront precedence items)) :
  sorted.Pairwise (Ahead precedence items) ↔
    ∀ a ∈ sorted, ∀ b ∈ sorted, ¬ Overtakes precedence items a b
  := by
  constructor
  · intro aheads
    have neither : sorted.Pairwise fun a b =>
        ¬ Overtakes precedence items a b ∧ ¬ Overtakes precedence items b a := by
      apply (fronts.and aheads).imp
      rintro a b ⟨front, ahead⟩
      use fun h => h.not_ahead ahead, fun h => h.inFront.asymm once front
    apply List.Pairwise.forall_of_forall_of_flip
    · intro a _ h
      apply h.inFront.asymm once h.inFront
    · apply neither.imp And.left
    · apply neither.imp And.right
  · intro none
    apply fronts.imp_of_mem
    intro a b ha hb front
    apply front.ahead_of_not_overtakes (none a ha b hb)

/-- Two lists of the same items that are both sorted by precedence are equal. -/
theorem eq_of_pairwise_ahead {sorted sorted' : List α} (once : items.Nodup)
    (aheads : sorted.Pairwise (Ahead precedence items))
    (aheads' : sorted'.Pairwise (Ahead precedence items)) (same : sorted.Perm sorted') :
  sorted = sorted'
  := by
  apply List.Perm.eq_of_pairwise _ aheads aheads' same
  intro a b _ _ h h'
  exact absurd h' (h.asymm once)

end Precedence

/-! ### The internal interceptors in a chain -/

namespace Chain

/-- The internal interceptors of a blueprint, in the order that they have in a chain. -/
def internalsOf (c : Chain κ) (b : Blueprint κ ε) : List (Name × Interceptor κ) :=
  c.entries.filter fun e => e.1 ∈ b.interceptors.names && e.2.isInternal

/-- No internal interceptor of a blueprint overtakes another one. -/
def InTurn (b : Blueprint κ ε) : Prop :=
  ∀ e ∈ b.interceptors.entries, ∀ e' ∈ b.interceptors.entries,
    e.2.isInternal = true → e'.2.isInternal = true →
    ¬ Overtakes (·.2.precedence) b.interceptors.entries e e'

variable {c c' : Chain κ} {b : Blueprint κ ε} {e : Name × Interceptor κ}
  {l : List (Name × Interceptor κ)}

theorem nodup_entries (b : Blueprint κ ε) :
  b.interceptors.entries.Nodup
  := List.Nodup.of_map Prod.fst b.interceptors.nodup

/-- What stands in front of the interceptors of a blueprint is not one of them. -/
theorem internalsOf_eq
    (added : c'.entries = c.entries.filter (fun e => e.1 ∉ b.interceptors.names) ++ l)
    (filed : ∀ e ∈ l, e ∈ b.interceptors.entries) :
  c'.internalsOf b = l.filter fun e => e.2.isInternal
  := by
  have old : (c.entries.filter fun e => e.1 ∉ b.interceptors.names).filter
      (fun e => e.1 ∈ b.interceptors.names && e.2.isInternal) = [] := by
    apply List.filter_eq_nil_iff.mpr
    intro e he
    have absent := of_decide_eq_true (List.mem_filter.mp he).2
    simp [absent]
  rw [internalsOf, added, List.filter_append, old, List.nil_append]
  apply List.filter_congr
  intro e he
  have present : e.1 ∈ b.interceptors.names := List.mem_map_of_mem (filed e he)
  simp [present]

/-- Before the internal interceptors are moved, they stand in the order of their tiers, order values
and places. -/
theorem internalsOf_tiers (c : Chain κ) (b : Blueprint κ ε) :
  (c.addAll (tiers b)).internalsOf b = (tiers b).filter fun e => e.2.isInternal
  := by
  apply internalsOf_eq (c := c)
  · rw [entries_addAll, List.pwFilter_eq_self.mpr (pairwise_apart_iff.mpr (nodup_tiers b))]
    simp only [mem_names_tiers_iff]
  · intro e he
    apply (tiers_perm_entries b).mem_iff.mp he

/-- When the internal interceptors have been moved, they stand in the order of their order values
and places. -/
theorem internalsOf_install (c : Chain κ) (b : Blueprint κ ε) :
  (c.install b).internalsOf b = internals b.interceptors.entries
  := by
  have ordinary_out : (ordinary b).filter (fun e => e.2.isInternal) = [] := by
    apply List.filter_eq_nil_iff.mpr
    intro e he
    simp [(mem_ordinary_iff.mp he).2]
  have internals_in : (internals b.interceptors.entries).filter (fun e => e.2.isInternal)
      = internals b.interceptors.entries := by
    apply List.filter_eq_self.mpr
    intro e he
    exact (mem_internals_iff.mp he).2
  rw [internalsOf_eq (entries_install c b) fun e he => mem_installed_iff.mp he,
    List.filter_append, ordinary_out, internals_in, List.nil_append]

theorem internals_perm (l : List (Name × Interceptor κ)) :
  (internals l).Perm (l.filter fun e => e.2.isInternal)
  := sortBy_perm _ _

/-- The internal interceptors are sorted by their order values, and those of one value stay as they
were. -/
theorem pairwise_inFront_internals (l : List (Name × Interceptor κ)) :
  (internals l).Pairwise (InFront (·.2.precedence) l)
  := by
  apply (pairwise_inFront_sortBy _ _).imp
  intro e e' front
  apply front.mono List.filter_sublist

/-- Moving the internal interceptors sorts them by precedence exactly if none overtakes another
one. -/
theorem pairwise_ahead_internals_iff (b : Blueprint κ ε) :
  (internals b.interceptors.entries).Pairwise (Ahead (·.2.precedence) b.interceptors.entries) ↔
    InTurn b
  := by
  rw [pairwise_ahead_iff (nodup_entries b) (pairwise_inFront_internals _)]
  constructor
  · intro none e he e' he' internal internal'
    have he := mem_internals_iff.mpr ⟨he, internal⟩
    have he' := mem_internals_iff.mpr ⟨he', internal'⟩
    apply none e he e' he'
  · intro none e he e' he'
    obtain ⟨he, internal⟩ := mem_internals_iff.mp he
    obtain ⟨he', internal'⟩ := mem_internals_iff.mp he'
    apply none e he e' he' internal internal'

/-- Moving the internal interceptors leaves them in the order in which they were added exactly if
they are sorted by precedence when they have been moved. -/
theorem internals_eq_iff (b : Blueprint κ ε) :
  internals b.interceptors.entries = (tiers b).filter (fun e => e.2.isInternal) ↔
    (internals b.interceptors.entries).Pairwise (Ahead (·.2.precedence) b.interceptors.entries)
  := by
  have aheads : ((tiers b).filter fun e => e.2.isInternal).Pairwise
      (Ahead (·.2.precedence) b.interceptors.entries) := (pairwise_tiers _ _).filter _
  constructor
  · intro same
    rw [same]
    exact aheads
  · intro aheads'
    apply eq_of_pairwise_ahead (nodup_entries b) aheads' aheads
    apply (internals_perm _).trans ((tiers_perm_entries b).filter _).symm

end Chain

open Chain

/-- An installation leaves the internal interceptors of a blueprint in the order of their order
values, whatever their tiers, and those of one order value in the order of their places.  They stand
in the order of their tiers, order values and places, which they had before they were moved to the
tail, exactly if none of the second tier overtakes one of the first. -/
theorem internals_tiered_iff (c : Chain κ) (b : Blueprint κ ε) :
  ((c.install b).internalsOf b).Perm (b.interceptors.entries.filter fun e => e.2.isInternal) ∧
    ((c.install b).internalsOf b).Pairwise (InFront (·.2.precedence) b.interceptors.entries) ∧
    (((c.install b).internalsOf b).Pairwise (Ahead (·.2.precedence) b.interceptors.entries) ↔
      InTurn b) ∧
    ((c.install b).internalsOf b = (c.addAll (tiers b)).internalsOf b ↔ InTurn b)
  := by
  rw [internalsOf_install, internalsOf_tiers, internals_eq_iff, pairwise_ahead_internals_iff]
  use internals_perm _, pairwise_inFront_internals _

/-- An internal interceptor that does nothing. -/
def Interceptor.idle (p : Precedence) : Interceptor Unit := ⟨p, true, none, fun _ => none⟩

/-- A blueprint with an internal interceptor of the first tier, and one of the second tier which has
a lower order value. -/
def Blueprint.crossed : Blueprint Unit Unit :=
  ((Blueprint.fresh 0).addInterceptor "early" (.idle (.priority 10))).addInterceptor "late"
    (.idle (.ordered 1))

/-- The internal interceptor of the second tier overtakes the one of the first, in front of which it
comes to stand. -/
theorem not_internals_tiered :
  ((∅ : Chain Unit).addAll (tiers .crossed)).names = ["early", "late"] ∧
    ((∅ : Chain Unit).install .crossed).names = ["late", "early"] ∧
    ¬ (((∅ : Chain Unit).install .crossed).internalsOf .crossed).Pairwise
      (Ahead (·.2.precedence) Blueprint.crossed.interceptors.entries) ∧
    ((∅ : Chain Unit).install .crossed).internalsOf .crossed
      ≠ ((∅ : Chain Unit).addAll (tiers .crossed)).internalsOf .crossed
  := by
  have entries : Blueprint.crossed.interceptors.entries
      = [("early", .idle (.priority 10)), ("late", .idle (.ordered 1))] := rfl
  have crossed : ¬ (internals Blueprint.crossed.interceptors.entries).Pairwise
      (Ahead (·.2.precedence) Blueprint.crossed.interceptors.entries) := by
    rw [pairwise_ahead_internals_iff, InTurn, entries]
    intro none
    apply none ("late", .idle (.ordered 1)) (by simp) ("early", .idle (.priority 10)) (by simp)
      rfl rfl
    use 1, 10, rfl, rfl
    left
    decide
  have moved : internals Blueprint.crossed.interceptors.entries
      = [("late", .idle (.ordered 1)), ("early", .idle (.priority 10))] := by
    have behind : (Precedence.priority 10).atMost (.ordered 1) = false := by decide
    simp [internals, entries, sortBy, List.mergeSort, Interceptor.idle, behind]
  have others : ordinary Blueprint.crossed = [] := by
    apply List.eq_nil_iff_forall_not_mem.mpr
    intro e he
    obtain ⟨he, external⟩ := mem_ordinary_iff.mp he
    rw [entries] at he
    obtain rfl | rfl : e = ("early", .idle (.priority 10)) ∨ e = ("late", .idle (.ordered 1)) := by
      simpa using he
    · cases external
    · cases external
  refine ⟨by decide +kernel, ?_, ?_, ?_⟩
  · rw [names, entries_install, others, moved]
    rfl
  · rw [internalsOf_install]
    exact crossed
  · rw [internalsOf_install, internalsOf_tiers, Ne, internals_eq_iff]
    exact crossed

end Componentry
