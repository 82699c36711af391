import Componentry.Text.Outline

/-!
# Precedence

An extension or an interceptor may ask for its place among the others by a tier and an
order value.  The tiers come one after the other: priority, ordered, unordered.  `compare`
looks at the order values alone, and puts what has none behind what has one.
-/

namespace Componentry

/-- The three tiers, the one that comes first in front. -/
inductive Tier where
  /-- Before all others. -/
  | priority
  /-- Between the two others. -/
  | ordered
  /-- After all others. -/
  | unordered
deriving DecidableEq, Repr

/-- The place that an extension or an interceptor asks for. -/
inductive Precedence where
  /-- A place in the first tier. -/
  | priority (order : Int)
  /-- A place in the second tier. -/
  | ordered (order : Int)
  /-- No place in particular. -/
  | unordered
deriving DecidableEq, Repr, Inhabited

namespace Precedence

/-- The order value, if there is one. -/
def order? : Precedence → Option Int
  | priority order | ordered order => some order
  | unordered => none

/-- The tier. -/
def tier : Precedence → Tier
  | priority _ => .priority
  | ordered _ => .ordered
  | unordered => .unordered

/-- Compares order values; what has none comes behind what has one. -/
def compare (a b : Precedence) : Ordering :=
  match a.order?, b.order? with
  | some x, some y => Ord.compare x y
  | some _, none => .lt
  | none, some _ => .gt
  | none, none => .eq

/-- Tells whether `a` may stand in front of `b`. -/
def atMost (a b : Precedence) : Bool := (a.compare b).isLE

/-- A list in the order of the precedence of its items; items of one order value keep their
places among each other. -/
def sortBy {α : Type} (precedence : α → Precedence) (items : List α) : List α :=
  items.mergeSort fun a b => (precedence a).atMost (precedence b)

/-- The outline of a precedence. -/
def outline : Precedence → String
  | priority order => Text.Outline.apply "Priority" [toString order]
  | ordered order => Text.Outline.apply "Ordered" [toString order]
  | unordered => "Unordered"

/-! ### The order -/

theorem atMost_iff {a b : Precedence} :
  a.atMost b = true ↔
    match a.order?, b.order? with
    | some x, some y => x ≤ y
    | some _, none => True
    | none, some _ => False
    | none, none => True
  := by
  unfold atMost compare
  cases a.order? <;> cases b.order? <;> simp [Int.isLE_compare]

theorem atMost_total (a b : Precedence) :
  (a.atMost b || b.atMost a) = true
  := by
  rw [Bool.or_eq_true, atMost_iff, atMost_iff]
  cases a.order? <;> cases b.order? <;> simp [Int.le_total]

theorem atMost_trans {a b c : Precedence} (hab : a.atMost b = true) (hbc : b.atMost c = true) :
  a.atMost c = true
  := by
  rw [atMost_iff] at hab hbc ⊢
  cases ha : a.order? <;> cases hb : b.order? <;> cases hc : c.order? <;>
    simp_all
  exact Int.le_trans hab hbc

/-- Sorting neither loses nor adds items. -/
theorem sortBy_perm {α : Type} (precedence : α → Precedence) (items : List α) :
  (sortBy precedence items).Perm items
  := List.mergeSort_perm _ _

/-- In a sorted list no item comes behind one that it has to precede. -/
theorem sortBy_pairwise {α : Type} (precedence : α → Precedence) (items : List α) :
  (sortBy precedence items).Pairwise fun a b => (precedence a).atMost (precedence b) = true
  := by
  refine @List.pairwise_mergeSort α (fun a b => (precedence a).atMost (precedence b)) ?_ ?_ items
  · intro a b c
    exact atMost_trans
  · intro a b
    exact atMost_total (precedence a) (precedence b)

/-- Items of one order value, or of none, keep their places among each other. -/
theorem filter_sortBy {α : Type} (precedence : α → Precedence) (items : List α)
    (order? : Option Int) :
  ((sortBy precedence items).filter fun a => (precedence a).order? = order?)
    = items.filter fun a => (precedence a).order? = order?
  := by
  have alike : (items.filter fun a => (precedence a).order? = order?).Pairwise
      fun a b => (precedence a).atMost (precedence b) = true := by
    apply List.pairwise_of_forall_mem_list
    intro a ha b hb
    have ha : (precedence a).order? = order? := by simpa using (List.mem_filter.mp ha).2
    have hb : (precedence b).order? = order? := by simpa using (List.mem_filter.mp hb).2
    rw [atMost_iff, ha, hb]
    cases order? with
    | none => trivial
    | some x => apply Int.le_refl
  have kept : (items.filter fun a => (precedence a).order? = order?).Sublist
      (sortBy precedence items) := by
    apply List.sublist_mergeSort _ _ alike List.filter_sublist
    · intro a b c
      exact atMost_trans
    · intro a b
      exact atMost_total (precedence a) (precedence b)
  have kept := kept.filter fun a => (precedence a).order? = order?
  rw [List.filter_filter] at kept
  simp only [Bool.and_self] at kept
  apply (kept.eq_of_length _).symm
  apply (((sortBy_perm precedence items).filter _).length_eq).symm

end Precedence

end Componentry
