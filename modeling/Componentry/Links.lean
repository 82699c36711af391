import Componentry.Catalog
import Componentry.Text.Outline

/-!
# Links

Directed links between names, filed by the name from which they start.  The names and the
ends of their links keep the order in which they were first recorded.  `l.has a b` is the
view on which the operations are described, and `Path l a b` says that links lead from `a`
to `b`; `reaches` decides whether they do.
-/

namespace Componentry

/-- Directed links between names. -/
structure Links where
  /-- The ends of the links that start from a name. -/
  rows : Catalog Roster

namespace Links

/-- No links. -/
def empty : Links := ⟨∅⟩

instance : EmptyCollection Links := ⟨empty⟩

instance : Inhabited Links := ⟨empty⟩

/-- The ends of the links that start from `a`, in the order in which they were recorded. -/
def row (l : Links) (a : Name) : Roster := (l.rows.get? a).getD ∅

/-- Tells whether a link leads from `a` to `b`. -/
def has (l : Links) (a b : Name) : Bool := (l.row a).contains b

/-- Records a link from `a` to `b`. -/
def add (l : Links) (a b : Name) : Links := ⟨l.rows.insert a ((l.row a).insert b)⟩

/-- Strikes the links that start from `a`. -/
def detach (l : Links) (a : Name) : Links := ⟨l.rows.erase a⟩

/-- Strikes a member of a roster, and the roster with its last member. -/
def strike (n : Name) (r : Roster) : Option Roster :=
  if (r.erase n).isEmpty then none else some (r.erase n)

/-- Strikes every link that starts from `n` or leads to `n`. -/
def forget (l : Links) (n : Name) : Links := ⟨(l.rows.erase n).filterMap (strike n)⟩

/-- Tells whether there are no links. -/
def isEmpty (l : Links) : Bool := l.rows.isEmpty

/-- Tells whether links lead from one of the names in `pending` to `target`.  The search
goes on from each name once, since it strikes the links that it follows. -/
def reachesFrom (target : Name) (l : Links) (pending : List Name) : Bool :=
  match pending with
  | [] => false
  | a :: pending =>
    match _h : l.rows.get? a with
    | none => reachesFrom target l pending
    | some ends =>
      ends.contains target || reachesFrom target (l.detach a) (ends.toList ++ pending)
termination_by (l.rows.size, pending.length)
decreasing_by
  · exact Prod.Lex.right _ (Nat.lt_succ_self _)
  · apply Prod.Lex.left
    apply Catalog.size_erase_lt
    rw [← Catalog.contains_iff, Catalog.contains, _h]
    rfl

/-- Tells whether one or more links lead from `a` to `b`. -/
def reaches (l : Links) (a b : Name) : Bool := reachesFrom b l [a]

/-- One or more links lead from the first name to the second. -/
inductive Path (l : Links) : Name → Name → Prop
  | single {a b : Name} (h : l.has a b = true) : Path l a b
  | cons {a b c : Name} (h : l.has a b = true) (p : Path l b c) : Path l a c

/-- The outline of links: a map from names to sets. -/
def outline (l : Links) : String :=
  Text.Outline.map (l.rows.entries.map fun e =>
    (Text.quote e.1, Text.Outline.set (e.2.toList.map Text.quote)))

/-! ### The links after each operation -/

theorem row_add (l : Links) (a b c : Name) :
  (l.add a b).row c = if c = a then (l.row a).insert b else l.row c
  := by
  simp only [row, add, Catalog.get?_insert]
  split <;> simp

theorem has_add (l : Links) (a b c d : Name) :
  (l.add a b).has c d = true ↔ l.has c d = true ∨ (c = a ∧ d = b)
  := by
  simp only [has, row_add]
  split
  · rename_i h
    subst h
    simp
  · rename_i h
    simp [h]

theorem row_detach (l : Links) (a c : Name) :
  (l.detach a).row c = if c = a then ∅ else l.row c
  := by
  simp only [row, detach, Catalog.get?_erase]
  split <;> simp

theorem has_detach (l : Links) (a c d : Name) :
  (l.detach a).has c d = true ↔ c ≠ a ∧ l.has c d = true
  := by
  simp only [has, row_detach]
  split
  · rename_i h
    simp [h]
  · rename_i h
    simp [h]

theorem row_forget (l : Links) (n c : Name) :
  (l.forget n).row c = if c = n then ∅ else (l.row c).erase n
  := by
  simp only [row, forget, Catalog.get?_filterMap, Catalog.get?_erase]
  split
  · rfl
  · cases l.rows.get? c with
    | none =>
      apply Roster.ext
      simp
    | some r =>
      simp only [Option.bind_some, Option.getD_some, strike]
      split
      · rename_i h
        rw [Roster.isEmpty_iff] at h
        simp [h]
      · rfl

theorem has_forget (l : Links) (n c d : Name) :
  (l.forget n).has c d = true ↔ c ≠ n ∧ d ≠ n ∧ l.has c d = true
  := by
  simp only [has, row_forget]
  split
  · rename_i h
    simp [h]
  · rename_i h
    simp [h]

end Links

end Componentry
