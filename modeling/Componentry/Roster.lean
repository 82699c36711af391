/-!
# Rosters

A roster is a finite set of names that remembers the order in which its members were
entered.  Entering a member again changes nothing, and striking a member closes the gap
it leaves.  `toList` is the view of a roster on which its operations are described.
-/

namespace Componentry

/-- The name of a component, of an extension or of an interceptor. -/
abbrev Name := String

/-- A finite set of names in order of entry. -/
structure Roster where
  /-- The members, the one entered first in front. -/
  toList : List Name
  /-- No member is listed twice. -/
  nodup : toList.Nodup
deriving DecidableEq

namespace Roster

/-- The roster without members. -/
def empty : Roster := ⟨[], List.nodup_nil⟩

instance : EmptyCollection Roster := ⟨empty⟩

instance : Inhabited Roster := ⟨empty⟩

/-- `r.contains n` tells whether `n` is a member of `r`. -/
def contains (r : Roster) (n : Name) : Bool := r.toList.contains n

instance : Membership Name Roster := ⟨fun r n => n ∈ r.toList⟩

instance (r : Roster) (n : Name) : Decidable (n ∈ r) :=
  inferInstanceAs (Decidable (n ∈ r.toList))

theorem mem_iff {r : Roster} {n : Name} :
  n ∈ r ↔ n ∈ r.toList
  := Iff.rfl

@[simp]
theorem contains_iff {r : Roster} {n : Name} :
  r.contains n = true ↔ n ∈ r
  := by
  simp [contains, mem_iff]

/-- `r.insert n` has `n` as its last member, unless `n` is a member of `r` already. -/
def insert (r : Roster) (n : Name) : Roster :=
  if h : n ∈ r.toList then r
  else ⟨r.toList ++ [n], by
    rw [List.nodup_append]
    refine ⟨r.nodup, by simp, ?_⟩
    rintro a ha b hb rfl
    rw [List.mem_singleton] at hb
    exact h (hb ▸ ha)⟩

/-- `r.erase n` lacks `n` and keeps the order of the other members. -/
def erase (r : Roster) (n : Name) : Roster :=
  ⟨r.toList.erase n, r.nodup.erase n⟩

/-- `r.isEmpty` tells whether `r` has no members. -/
def isEmpty (r : Roster) : Bool := r.toList.isEmpty

/-- The members of a list, each at its first place. -/
def ofList (names : List Name) : Roster := names.foldl insert empty

/-! ### The members after each operation -/

@[ext]
theorem ext {r s : Roster} (h : r.toList = s.toList) :
  r = s
  := by
  cases r
  cases s
  simpa using h

@[simp]
theorem toList_empty :
  (∅ : Roster).toList = []
  := rfl

theorem toList_insert (r : Roster) (n : Name) :
  (r.insert n).toList = if n ∈ r then r.toList else r.toList ++ [n]
  := by
  unfold insert
  simp only [mem_iff]
  split <;> rfl

@[simp]
theorem toList_erase (r : Roster) (n : Name) :
  (r.erase n).toList = r.toList.erase n
  := rfl

@[simp]
theorem mem_insert {r : Roster} {n m : Name} :
  m ∈ r.insert n ↔ m ∈ r ∨ m = n
  := by
  rw [mem_iff, toList_insert]
  split
  · constructor
    · exact Or.inl
    · rintro (h | rfl)
      · exact h
      · assumption
  · simp [mem_iff]

@[simp]
theorem mem_erase {r : Roster} {n m : Name} :
  m ∈ r.erase n ↔ m ≠ n ∧ m ∈ r
  := by
  rw [mem_iff, toList_erase, r.nodup.mem_erase_iff, mem_iff]

@[simp]
theorem notMem_empty {n : Name} :
  n ∉ (∅ : Roster)
  := by
  simp [mem_iff]

@[simp]
theorem mem_ofList {names : List Name} {n : Name} :
  n ∈ ofList names ↔ n ∈ names
  := by
  suffices ∀ r, n ∈ names.foldl insert r ↔ n ∈ r ∨ n ∈ names by
    apply (this ∅).trans
    simp
  induction names with
  | nil => simp
  | cons m names ih =>
    intro r
    rw [List.foldl_cons, ih, mem_insert, List.mem_cons, or_assoc]

theorem isEmpty_iff {r : Roster} :
  r.isEmpty = true ↔ r = ∅
  := by
  rw [isEmpty, List.isEmpty_iff]
  exact ⟨fun h => ext h, fun h => h ▸ rfl⟩

end Roster

/-- Of two items of a list without repetition, not each comes before the other. -/
theorem not_sublist_of_sublist {α : Type} {l : List α} {a b : α} (hl : l.Nodup)
    (h : [a, b].Sublist l) :
  ¬ [b, a].Sublist l
  := by
  intro h'
  induction l with
  | nil => cases h
  | cons x l ih =>
    obtain ⟨hx, hl⟩ := List.nodup_cons.mp hl
    cases h with
    | cons _ h =>
      cases h' with
      | cons _ h' => apply ih hl h h'
      | cons_cons _ _ => apply hx (h.subset (by simp))
    | cons_cons _ h =>
      cases h' with
      | cons _ h' => apply hx (h'.subset (by simp))
      | cons_cons _ _ => apply hx (h.subset (by simp))

end Componentry
