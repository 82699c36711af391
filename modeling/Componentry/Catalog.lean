import Componentry.Roster

/-!
# Catalogs

A catalog files values under names.  It remembers the order in which its names were first
filed: filing a value under a name that is present replaces the value and keeps the place,
and striking a name closes the gap it leaves.  A catalog is seen through `get?`, which
reads a value, and `names`, which lists the names in order.
-/

namespace Componentry

/-- A finite map from names to values, in the order in which the names were filed. -/
structure Catalog (α : Type) where
  /-- The names with their values, the one filed first in front. -/
  entries : List (Name × α)
  /-- No name is filed twice. -/
  nodup : (entries.map Prod.fst).Nodup

namespace Catalog

variable {α β : Type}

/-- The catalog without entries. -/
def empty : Catalog α := ⟨[], List.nodup_nil⟩

instance : EmptyCollection (Catalog α) := ⟨empty⟩

instance : Inhabited (Catalog α) := ⟨empty⟩

/-- The names of a catalog, the one filed first in front. -/
def names (c : Catalog α) : List Name := c.entries.map Prod.fst

/-- The values of a catalog, in the order of their names. -/
def values (c : Catalog α) : List α := c.entries.map Prod.snd

/-- The value filed under a name. -/
def get? (c : Catalog α) (n : Name) : Option α := c.entries.lookup n

/-- `c.contains n` tells whether a value is filed under `n`. -/
def contains (c : Catalog α) (n : Name) : Bool := (c.get? n).isSome

/-- The number of names of a catalog. -/
def size (c : Catalog α) : Nat := c.entries.length

/-- `c.isEmpty` tells whether `c` has no names. -/
def isEmpty (c : Catalog α) : Bool := c.entries.isEmpty

private theorem lookup_isSome_iff (l : List (Name × α)) (n : Name) :
  (l.lookup n).isSome = true ↔ n ∈ l.map Prod.fst
  := by
  induction l with
  | nil => simp
  | cons e l ih =>
    obtain ⟨m, a⟩ := e
    rw [List.lookup_cons]
    by_cases h : n = m
    · simp [h]
    · simp [h, ih, beq_false_of_ne h]

/-- A name is present exactly when it is listed. -/
theorem contains_iff {c : Catalog α} {n : Name} :
  c.contains n = true ↔ n ∈ c.names
  := lookup_isSome_iff c.entries n

theorem mem_names_iff {c : Catalog α} {n : Name} :
  n ∈ c.names ↔ ∃ a, c.get? n = some a
  := by
  rw [← contains_iff, contains, Option.isSome_iff_exists]

theorem mem_entries_iff {c : Catalog α} {n : Name} {a : α} :
  (n, a) ∈ c.entries ↔ c.get? n = some a
  := by
  constructor
  · intro h
    obtain ⟨l, l', hl⟩ := List.append_of_mem h
    apply List.lookup_eq_some_iff.mpr
    refine ⟨l, l', hl, ?_⟩
    rintro ⟨m, b⟩ hm
    have hd := c.nodup
    rw [hl, List.map_append, List.nodup_append] at hd
    have hne := hd.2.2 m (List.mem_map_of_mem hm) n (by simp)
    simpa using hne.symm
  · intro h
    obtain ⟨l, l', hl, -⟩ := List.lookup_eq_some_iff.mp h
    rw [hl]
    simp

theorem mem_entries_of_get? {c : Catalog α} {n : Name} {a : α} (h : c.get? n = some a) :
  (n, a) ∈ c.entries
  := mem_entries_iff.mpr h

private def replace (n : Name) (a : α) (l : List (Name × α)) : List (Name × α) :=
  l.map fun e => if e.1 = n then (n, a) else e

private theorem map_fst_replace (n : Name) (a : α) (l : List (Name × α)) :
  (replace n a l).map Prod.fst = l.map Prod.fst
  := by
  rw [replace, List.map_map]
  apply List.map_congr_left
  rintro ⟨m, b⟩ -
  by_cases h : m = n <;> simp [h]

/-- `c.insert n a` files `a` under `n`: in the place of `n`, if `n` is present, and behind
all other names, if it is not. -/
def insert (c : Catalog α) (n : Name) (a : α) : Catalog α :=
  if h : n ∈ c.names then
    ⟨replace n a c.entries, by rw [map_fst_replace]; exact c.nodup⟩
  else
    ⟨c.entries ++ [(n, a)], by
      rw [List.map_append, List.nodup_append]
      refine ⟨c.nodup, by simp, ?_⟩
      rintro m hm k hk rfl
      simp only [List.map_cons, List.map_nil, List.mem_singleton] at hk
      exact h (hk ▸ hm)⟩

/-- `c.erase n` lacks `n` and keeps the order of the other names. -/
def erase (c : Catalog α) (n : Name) : Catalog α :=
  ⟨c.entries.filter fun e => e.1 ≠ n,
    c.nodup.sublist (List.filter_sublist.map Prod.fst)⟩

private def keep (f : α → Option β) (l : List (Name × α)) : List (Name × β) :=
  l.filterMap fun e => (f e.2).map fun b => (e.1, b)

private theorem map_fst_keep_sublist (f : α → Option β) (l : List (Name × α)) :
  ((keep f l).map Prod.fst).Sublist (l.map Prod.fst)
  := by
  induction l with
  | nil => simp [keep]
  | cons e l ih =>
    obtain ⟨m, a⟩ := e
    cases h : f a with
    | none =>
      simp only [keep, List.filterMap_cons, h, Option.map_none, List.map_cons]
      exact ih.cons m
    | some b =>
      simp only [keep, List.filterMap_cons, h, Option.map_some, List.map_cons]
      exact ih.cons_cons m

/-- `c.filterMap f` replaces every value by its image under `f` and drops the names whose
value has none. -/
def filterMap (c : Catalog α) (f : α → Option β) : Catalog β :=
  ⟨keep f c.entries, c.nodup.sublist (map_fst_keep_sublist f c.entries)⟩

/-- The catalog that files each pair of a list in turn. -/
def ofList (l : List (Name × α)) : Catalog α :=
  l.foldl (fun c e => c.insert e.1 e.2) empty

/-! ### The value under a name after each operation -/

@[ext]
theorem ext_entries {c d : Catalog α} (h : c.entries = d.entries) :
  c = d
  := by
  cases c
  cases d
  simpa using h

@[simp]
theorem get?_empty (n : Name) :
  (∅ : Catalog α).get? n = none
  := rfl

@[simp]
theorem names_empty :
  (∅ : Catalog α).names = []
  := rfl

private theorem lookup_replace (n m : Name) (a : α) (l : List (Name × α)) :
  (replace n a l).lookup m
    = if m = n then (l.lookup n).map fun _ => a else l.lookup m
  := by
  induction l with
  | nil => simp [replace]
  | cons e l ih =>
    obtain ⟨k, b⟩ := e
    rw [replace, List.map_cons, ← replace]
    by_cases hk : k = n
    · subst hk
      by_cases hm : m = k
      · simp [hm]
      · simp [List.lookup_cons, hm, ih, beq_false_of_ne hm]
    · by_cases hm : m = n
      · subst hm
        simp only [hk, if_false, List.lookup_cons, if_true, beq_false_of_ne (Ne.symm hk)]
        rw [ih, if_pos rfl]
      · simp only [hk, if_false, List.lookup_cons, hm]
        rw [ih, if_neg hm]

private theorem lookup_append_singleton (n m : Name) (a : α) (l : List (Name × α))
    (h : n ∉ l.map Prod.fst) :
  (l ++ [(n, a)]).lookup m = if m = n then some a else l.lookup m
  := by
  induction l with
  | nil => by_cases hm : m = n <;> simp [List.lookup_cons, hm, beq_false_of_ne]
  | cons e l ih =>
    obtain ⟨k, b⟩ := e
    simp only [List.map_cons, List.mem_cons, not_or] at h
    rw [List.cons_append, List.lookup_cons, List.lookup_cons, ih h.2]
    by_cases hm : m = n
    · subst hm
      simp [beq_false_of_ne h.1]
    · simp [hm]

theorem get?_insert (c : Catalog α) (n m : Name) (a : α) :
  (c.insert n a).get? m = if m = n then some a else c.get? m
  := by
  unfold insert
  split
  · rename_i h
    simp only [get?]
    rw [lookup_replace]
    have : (c.entries.lookup n).isSome := (lookup_isSome_iff _ _).mpr h
    obtain ⟨b, hb⟩ := Option.isSome_iff_exists.mp this
    rw [hb]
    rfl
  · exact lookup_append_singleton n m a c.entries ‹_›

theorem get?_insert_self (c : Catalog α) (n : Name) (a : α) :
  (c.insert n a).get? n = some a
  := by
  rw [get?_insert, if_pos rfl]

theorem get?_insert_of_ne {c : Catalog α} {n m : Name} {a : α} (h : m ≠ n) :
  (c.insert n a).get? m = c.get? m
  := by
  rw [get?_insert, if_neg h]

/-- What is there after an insertion was inserted or was there before. -/
theorem of_get?_insert {c : Catalog α} {n m : Name} {a b : α}
    (h : (c.insert n a).get? m = some b) :
  m = n ∧ a = b ∨ c.get? m = some b
  := by
  rw [get?_insert] at h
  split at h
  · rename_i hm
    exact .inl ⟨hm, Option.some.inj h⟩
  · exact .inr h

private theorem lookup_filter_ne (n m : Name) (l : List (Name × α)) :
  (l.filter fun e => e.1 ≠ n).lookup m = if m = n then none else l.lookup m
  := by
  induction l with
  | nil => simp
  | cons e l ih =>
    obtain ⟨k, b⟩ := e
    rw [List.filter_cons]
    by_cases hk : k = n
    · subst hk
      simp only [ne_eq, not_true_eq_false, decide_false, Bool.false_eq_true, if_false]
      rw [ih]
      by_cases hm : m = k
      · simp [hm]
      · simp [hm, List.lookup_cons, beq_false_of_ne hm]
    · simp only [ne_eq, hk, not_false_eq_true, decide_true, if_true]
      rw [List.lookup_cons, ih, List.lookup_cons]
      by_cases hm : m = n
      · subst hm
        simp [beq_false_of_ne (Ne.symm hk)]
      · simp [hm]

@[simp]
theorem get?_erase (c : Catalog α) (n m : Name) :
  (c.erase n).get? m = if m = n then none else c.get? m
  := lookup_filter_ne n m c.entries

theorem get?_erase_of_ne {c : Catalog α} {n m : Name} (h : m ≠ n) :
  (c.erase n).get? m = c.get? m
  := by
  rw [get?_erase, if_neg h]

theorem get?_erase_of_eq_none {c : Catalog α} {m : Name} (h : c.get? m = none) (n : Name) :
  (c.erase n).get? m = none
  := by
  rw [get?_erase]
  split
  · rfl
  · exact h

/-- What is there after an erasure was there before. -/
theorem of_get?_erase {c : Catalog α} {n m : Name} {a : α} (h : (c.erase n).get? m = some a) :
  c.get? m = some a
  := by
  rw [get?_erase] at h
  split at h
  · cases h
  · exact h

theorem names_insert (c : Catalog α) (n : Name) (a : α) :
  (c.insert n a).names = if n ∈ c.names then c.names else c.names ++ [n]
  := by
  unfold insert
  split
  · exact map_fst_replace n a c.entries
  · simp [names]

@[simp]
theorem names_erase (c : Catalog α) (n : Name) :
  (c.erase n).names = c.names.filter (· ≠ n)
  := by
  simp only [names, erase]
  rw [List.filter_map]
  rfl

private theorem lookup_keep (f : α → Option β) (m : Name) (l : List (Name × α))
    (h : (l.map Prod.fst).Nodup) :
  (keep f l).lookup m = (l.lookup m).bind f
  := by
  induction l with
  | nil => simp [keep]
  | cons e l ih =>
    obtain ⟨k, a⟩ := e
    rw [List.map_cons, List.nodup_cons] at h
    rw [List.lookup_cons]
    cases hf : f a with
    | none =>
      have : keep f ((k, a) :: l) = keep f l := by simp [keep, hf]
      rw [this, ih h.2]
      by_cases hm : m = k
      · subst hm
        have : l.lookup m = none := by
          rw [← Option.not_isSome_iff_eq_none]
          exact fun hs => h.1 ((lookup_isSome_iff l m).mp hs)
        simp [this, hf]
      · simp [beq_false_of_ne hm]
    | some b =>
      have : keep f ((k, a) :: l) = (k, b) :: keep f l := by simp [keep, hf]
      rw [this, List.lookup_cons, ih h.2]
      by_cases hm : m = k
      · simp [hm, hf]
      · simp [beq_false_of_ne hm]

@[simp]
theorem get?_filterMap (c : Catalog α) (f : α → Option β) (n : Name) :
  (c.filterMap f).get? n = (c.get? n).bind f
  := lookup_keep f n c.entries c.nodup

theorem filterMap_filterMap {γ : Type} (c : Catalog α) (f : α → Option β) (g : β → Option γ) :
  (c.filterMap f).filterMap g = c.filterMap fun a => (f a).bind g
  := by
  apply ext_entries
  simp only [filterMap, keep, List.filterMap_filterMap]
  congr 1
  funext e
  cases f e.2 <;> rfl

theorem filterMap_filter (c : Catalog α) (p : Name → Bool) (f : α → Option β) :
  (c.filterMap f).entries.filter (fun e => p e.1)
    = (c.entries.filter fun e => p e.1).filterMap fun e => (f e.2).map fun b => (e.1, b)
  := by
  simp only [filterMap, keep, List.filter_filterMap, List.filterMap_filter]
  congr 1
  funext e
  cases f e.2 with
  | none => simp
  | some b => simp [Option.filter]

/-- Striking a name that is present makes a catalog smaller. -/
theorem size_erase_lt {c : Catalog α} {n : Name} (h : n ∈ c.names) :
  (c.erase n).size < c.size
  := by
  rw [names, List.mem_map] at h
  obtain ⟨e, he, rfl⟩ := h
  apply Nat.lt_of_le_of_ne (List.length_filter_le _ _)
  intro hlen
  have := List.length_filter_eq_length_iff.mp hlen e he
  simp at this

theorem size_erase_le (c : Catalog α) (n : Name) :
  (c.erase n).size ≤ c.size
  := List.length_filter_le _ _

theorem size_filterMap_le (c : Catalog α) (f : α → Option β) :
  (c.filterMap f).size ≤ c.size
  := List.length_filterMap_le _ _

theorem isEmpty_iff {c : Catalog α} :
  c.isEmpty = true ↔ c.names = []
  := by
  simp [isEmpty, names]

/-- A catalog is empty if there is no value to read. -/
theorem isEmpty_iff_get? {c : Catalog α} :
  c.isEmpty = true ↔ ∀ n, c.get? n = none
  := by
  rw [isEmpty_iff, List.eq_nil_iff_forall_not_mem]
  apply forall_congr'
  intro n
  rw [← contains_iff, contains, Bool.not_eq_true, Option.isSome_eq_false_iff,
    Option.isNone_iff_eq_none]

end Catalog

end Componentry
