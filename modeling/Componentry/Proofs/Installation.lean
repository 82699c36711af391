import Componentry.Chain
import Componentry.Proofs.Ranks
import Mathlib.Data.List.Pairwise

/-!
# Installing interceptors

Interceptors are installed by adding them one after the other, and one that is added leaves its
earlier place.  Of a list that is added the last entry of each name is left, behind the entries of
other names.  The main result, `installation_arranged`, says what comes of it when the internal
interceptors are added a second time: a chain in three parts, which another installation leaves as
it is.
-/

namespace Componentry

open Precedence

variable {κ ε : Type}

namespace Chain

variable {c : Chain κ} {l l' : List (Name × Interceptor κ)} {b : Blueprint κ ε}
  {e : Name × Interceptor κ}

/-! ### Adding a list -/

/-- Two entries have different names. -/
def Apart (e e' : Name × Interceptor κ) : Prop := e.1 ≠ e'.1

instance : DecidableRel (Apart (κ := κ)) :=
  fun e e' => inferInstanceAs (Decidable (e.1 ≠ e'.1))

/-- Entries have different names one by one exactly if no name comes twice. -/
theorem pairwise_apart_iff :
  l.Pairwise Apart ↔ (l.map Prod.fst).Nodup
  := by
  rw [List.Nodup, List.pairwise_map]
  rfl

/-- An entry has another name than the last entries of a list if its name does not occur there. -/
theorem apart_last_iff :
  (∀ e' ∈ l.pwFilter Apart, Apart e e') ↔ e.1 ∉ l.map Prod.fst
  := by
  rw [List.forall_mem_pwFilter]
  · simp only [Apart, List.mem_map, not_exists, not_and]
    constructor
    · intro apart e' he' same
      apply apart e' he' same.symm
    · intro apart e' he' same
      apply apart e' he' same.symm
  · intro x y z apart
    by_contra same
    simp only [Apart, ne_eq, not_or, not_not] at same
    apply apart (same.1.trans same.2)

/-- A list that is added stands at the tail, each name with its last entry. -/
theorem entries_addAll (c : Chain κ) (l : List (Name × Interceptor κ)) :
  (c.addAll l).entries = c.entries.filter (fun e => e.1 ∉ l.map Prod.fst) ++ l.pwFilter Apart
  := by
  induction l generalizing c with
  | nil => simp [addAll]
  | cons e l ih =>
    have first : (c.addAll (e :: l)).entries = ((c.add e).addAll l).entries := rfl
    have old : (c.entries.filter fun e' => e'.1 ≠ e.1).filter (fun e' => e'.1 ∉ l.map Prod.fst)
        = c.entries.filter fun e' => e'.1 ∉ (e :: l).map Prod.fst := by
      rw [List.filter_filter]
      apply List.filter_congr
      intro e' _
      simp only [List.map_cons, List.mem_cons, not_or, Bool.decide_and]
      apply Bool.and_comm
    rw [first, ih, add, List.filter_append, old, List.append_assoc]
    congr 1
    by_cases later : e.1 ∈ l.map Prod.fst
    · rw [List.pwFilter_cons_of_neg (apart_last_iff.not_left.mpr later)]
      simp [later]
    · rw [List.pwFilter_cons_of_pos (apart_last_iff.mpr later)]
      simp [later]

/-- Of two lists without repetition, one behind the other, the second one is left as it is. -/
theorem pwFilter_append (once : (l.map Prod.fst).Nodup) (once' : (l'.map Prod.fst).Nodup) :
  (l ++ l').pwFilter Apart = l.filter (fun e => e.1 ∉ l'.map Prod.fst) ++ l'
  := by
  induction l with
  | nil => exact List.pwFilter_eq_self.mpr (pairwise_apart_iff.mpr once')
  | cons e l ih =>
    rw [List.map_cons, List.nodup_cons] at once
    rw [List.cons_append]
    by_cases again : e.1 ∈ l'.map Prod.fst
    · have : e.1 ∈ (l ++ l').map Prod.fst := by
        rw [List.map_append]
        apply List.mem_append_right _ again
      rw [List.pwFilter_cons_of_neg (apart_last_iff.not_left.mpr this), ih once.2]
      simp [again]
    · have : e.1 ∉ (l ++ l').map Prod.fst := by
        rw [List.map_append, List.mem_append, not_or]
        use once.1, again
      rw [List.pwFilter_cons_of_pos (apart_last_iff.mpr this), ih once.2]
      simp [again]

/-- No name comes twice in a chain to which interceptors were added. -/
theorem nodup_names_addAll (h : c.names.Nodup) (l : List (Name × Interceptor κ)) :
  (c.addAll l).names.Nodup
  := by
  rw [names, entries_addAll, ← pairwise_apart_iff, List.pairwise_append]
  refine ⟨?_, List.pairwise_pwFilter l, ?_⟩
  · apply List.Pairwise.filter
    apply pairwise_apart_iff.mpr h
  · intro e he e' he'
    have absent := of_decide_eq_true (List.mem_filter.mp he).2
    apply apart_last_iff.mpr absent e' he'

/-! ### The three parts -/

/-- The interceptors of a blueprint, tier by tier, each tier in the order of its order values. -/
def tiers (b : Blueprint κ ε) : List (Name × Interceptor κ) :=
  [Tier.priority, .ordered, .unordered].flatMap fun t => ofTier t b.interceptors.entries

/-- An installation adds the interceptors tier by tier, and then the internal ones once more. -/
theorem install_eq (c : Chain κ) (b : Blueprint κ ε) :
  c.install b = c.addAll (tiers b ++ internals b.interceptors.entries)
  := by
  simp [install, tiers]

/-- The tiers of a blueprint have its interceptors, in another order. -/
theorem tiers_perm_entries (b : Blueprint κ ε) :
  (tiers b).Perm b.interceptors.entries
  := tiers_perm _ _

/-- No name comes twice in the tiers of a blueprint. -/
theorem nodup_tiers (b : Blueprint κ ε) :
  ((tiers b).map Prod.fst).Nodup
  := ((tiers_perm_entries b).map Prod.fst).nodup_iff.mpr b.interceptors.nodup

/-- The names in the tiers of a blueprint are those of its interceptors. -/
theorem mem_names_tiers_iff {n : Name} :
  n ∈ (tiers b).map Prod.fst ↔ n ∈ b.interceptors.names
  := ((tiers_perm_entries b).map Prod.fst).mem_iff

/-- The interceptors of a blueprint that are not internal, tier by tier, each tier in the order of
its order values. -/
def ordinary (b : Blueprint κ ε) : List (Name × Interceptor κ) :=
  ([Tier.priority, .ordered, .unordered].flatMap fun t => ofTier t b.interceptors.entries).filter
    fun e => !e.2.isInternal

/-- The ordinary interceptors of a blueprint are those that are not internal. -/
theorem mem_ordinary_iff :
  e ∈ ordinary b ↔ e ∈ b.interceptors.entries ∧ e.2.isInternal = false
  := by
  rw [ordinary, List.mem_filter, Bool.not_eq_true']
  apply and_congr_left'
  apply (tiers_perm _ _).mem_iff

/-- The internal interceptors of a list are those that are internal. -/
theorem mem_internals_iff :
  e ∈ internals l ↔ e ∈ l ∧ e.2.isInternal = true
  := by
  rw [internals, (sortBy_perm _ _).mem_iff, List.mem_filter]

/-- No name comes twice among the internal interceptors of a blueprint. -/
theorem nodup_internals (b : Blueprint κ ε) :
  ((internals b.interceptors.entries).map Prod.fst).Nodup
  := by
  apply ((sortBy_perm _ _).map Prod.fst).nodup_iff.mpr
  apply b.interceptors.nodup.sublist (List.filter_sublist.map Prod.fst)

/-- An interceptor of a blueprint has the name of an internal one if it is internal. -/
theorem mem_names_internals_iff (he : e ∈ b.interceptors.entries) :
  e.1 ∈ (internals b.interceptors.entries).map Prod.fst ↔ e.2.isInternal = true
  := by
  constructor
  · intro h
    obtain ⟨e', he', same⟩ := List.mem_map.mp h
    obtain ⟨he', internal⟩ := mem_internals_iff.mp he'
    have filed := Catalog.mem_entries_iff.mp he'
    rw [same, Catalog.mem_entries_iff.mp he] at filed
    rwa [Option.some.inj filed]
  · intro internal
    apply List.mem_map_of_mem
    apply mem_internals_iff.mpr
    use he, internal

/-- An installation leaves the entries of other names in front, followed by the interceptors that
are not internal, and then by those that are. -/
theorem entries_install (c : Chain κ) (b : Blueprint κ ε) :
  (c.install b).entries = c.entries.filter (fun e => e.1 ∉ b.interceptors.names)
    ++ (ordinary b ++ internals b.interceptors.entries)
  := by
  have names : ∀ n, n ∈ (tiers b ++ internals b.interceptors.entries).map Prod.fst
      ↔ n ∈ b.interceptors.names := by
    intro n
    rw [List.map_append, List.mem_append, mem_names_tiers_iff]
    apply or_iff_left_of_imp
    intro h
    obtain ⟨e, he, rfl⟩ := List.mem_map.mp h
    apply List.mem_map_of_mem (mem_internals_iff.mp he).1
  have moved : (tiers b).filter (fun e => e.1 ∉ (internals b.interceptors.entries).map Prod.fst)
      = ordinary b := by
    apply List.filter_congr
    intro e he
    simp only [mem_names_internals_iff ((tiers_perm_entries b).mem_iff.mp he)]
    cases e.2.isInternal <;> rfl
  rw [install_eq, entries_addAll, pwFilter_append (nodup_tiers b) (nodup_internals b), moved]
  congr 1
  apply List.filter_congr
  intro e _
  simp only [names]

/-- Interceptors that are not internal come in the order of their tiers, order values and places. -/
theorem pairwise_ordinary (b : Blueprint κ ε) :
  (ordinary b).Pairwise (Ahead (·.2.precedence) b.interceptors.entries)
  := (pairwise_tiers _ _).filter _

/-- A chain `c'` comes of the chain `c` by filing the interceptors of a catalog. -/
structure Arranged (c : Chain κ) (filed : Catalog (Interceptor κ)) (c' : Chain κ) : Prop where
  /-- No name occurs twice. -/
  nodup : c'.names.Nodup
  /-- The names are those of the chain and those of the catalog. -/
  mem_names : ∀ n, n ∈ c'.names ↔ n ∈ c.names ∨ n ∈ filed.names
  /-- Under a name of the catalog stands the interceptor that is filed there. -/
  mem_entries : ∀ n ic, filed.get? n = some ic → (n, ic) ∈ c'.entries
  /-- In front stand the entries of other names, in the order they had.  Then come the interceptors
  of the catalog that are not internal, in the order of their tiers, order values and places, and at
  the tail those that are. -/
  order : ∃ ordinary internal,
    c'.entries = c.entries.filter (fun e => e.1 ∉ filed.names) ++ ordinary ++ internal ∧
    (∀ e, e ∈ ordinary ↔ e ∈ filed.entries ∧ e.2.isInternal = false) ∧
    ordinary.Pairwise (Ahead (·.2.precedence) filed.entries) ∧
    ∀ e, e ∈ internal ↔ e ∈ filed.entries ∧ e.2.isInternal = true

/-- No name comes twice in a chain after an installation. -/
theorem nodup_names_install (h : c.names.Nodup) (b : Blueprint κ ε) :
  (c.install b).names.Nodup
  := nodup_names_addAll h _

/-- An installation adds the interceptors of the blueprint, and no others. -/
theorem mem_installed_iff :
  e ∈ ordinary b ++ internals b.interceptors.entries ↔ e ∈ b.interceptors.entries
  := by
  rw [List.mem_append, mem_ordinary_iff, mem_internals_iff]
  cases e.2.isInternal <;> simp

/-- After an installation the chain has the names it had and those of the blueprint. -/
theorem mem_names_install_iff {n : Name} :
  n ∈ (c.install b).names ↔ n ∈ c.names ∨ n ∈ b.interceptors.names
  := by
  have old : n ∈ (c.entries.filter fun e => e.1 ∉ b.interceptors.names).map Prod.fst
      ↔ n ∈ c.names ∧ n ∉ b.interceptors.names := by
    simp only [names, List.mem_map, List.mem_filter, decide_eq_true_eq]
    grind
  have new : n ∈ (ordinary b ++ internals b.interceptors.entries).map Prod.fst
      ↔ n ∈ b.interceptors.names := by
    simp only [List.mem_map, mem_installed_iff, Catalog.names]
  rw [names, entries_install, List.map_append, List.mem_append, old, new]
  tauto

/-- An installation arranges the chain. -/
theorem arranged_install (h : c.names.Nodup) (b : Blueprint κ ε) :
  Arranged c b.interceptors (c.install b)
  where
  nodup := nodup_names_install h b
  mem_names _ := mem_names_install_iff
  mem_entries n ic filed := by
    rw [entries_install]
    apply List.mem_append_right
    apply mem_installed_iff.mpr
    apply Catalog.mem_entries_of_get? filed
  order := by
    use ordinary b, internals b.interceptors.entries
    rw [entries_install, List.append_assoc]
    exact ⟨rfl, fun _ => mem_ordinary_iff, pairwise_ordinary b, fun _ => mem_internals_iff⟩

/-- What has been installed is left as it is by another installation. -/
theorem install_install (c : Chain κ) (b : Blueprint κ ε) :
  (c.install b).install b = c.install b
  := by
  have old : (c.install b).entries.filter (fun e => e.1 ∉ b.interceptors.names)
      = c.entries.filter (fun e => e.1 ∉ b.interceptors.names) := by
    have filed : (ordinary b ++ internals b.interceptors.entries).filter
        (fun e => e.1 ∉ b.interceptors.names) = [] := by
      apply List.filter_eq_nil_iff.mpr
      intro e he
      rw [decide_eq_true_eq, not_not]
      apply List.mem_map_of_mem (mem_installed_iff.mp he)
    rw [entries_install, List.filter_append, filed, List.append_nil, List.filter_filter]
    simp only [Bool.and_self]
  apply ext_entries
  rw [entries_install, old, ← entries_install]

end Chain

/-- An installation arranges a chain that was built by adding interceptors, whatever they are: the
entries of other names keep their places in front, the interceptors that are not internal follow in
the order of their tiers, order values and places, and the internal ones stand at the tail.  No name
is lost or occurs twice, and another installation changes nothing. -/
theorem installation_arranged (added : List (Name × Interceptor κ)) (b : Blueprint κ ε) :
  Chain.Arranged ((∅ : Chain κ).addAll added) b.interceptors
      (((∅ : Chain κ).addAll added).install b) ∧
    (((∅ : Chain κ).addAll added).install b).install b = ((∅ : Chain κ).addAll added).install b
  := by
  have once : ((∅ : Chain κ).addAll added).names.Nodup :=
    Chain.nodup_names_addAll (c := ∅) List.nodup_nil added
  use Chain.arranged_install once b
  apply Chain.install_install

end Componentry
