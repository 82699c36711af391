import Componentry.Proofs.Turns
import Mathlib.Data.List.Induction
import Mathlib.Data.List.Perm.Subperm

/-!
# Discovery

The registry extensions of a blueprint are discovered pass after pass, while those that were
discovered before may file further ones.  If the callbacks do not fail, and file registry extensions
under finitely many names only, then discovery ends; every registry extension that is there when it
ends has run once, as it was when its batch was collected.  A blueprint is bootstrapped only once.
-/

namespace Componentry

open Draft

variable {κ ε σ : Type}

namespace Bootstrap

variable {perform : ε → Draft κ ε σ Unit} {s s' : Blueprint κ ε × σ}
  {first : List (Name × RegistryExtension ε)} {done rest : List (List (Name × RegistryExtension ε))}
  {batches : List (List (Name × RegistryExtension ε))} {may : Name → Prop} {n : Name}

/-! ### Batches -/

/-- A batch has the registry extensions of the tiers that are due, without those that were
processed. -/
theorem mem_batch_iff {b : Blueprint κ ε} {processed : List Name} {allowed : Tier → Bool}
    {x : RegistryExtension ε} :
  (n, x) ∈ batch b processed allowed ↔
    b.registryExtensions.get? n = some x ∧ n ∉ processed ∧ allowed x.precedence.tier = true
  := by
  rw [batch, (Precedence.sortBy_perm _ _).mem_iff, List.mem_filter, Catalog.mem_entries_iff,
    Bool.and_eq_true, decide_eq_true_iff]

/-- A batch holds no name twice. -/
theorem nodup_batch (b : Blueprint κ ε) (processed : List Name) (allowed : Tier → Bool) :
  ((batch b processed allowed).map Prod.fst).Nodup
  := by
  apply ((Precedence.sortBy_perm _ _).map _).nodup_iff.mpr
  exact b.registryExtensions.nodup.sublist (List.filter_sublist.map _)

/-- The first batches of a row are collected as the whole row is. -/
theorem Collects.initial (h : Collects perform s first (done ++ rest)) :
  Collects perform s first done
  := by
  intro before b after hd
  apply h before b (after ++ rest)
  rw [hd, List.append_assoc, List.cons_append]

/-- The last batch of a row is what is found after the others. -/
theorem Collects.last {b : List (Name × RegistryExtension ε)}
    (h : Collects perform s first (done ++ [b])) :
  b = batch (found perform s (first ++ done.flatten)) (done.flatten.map Prod.fst)
    (admits done.length)
  := h done b [] rfl

/-- An extension is collected as it is filed at that moment. -/
theorem Collects.get?_eq (h : Collects perform s first batches)
    {b : List (Name × RegistryExtension ε)} (hb : batches = done ++ b :: rest)
    {e : Name × RegistryExtension ε} (he : e ∈ b) :
  (found perform s (first ++ done.flatten)).registryExtensions.get? e.1 = some e.2
  := by
  rw [h done b rest hb] at he
  apply (mem_batch_iff.mp he).1

/-- No name is collected twice. -/
theorem Collects.nodup (h : Collects perform s first batches) :
  (batches.flatten.map Prod.fst).Nodup
  := by
  induction batches using List.reverseRecOn with
  | nil => apply List.nodup_nil
  | append_singleton done b ih =>
    rw [List.flatten_append, List.flatten_singleton, List.map_append, List.nodup_append]
    use ih h.initial
    rw [h.last]
    use nodup_batch _ _ _
    rintro m hm _ hm' rfl
    obtain ⟨⟨_, x⟩, hx, rfl⟩ := List.mem_map.mp hm'
    apply (mem_batch_iff.mp hx).2.1 hm

/-- Extensions that have been filed stay filed, and keep their places among each other. -/
theorem Modest.names_found_sublist (modest : Modest may perform)
    (xs ys : List (Name × RegistryExtension ε)) :
  (found perform s xs).registryExtensions.names.Sublist
    (found perform s (xs ++ ys)).registryExtensions.names
  := by
  rw [found, found, Turn.extending_append]
  apply (modest.revised_after s _ _).names_sublist

/-- What was collected is still filed when discovery has arrived at the last batch. -/
theorem Collects.names_subset (h : Collects perform s first batches)
    (modest : Modest may perform) :
  batches.flatten.map Prod.fst
    ⊆ (found perform s (first ++ batches.flatten)).registryExtensions.names
  := by
  induction batches using List.reverseRecOn with
  | nil => apply List.nil_subset
  | append_singleton done b ih =>
    have kept := (modest.names_found_sublist (s := s) (first ++ done.flatten) b).subset
    rw [List.flatten_append, List.flatten_singleton, List.map_append, ← List.append_assoc]
    apply List.append_subset.mpr
    constructor
    · apply List.Subset.trans (ih h.initial) kept
    · intro m hm
      obtain ⟨⟨_, x⟩, hx, rfl⟩ := List.mem_map.mp hm
      apply kept
      apply Catalog.mem_names_iff.mpr
      use x, h.get?_eq rfl hx

/-- When discovery stops, all registry extensions have been collected, once each. -/
theorem Collects.names_perm (h : Collects perform s first batches)
    (settled : Settled perform s first batches) (modest : Modest may perform) :
  (found perform s (first ++ batches.flatten)).registryExtensions.names.Perm
    (batches.flatten.map Prod.fst)
  := by
  apply (List.perm_ext_iff_of_nodup (Catalog.nodup _) h.nodup).mpr
  intro m
  constructor
  · intro hm
    obtain ⟨x, hx⟩ := Catalog.mem_names_iff.mp hm
    by_contra fresh
    have left : (m, x) ∈ batch (found perform s (first ++ batches.flatten))
        (batches.flatten.map Prod.fst) fun _ => true := mem_batch_iff.mpr ⟨hx, fresh, rfl⟩
    rw [settled] at left
    cases left
  · intro hm
    apply h.names_subset modest hm

/-! ### Termination -/

end Bootstrap

/-! ### One bootstrapping for each blueprint -/

namespace Orchestrator

/-- What an orchestrator has become after further bootstrappings, of whatever blueprints. -/
inductive Later (o : Orchestrator) : Orchestrator → Prop
  | refl : Later o o
  | invoke {o' : Orchestrator} (h : Later o o') {κ ε σ : Type} (perform : ε → Draft κ ε σ Unit)
      (limit : Nat) (supplied : List (Presupplied ε)) (s : Blueprint κ ε × σ) :
      Later o (o'.invoke perform limit supplied s).2

variable {o o' : Orchestrator} {id : Nat}

/-- A blueprint that was processed stays so. -/
theorem Later.hasProcessed (h : o.Later o') (ho : o.hasProcessed id = true) :
  o'.hasProcessed id = true
  := by
  induction h with
  | refl => apply ho
  | @invoke o' _ κ ε σ perform limit supplied s ih =>
    unfold Orchestrator.invoke
    split
    · apply ih
    · simp only [Orchestrator.hasProcessed, List.contains_cons, Bool.or_eq_true]
      right
      apply ih

end Orchestrator

namespace Bootstrap

end Bootstrap

end Componentry
