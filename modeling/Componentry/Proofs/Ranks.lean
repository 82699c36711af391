import Componentry.Proofs.Discovery

/-!
# Ranks of extensions

Extensions that are there from the start run in the order of their tiers, then of their order
values, and then of their places, whatever is filed meanwhile: a pass collects from the tiers up
to one, and what belongs to a tier before it has been collected by then.  What an extension files
is collected by a later pass.
-/

namespace Componentry

open Draft

variable {κ ε σ α : Type}

/-- The place of a tier, counted from the front. -/
def Tier.place : Tier → Nat
  | priority => 0
  | ordered => 1
  | unordered => 2

/-! ### The order by order values -/

namespace Precedence

/-- A precedence has an order value, and another one has none or a greater one. -/
def Lower (p q : Precedence) : Prop :=
  ∃ x, p.order? = some x ∧ ∀ y, q.order? = some y → x < y

/-- Of the items of a list, one comes in front of another one if its order value is lower, whatever
the tiers, or if it has the same one, or none as the other one, and stands in front. -/
def InFront (precedence : α → Precedence) (items : List α) (a b : α) : Prop :=
  (precedence a).Lower (precedence b) ∨
    (precedence a).order? = (precedence b).order? ∧ [a, b].Sublist items

variable {p q : Precedence} {precedence : α → Precedence} {items : List α} {a b : α}

/-- A precedence may not stand in front of a lower one. -/
theorem Lower.not_atMost (h : p.Lower q) :
  ¬ q.atMost p = true
  := by
  obtain ⟨x, hx, greater⟩ := h
  rw [atMost_iff, hx]
  cases hy : q.order? with
  | none => exact id
  | some y => simpa using greater y hy

/-- A precedence that may stand in front of another one is lower, or has the same order value. -/
theorem lower_or_eq (h : p.atMost q = true) :
  p.Lower q ∨ p.order? = q.order?
  := by
  rw [atMost_iff] at h
  cases hx : p.order? with
  | none =>
    cases hy : q.order? with
    | none => exact .inr rfl
    | some y => simp [hx, hy] at h
  | some x =>
    cases hy : q.order? with
    | none => exact .inl ⟨x, hx, by simp [hy]⟩
    | some y =>
      simp only [hx, hy] at h
      obtain lt | rfl := Int.lt_or_eq_of_le h
      · left
        use x, hx
        rintro _ hz
        cases hy.symm.trans hz
        exact lt
      · exact .inr rfl

/-- Sorting puts an item where it comes in front of others. -/
theorem InFront.sublist_sortBy (h : InFront precedence items a b) (ha : a ∈ items)
    (hb : b ∈ items) :
  [a, b].Sublist (sortBy precedence items)
  := by
  obtain lower | ⟨alike, h⟩ := h
  · have not := lower.not_atMost
    have sorted := sortBy_pairwise precedence items
    have ha := (sortBy_perm precedence items).mem_iff.mpr ha
    have hb := (sortBy_perm precedence items).mem_iff.mpr hb
    obtain ⟨front, back, split⟩ := List.append_of_mem ha
    rw [split] at hb sorted ⊢
    obtain hb | rfl | hb : b ∈ front ∨ b = a ∨ b ∈ back := by simpa using hb
    · have before := (List.pairwise_append.mp sorted).2.2 b hb a (by simp)
      exact absurd before not
    · exact absurd (by simpa using atMost_total (precedence b) (precedence b)) not
    · apply List.Sublist.trans _ (List.sublist_append_right _ _)
      apply List.Sublist.cons_cons
      apply List.singleton_sublist.mpr hb
  · apply List.Sublist.trans _ (List.filter_sublist
      (p := fun a => (precedence a).order? = (precedence b).order?))
    rw [filter_sortBy]
    have kept := h.filter fun a => (precedence a).order? = (precedence b).order?
    simpa [alike] using kept

/-- In a sorted list, each item comes in front of those behind it. -/
theorem pairwise_inFront_sortBy (precedence : α → Precedence) (items : List α) :
  (sortBy precedence items).Pairwise (InFront precedence items)
  := by
  apply List.pairwise_iff_forall_sublist.mpr
  intro a b h
  have before := List.pairwise_iff_forall_sublist.mp (sortBy_pairwise precedence items) h
  obtain lower | alike := lower_or_eq before
  · left
    exact lower
  · right
    use alike
    have kept := h.filter fun a => (precedence a).order? = (precedence b).order?
    rw [filter_sortBy] at kept
    apply List.Sublist.trans _ (List.filter_sublist
      (p := fun a => (precedence a).order? = (precedence b).order?))
    simpa [alike] using kept

/-- An item that comes in front in a part of a list does so in the list. -/
theorem InFront.mono {items' : List α} (h : InFront precedence items a b)
    (sub : items.Sublist items') :
  InFront precedence items' a b
  := h.imp_right (And.imp_right fun h => h.trans sub)

/-! ### The order by precedence -/

/-- A precedence comes before another one by its tier, or in the same tier by its order value. -/
def Precedes (p q : Precedence) : Prop :=
  p.tier.place < q.tier.place ∨
    p.tier = q.tier ∧ ∃ x y, p.order? = some x ∧ q.order? = some y ∧ x < y

/-- Of the items of a list, one comes before another one by its precedence, or it has the same
precedence and stands in front. -/
def Ahead (precedence : α → Precedence) (items : List α) (a b : α) : Prop :=
  (precedence a).Precedes (precedence b) ∨
    precedence a = precedence b ∧ [a, b].Sublist items

/-- In one tier, an item comes in front of those that it is ahead of. -/
theorem Ahead.inFront (h : Ahead precedence items a b)
    (tier : (precedence a).tier = (precedence b).tier) :
  InFront precedence items a b
  := by
  obtain (earlier | ⟨-, x, y, hx, hy, lt⟩) | ⟨alike, h⟩ := h
  · rw [tier] at earlier
    exact absurd earlier (Nat.lt_irrefl _)
  · left
    use x, hx
    intro z hz
    cases hy.symm.trans hz
    exact lt
  · right
    rw [alike]
    use rfl, h

/-- In one tier, an item is ahead of those that it comes in front of. -/
theorem InFront.ahead (h : InFront precedence items a b)
    (tier : (precedence a).tier = (precedence b).tier) :
  Ahead precedence items a b
  := by
  obtain ⟨x, hx, greater⟩ | ⟨alike, h⟩ := h
  · left
    right
    use tier, x
    cases ha : precedence a <;> cases hb : precedence b <;>
      simp_all [Precedence.tier, order?]
  · right
    constructor
    · cases ha : precedence a <;> cases hb : precedence b <;>
        simp_all [Precedence.tier, order?]
    · exact h

/-- Sorting puts one item of a tier in front of another one if it is ahead of it. -/
theorem Ahead.sublist_sortBy (h : Ahead precedence items a b)
    (tier : (precedence a).tier = (precedence b).tier) (ha : a ∈ items) (hb : b ∈ items) :
  [a, b].Sublist (sortBy precedence items)
  := (h.inFront tier).sublist_sortBy ha hb

/-- In a sorted list of one tier, each item is ahead of those behind it. -/
theorem pairwise_ahead_sortBy {t : Tier} (tier : ∀ a ∈ items, (precedence a).tier = t) :
  (sortBy precedence items).Pairwise (Ahead precedence items)
  := by
  apply (pairwise_inFront_sortBy precedence items).imp_of_mem
  intro a b ha hb before
  have ha := (sortBy_perm precedence items).mem_iff.mp ha
  have hb := (sortBy_perm precedence items).mem_iff.mp hb
  apply before.ahead ((tier a ha).trans (tier b hb).symm)

/-- What is ahead is of an earlier tier, or of the same one. -/
theorem Ahead.tier (h : Ahead precedence items a b) :
  (precedence a).tier.place < (precedence b).tier.place ∨
    (precedence a).tier = (precedence b).tier
  := by
  obtain (earlier | ⟨same, -⟩) | ⟨alike, -⟩ := h
  · left
    exact earlier
  · right
    exact same
  · right
    rw [alike]

/-- An item that comes before another one in a part of a list does so in the list. -/
theorem Ahead.mono {items' : List α} (h : Ahead precedence items a b)
    (sub : items.Sublist items') :
  Ahead precedence items' a b
  := by
  obtain h | ⟨alike, h⟩ := h
  · left
    exact h
  · right
    use alike, h.trans sub

/-- An item that comes before another one does so among those that are kept, if both are. -/
theorem Ahead.filter (h : Ahead precedence items a b) {keep : α → Bool} (ha : keep a = true)
    (hb : keep b = true) :
  Ahead precedence (items.filter keep) a b
  := by
  obtain h | ⟨alike, h⟩ := h
  · left
    exact h
  · right
    use alike
    simpa [ha, hb] using h.filter keep

/-! ### Items tier by tier -/

/-- Taking the items of a list tier by tier neither loses nor adds any. -/
theorem tiers_perm (precedence : α → Precedence) (items : List α) :
  ([Tier.priority, .ordered, .unordered].flatMap fun t =>
    sortBy precedence (items.filter fun a => (precedence a).tier = t)).Perm items
  := by
  have unsorted : ([Tier.priority, .ordered, .unordered].flatMap fun t =>
      items.filter fun a => (precedence a).tier = t).Perm items := by
    simp only [List.flatMap_cons, List.flatMap_nil, List.append_nil]
    induction items with
    | nil => apply List.Perm.refl
    | cons a items ih =>
      cases ht : (precedence a).tier with
      | priority => simpa [ht] using ih
      | ordered =>
        simp only [ht, List.filter_cons, reduceCtorEq, decide_false, decide_true, if_true]
        apply List.perm_middle.trans (ih.cons a)
      | unordered =>
        simp only [ht, List.filter_cons, reduceCtorEq, decide_false, decide_true, if_true]
        rw [← List.append_assoc] at ih ⊢
        apply List.perm_middle.trans (ih.cons a)
  apply List.Perm.trans _ unsorted
  apply List.Perm.flatMap_left
  intro t _
  apply sortBy_perm

/-- Items that are taken tier by tier, each tier sorted, come in the order of their tiers, order
values and places. -/
theorem pairwise_tiers (precedence : α → Precedence) (items : List α) :
  ([Tier.priority, .ordered, .unordered].flatMap fun t =>
    sortBy precedence (items.filter fun a => (precedence a).tier = t)).Pairwise
      (Ahead precedence items)
  := by
  apply List.pairwise_flatMap.mpr
  constructor
  · intro t _
    have tier : ∀ a ∈ items.filter fun a => (precedence a).tier = t, (precedence a).tier = t := by
      intro a ha
      simpa using (List.mem_filter.mp ha).2
    apply (pairwise_ahead_sortBy tier).imp
    intro a b ahead
    apply ahead.mono List.filter_sublist
  · have tiers : [Tier.priority, .ordered, .unordered].Pairwise fun t t' => t.place < t'.place := by
      decide
    apply tiers.imp
    intro t t' lt a ha b hb
    have ha := (sortBy_perm _ _).mem_iff.mp ha
    have hb := (sortBy_perm _ _).mem_iff.mp hb
    left
    left
    simp only [List.mem_filter, decide_eq_true_eq] at ha hb
    rw [ha.2, hb.2]
    exact lt

end Precedence

open Precedence

/-- Items keep their places among each other when the values of some names change. -/
theorem Catalog.pair_sublist_entries {c : Catalog α} {e e' : Name × α}
    (h : [e.1, e'.1].Sublist c.names) (he : c.get? e.1 = some e.2) (he' : c.get? e'.1 = some e'.2) :
  [e, e'].Sublist c.entries
  := by
  obtain ⟨l, hl, names⟩ := List.sublist_map_iff.mp h
  obtain ⟨x, y, rfl⟩ : ∃ x y, l = [x, y] := by
    apply List.length_eq_two.mp
    simpa using (congrArg List.length names).symm
  obtain ⟨hx, hy⟩ : e.1 = x.1 ∧ e'.1 = y.1 := by simpa using names
  have filed : ∀ {z e : Name × α}, z ∈ [x, y] → e.1 = z.1 → c.get? e.1 = some e.2 → z = e := by
    intro z e hz hn he
    have hz := Catalog.mem_entries_iff.mp (hl.subset hz)
    rw [← hn, he] at hz
    exact Prod.ext hn.symm (Option.some.inj hz).symm
  rw [← filed (by simp) hx he, ← filed (by simp) hy he']
  exact hl

namespace Bootstrap

variable {perform : ε → Draft κ ε σ Unit} {s s' : Blueprint κ ε × σ}
  {first : List (Name × RegistryExtension ε)} {done rest : List (List (Name × RegistryExtension ε))}
  {batches : List (List (Name × RegistryExtension ε))} {may : Name → Prop} {n : Name}
  {e e' : Name × RegistryExtension ε}

/-! ### Extensions that are there from the start -/

/-- A pass admits the tiers up to its own place. -/
theorem admits_iff {k : Nat} {t : Tier} :
  admits k t = true ↔ t.place ≤ k
  := by
  match k with
  | 0 | 1 => cases t <;> decide
  | k + 2 => cases t <;> simp [admits, Tier.place]

/-- A registry extension is filed from the start on, and stays as it is, while those in `xs` extend
the blueprint. -/
def Stays (perform : ε → Draft κ ε σ Unit) (s : Blueprint κ ε × σ)
    (xs : List (Name × RegistryExtension ε)) (e : Name × RegistryExtension ε) : Prop :=
  ∀ before, before <+: xs → (found perform s before).registryExtensions.get? e.1 = some e.2

/-- A registry extension that stays as it is can be found at every batch. -/
theorem Stays.get?_eq (h : Stays perform s (first ++ (done ++ rest).flatten) e) :
  (found perform s (first ++ done.flatten)).registryExtensions.get? e.1 = some e.2
  := by
  apply h
  rw [List.flatten_append, ← List.append_assoc]
  apply List.prefix_append

/-- No pass before that of its tier collects an extension that stays. -/
theorem Collects.fresh (h : Collects perform s first (done ++ rest))
    (stays : Stays perform s (first ++ (done ++ rest).flatten) e)
    (early : done.length ≤ e.2.precedence.tier.place) :
  e.1 ∉ done.flatten.map Prod.fst
  := by
  intro he
  obtain ⟨⟨m, x⟩, collected, rfl : m = e.1⟩ := List.mem_map.mp he
  obtain ⟨b, hb, hx⟩ := List.mem_flatten.mp collected
  obtain ⟨front, back, rfl⟩ := List.append_of_mem hb
  clear collected
  rw [List.append_assoc, List.cons_append] at h stays
  have filed := h.get?_eq rfl hx
  rw [stays.get?_eq] at filed
  obtain rfl := Option.some.inj filed
  rw [h front b _ rfl] at hx
  have place := admits_iff.mp (mem_batch_iff.mp hx).2.2
  simp only [List.length_append, List.length_cons] at early
  omega

/-- The pass of its tier collects an extension that stays. -/
theorem Collects.exists_place (h : Collects perform s first batches)
    (settled : Settled perform s first batches)
    (stays : Stays perform s (first ++ batches.flatten) e) :
  ∃ done b rest, batches = done ++ b :: rest ∧ done.length = e.2.precedence.tier.place ∧ e ∈ b
  := by
  obtain hk | hk := Nat.lt_or_ge e.2.precedence.tier.place batches.length
  · obtain ⟨done, rest, rfl, place⟩ : ∃ done rest, batches = done ++ rest ∧
        done.length = e.2.precedence.tier.place :=
      ⟨_, _, (List.take_append_drop _ _).symm, List.length_take_of_le (Nat.le_of_lt hk)⟩
    have fresh := h.fresh stays (Nat.le_of_eq place)
    have filed := stays.get?_eq
    cases rest with
    | nil => simp [place] at hk
    | cons b rest =>
      use done, b, rest, rfl, place
      rw [h done b rest rfl]
      apply mem_batch_iff.mpr ⟨filed, fresh, admits_iff.mpr (Nat.le_of_eq place.symm)⟩
  · rw [← List.append_nil batches] at h stays
    have left : (e.1, e.2) ∈ batch (found perform s (first ++ batches.flatten))
        (batches.flatten.map Prod.fst) fun _ => true :=
      mem_batch_iff.mpr ⟨stays.get?_eq, h.fresh stays hk, rfl⟩
    rw [settled] at left
    cases left

/-- Of two extensions of one tier that a pass collects, the one that is ahead runs first. -/
theorem sublist_batch {b : Blueprint κ ε} {processed : List Name} {allowed : Tier → Bool}
    (tier : e.2.precedence.tier = e'.2.precedence.tier) (he : e ∈ batch b processed allowed)
    (he' : e' ∈ batch b processed allowed)
    (ahead : Ahead (·.2.precedence) b.registryExtensions.entries e e') :
  [e, e'].Sublist (batch b processed allowed)
  := by
  have he := (sortBy_perm _ _).mem_iff.mp he
  have he' := (sortBy_perm _ _).mem_iff.mp he'
  exact (ahead.filter (List.mem_filter.mp he).2 (List.mem_filter.mp he').2).sublist_sortBy tier he he'

/-- An extension that is ahead of another one at the start stays so, if both stay. -/
theorem Modest.ahead_found (modest : Modest may perform)
    (stays : Stays perform s (first ++ (done ++ rest).flatten) e)
    (stays' : Stays perform s (first ++ (done ++ rest).flatten) e')
    (ahead : Ahead (·.2.precedence) s.1.registryExtensions.entries e e') :
  Ahead (·.2.precedence) (found perform s (first ++ done.flatten)).registryExtensions.entries e e'
  := by
  obtain precedes | ⟨alike, front⟩ := ahead
  · left
    exact precedes
  · right
    use alike
    apply Catalog.pair_sublist_entries _ stays.get?_eq stays'.get?_eq
    apply List.Sublist.trans (front.map Prod.fst)
    apply modest.names_found_sublist (s := s) [] (first ++ done.flatten)

/-- Of two items of a list, the one that has less in front of it is in front of the other one. -/
theorem mem_front {done' rest' : List α} {done rest : List α} {b b' : α}
    (same : done ++ b :: rest = done' ++ b' :: rest') (lt : done.length < done'.length) :
  b ∈ done'
  := by
  have at_done : (done ++ b :: rest)[done.length]? = some b := by simp
  rw [same, List.getElem?_append_left lt] at at_done
  apply List.mem_of_getElem? at_done

/-- Of two extensions that stay, the one that is ahead runs first. -/
theorem Collects.sublist_of_ahead (h : Collects perform s first batches)
    (settled : Settled perform s first batches) (modest : Modest may perform)
    (stays : Stays perform s (first ++ batches.flatten) e)
    (stays' : Stays perform s (first ++ batches.flatten) e')
    (ahead : Ahead (·.2.precedence) s.1.registryExtensions.entries e e') :
  [e, e'].Sublist batches.flatten
  := by
  obtain ⟨done, b, rest, hb, place, he⟩ := h.exists_place settled stays
  obtain ⟨done', b', rest', hb', place', he'⟩ := h.exists_place settled stays'
  obtain earlier | tier := ahead.tier
  · -- the batch of the first one comes before that of the other one
    have before : b ∈ done' := by
      apply mem_front (hb.symm.trans hb')
      rw [place, place']
      exact earlier
    have front : [e].Sublist done'.flatten :=
      List.singleton_sublist.mpr (List.mem_flatten.mpr ⟨b, before, he⟩)
    have back : [e'].Sublist (b' ++ rest'.flatten) :=
      List.singleton_sublist.mpr (List.mem_append_left _ he')
    rw [hb', List.flatten_append, List.flatten_cons]
    exact front.append back
  · -- they are in one batch, which is sorted
    have same : done.length = done'.length := by
      rw [place, place']
      exact congrArg Tier.place tier
    obtain ⟨rfl, hrest⟩ := List.append_inj (hb.symm.trans hb') same
    obtain ⟨rfl, -⟩ := List.cons_eq_cons.mp hrest
    have sorted : [e, e'].Sublist b := by
      subst hb
      rw [h done b rest rfl] at he he' ⊢
      apply sublist_batch tier he he' (modest.ahead_found stays stays' ahead)
    rw [hb, List.flatten_append, List.flatten_cons]
    apply sorted.trans
    apply List.Sublist.trans (List.sublist_append_left _ _) (List.sublist_append_right _ _)

/-! ### Extensions that are filed by others -/

/-- An item of two lists, one after the other, is in the second one or has all of that one behind
it. -/
theorem of_append_eq {xs ys before after : List α} {a : α} (h : xs ++ ys = before ++ a :: after) :
  (∃ front, before = xs ++ front ∧ ys = front ++ a :: after) ∨ ∃ back, after = back ++ ys
  := by
  obtain ⟨front, hb, hf⟩ | ⟨back, hb, hf⟩ := List.append_eq_append_iff.mp h
  · left
    use front, hb, hf
  · cases back with
    | nil =>
      left
      use []
      rw [hb, List.append_nil, List.append_nil]
      use rfl, hf.symm
    | cons c back =>
      right
      use back, (List.cons_eq_cons.mp hf).2

/-- What is collected is filed when it runs. -/
theorem Collects.mem_names (h : Collects perform s first batches) (modest : Modest may perform)
    {before after : List (Name × RegistryExtension ε)} (split : batches.flatten = before ++ e :: after) :
  e.1 ∈ (found perform s (first ++ before)).registryExtensions.names
  := by
  have placed : ∃ done b rest, batches = done ++ b :: rest ∧ e ∈ b ∧
      ∃ part, before = done.flatten ++ part := by
    obtain ⟨done, rest, rfl, rfl, hrest⟩ | ⟨done, part, e', part', rest, rfl, rfl, hrest⟩ :=
      List.flatten_eq_append_iff.mp split
    · obtain ⟨empty, part, rest, rfl, nil, -⟩ := List.flatten_eq_cons_iff.mp hrest.symm
      use done ++ empty, e :: part, rest
      have none : empty.flatten = [] := List.flatten_eq_nil_iff.mpr nil
      simp [none]
    · obtain ⟨rfl, -⟩ := List.cons_eq_cons.mp hrest
      use done, part ++ e :: part', rest
      simp
  obtain ⟨done, b, rest, hb, he, part, rfl⟩ := placed
  rw [← List.append_assoc]
  apply (modest.names_found_sublist _ part).subset
  apply Catalog.mem_names_iff.mpr ⟨e.2, h.get?_eq hb he⟩

/-- What an extension files under a new name runs later. -/
theorem Collects.later (h : Collects perform s first batches)
    (settled : Settled perform s first batches) (modest : Modest may perform)
    {before after : List (Name × RegistryExtension ε)}
    (split : first ++ batches.flatten = before ++ e :: after)
    (absent : n ∉ (found perform s before).registryExtensions.names)
    (filed : n ∈ (found perform s (before ++ [e])).registryExtensions.names) :
  ∃ later, later <:+ after ∧ later <:+ batches.flatten ∧ n ∈ later.map Prod.fst
  := by
  have discovered : n ∈ batches.flatten.map Prod.fst := by
    apply (h.names_perm settled modest).subset
    have kept := modest.names_found_sublist (s := s) (before ++ [e]) after
    rw [List.append_assoc, List.singleton_append, ← split] at kept
    apply kept.subset filed
  obtain ⟨front, rfl, hbatches⟩ | ⟨back, rfl⟩ := of_append_eq split
  · use after, List.suffix_refl _
    constructor
    · rw [hbatches, ← List.singleton_append, ← List.append_assoc]
      apply List.suffix_append
    · -- what runs up to this extension was there when this extension began
      rw [hbatches, List.map_append, List.map_cons, List.mem_append, List.mem_cons] at discovered
      obtain hn | rfl | hn := discovered
      · obtain ⟨⟨n, x⟩, hx, rfl⟩ := List.mem_map.mp hn
        obtain ⟨front, between, rfl⟩ := List.append_of_mem hx
        rw [List.append_assoc, List.cons_append] at hbatches
        have before := h.mem_names modest hbatches
        rw [← List.append_assoc] at absent
        exact absurd ((modest.names_found_sublist _ _).subset before) absent
      · exact absurd (h.mem_names modest hbatches) absent
      · exact hn
  · use batches.flatten, List.suffix_append _ _, List.suffix_refl _

/-! ### The order of a bootstrapping -/

/-- A bootstrapping has kept to the ranks of extensions: those that were discovered, and the
definition extensions `last`. -/
structure Ranked (perform : ε → Draft κ ε σ Unit) (supplied : List (Presupplied ε))
    (s s' : Blueprint κ ε × σ) (report : Report) (discovered : List (Name × RegistryExtension ε))
    (last : List (Name × DefinitionExtension ε)) : Prop where
  /-- These turns are taken, and no others. -/
  taken : Yields (takeAll perform (Turn.all (Presupplied.registryOnes supplied ++ discovered)
    (Presupplied.definitionOnes supplied ++ last))) s () s'
  /-- The report has the names in the order of the turns. -/
  report : report = ⟨(Presupplied.registryOnes supplied ++ discovered).map Prod.fst,
    (Presupplied.definitionOnes supplied ++ last).map Prod.fst⟩
  /-- Nothing is discovered twice under one name. -/
  nodup : (discovered.map Prod.fst).Nodup
  /-- Of two extensions that stay as they are from the start on, the one that is ahead by tier,
  order value and place runs first. -/
  earlier : ∀ e e', Stays perform s (Presupplied.registryOnes supplied ++ discovered) e →
    Stays perform s (Presupplied.registryOnes supplied ++ discovered) e' →
    Ahead (·.2.precedence) s.1.registryExtensions.entries e e' → [e, e'].Sublist discovered
  /-- What an extension files under a new name is discovered, and runs after that extension. -/
  later : ∀ before e after n, Presupplied.registryOnes supplied ++ discovered = before ++ e :: after →
    n ∉ (found perform s before).registryExtensions.names →
    n ∈ (found perform s (before ++ [e])).registryExtensions.names →
    ∃ later, later <:+ after ∧ later <:+ discovered ∧ n ∈ later.map Prod.fst
  /-- Behind the supplied definition extensions comes each that is filed when those have finished,
  once. -/
  complete : last.Perm (after perform s (Turn.all (Presupplied.registryOnes supplied ++ discovered)
    (Presupplied.definitionOnes supplied))).1.definitionExtensions.entries
  /-- These definition extensions come in their order by tier, order value and place. -/
  sorted : last.Pairwise (Ahead (·.2.precedence) (after perform s
    (Turn.all (Presupplied.registryOnes supplied ++ discovered)
      (Presupplied.definitionOnes supplied))).1.definitionExtensions.entries)

/-- A bootstrapping that yields a report has kept to the ranks of extensions, if callbacks file
finitely many names only. -/
theorem Modest.exists_ranked (modest : Modest may perform) {limit : Nat}
    {supplied : List (Presupplied ε)} {report : Report}
    (h : Yields (run perform limit supplied) s report s') :
  ∃ discovered last, Ranked perform supplied s s' report discovered last
  := by
  obtain ⟨batches, last, schedule, taken, report⟩ := of_run h
  use batches.flatten, last
  constructor
  case taken => apply taken
  case report => apply report
  case nodup => apply schedule.collects.nodup
  case earlier =>
    intro e e' stays stays' ahead
    apply schedule.collects.sublist_of_ahead schedule.settled modest stays stays' ahead
  case later =>
    intro before e after n split absent filed
    apply schedule.collects.later schedule.settled modest split absent filed
  case complete =>
    rw [schedule.last]
    apply tiers_perm
  case sorted =>
    rw [schedule.last]
    apply pairwise_tiers

end Bootstrap

open Bootstrap in
/-- A bootstrapping that returns has kept to the ranks of extensions, whatever extensions callbacks
have filed meanwhile. -/
theorem extension_order {perform : ε → Draft κ ε σ Unit} (modest : Modest (fun _ => True) perform)
    {o o' : Orchestrator} {limit : Nat} {supplied : List (Presupplied ε)}
    {s s' : Blueprint κ ε × σ} {report : Report}
    (h : o.invoke perform limit supplied s = ((.ok report, s'), o')) :
  ∃ discovered last, Ranked perform supplied s s' report discovered last
  := by
  rw [Orchestrator.invoke] at h
  split at h
  · cases h
  · have run : Yields (run perform limit supplied) s report s' := (Prod.mk.inj h).1
    apply modest.exists_ranked run

/-! ### An extension of the first tier that comes late -/

namespace Bootstrap

/-- All callbacks but one do nothing: that one files an extension of the first tier. -/
def filing : Nat → Draft Unit Nat Unit Unit
  | 0 => return ()
  | _ + 1 => modify fun s => (s.1.addRegistryExtension "late" ⟨.priority 0, none, none⟩, s.2)

/-- Extensions of the three tiers, filed with the last tier in front, and one that revises
definitions. -/
def plan : Blueprint Unit Nat × Unit :=
  (((((Blueprint.fresh 0).addRegistryExtension "loose" ⟨.unordered, some 1, none⟩)
    |>.addRegistryExtension "firm" ⟨.ordered 0, some 0, none⟩)
    |>.addRegistryExtension "urgent" ⟨.priority 0, some 0, none⟩)
    |>.addDefinitionExtension "revision" ⟨.unordered, 0⟩, ())

theorem modest_filing :
  Modest (fun _ => True) filing
  := by
  rintro (_ | k) s
  · apply Blueprint.Revised.refl
  · apply Blueprint.Revised.refl.addRegistryExtension trivial

end Bootstrap

open Bootstrap in
/-- An extension of the first tier that is filed by one of the last tier runs after it. -/
theorem extension_order_late :
  ∃ s' o', Orchestrator.fresh.invoke filing 3 [.definition ⟨.unordered, 0⟩] plan
      = ((.ok ⟨["urgent", "firm", "loose", "late"], ["presupplied#0", "revision"]⟩, s'), o') ∧
    ∃ discovered last, Ranked filing [.definition ⟨.unordered, 0⟩] plan s'
      ⟨["urgent", "firm", "loose", "late"], ["presupplied#0", "revision"]⟩ discovered last
  := by
  have ended : (Orchestrator.fresh.invoke filing 3 [.definition ⟨.unordered, 0⟩] plan).1.1.toOption
      = some ⟨["urgent", "firm", "loose", "late"], ["presupplied#0", "revision"]⟩ := by
    decide +kernel
  rcases run : Orchestrator.fresh.invoke filing 3 [.definition ⟨.unordered, 0⟩] plan with
    ⟨⟨e | report, s'⟩, o'⟩
  · rw [run] at ended
    cases ended
  · rw [run] at ended
    cases ended
    use s', o', rfl
    apply extension_order modest_filing run

end Componentry
