import Componentry.Bootstrap
import Mathlib.Tactic.Common

/-!
# Turns of extensions

All that a bootstrapping does is to call extensions, one after the other.  A `Turn` is one such
call, and `takeAll` takes turns.  The main result, `of_run`, says which turns those of a
bootstrapping are: the passes collect batches of registry extensions, each from the blueprint at
which the turns before it have arrived, and the definition extensions are those of the blueprint
that the supplied ones have left.

`Revised` says what a callback may do with a blueprint.
-/

namespace Componentry

variable {κ ε σ α β : Type}

/-! ### Drafts that come to their end -/

/-- A draft, begun in `s`, returns `a` and leaves `s'`. -/
def Draft.Yields (c : Draft κ ε σ α) (s : Blueprint κ ε × σ) (a : α) (s' : Blueprint κ ε × σ) :
    Prop :=
  c s = (.ok a, s')

namespace Draft

variable {s s' s'' : Blueprint κ ε × σ} {a : α} {b : β}

theorem yields_pure_iff {a' : α} :
  Yields (pure a : Draft κ ε σ α) s a' s' ↔ a = a' ∧ s = s'
  := by
  change (Except.ok a, s) = (.ok a', s') ↔ _
  rw [Prod.mk.injEq, Except.ok.injEq]

theorem yields_get_iff {t : Blueprint κ ε × σ} :
  Yields (get : Draft κ ε σ (Blueprint κ ε × σ)) s t s' ↔ s = t ∧ s = s'
  := by
  change (Except.ok s, s) = (.ok t, s') ↔ _
  rw [Prod.mk.injEq, Except.ok.injEq]

/-- A draft goes on from what its first part yields. -/
theorem bind_of_yields {c : Draft κ ε σ α} (h : Yields c s a s') (k : α → Draft κ ε σ β) :
  (c >>= k) s = k a s'
  := by
  change ExceptT.bindCont k (c s).1 (c s).2 = _
  rw [h]
  rfl

/-- A draft fails with its first part, and leaves what that one leaves. -/
theorem bind_of_error {c : Draft κ ε σ α} {e : Stop} (h : c s = (.error e, s'))
    (k : α → Draft κ ε σ β) :
  (c >>= k) s = (.error e, s')
  := by
  change ExceptT.bindCont k (c s).1 (c s).2 = _
  rw [h]
  rfl

/-- A draft in two parts leaves what the first part leaves, if that fails, and else what the second
one leaves. -/
theorem left_bind {P : Blueprint κ ε × σ → Prop} {c : Draft κ ε σ α} {k : α → Draft κ ε σ β}
    (fails : ∀ e t, c s = (.error e, t) → P t) (goes : ∀ a t, Yields c s a t → P (k a t).2) :
  P ((c >>= k) s).2
  := by
  rcases hc : c s with ⟨e | a, t⟩
  · rw [bind_of_error hc]
    apply fails e t hc
  · rw [bind_of_yields hc]
    apply goes a t hc

/-- A draft in two parts returns exactly if both parts do, one after the other. -/
theorem yields_bind_iff {c : Draft κ ε σ α} {k : α → Draft κ ε σ β} :
  Yields (c >>= k) s b s' ↔ ∃ a t, Yields c s a t ∧ Yields (k a) t b s'
  := by
  constructor
  · intro h
    rcases hc : c s with ⟨e | a, t⟩
    · cases (bind_of_error hc k).symm.trans h
    · use a, t, hc
      apply (bind_of_yields hc k).symm.trans h
  · rintro ⟨a, t, hc, h⟩
    apply (bind_of_yields hc k).trans h

end Draft

open Draft

/-! ### Turns -/

/-- A call of an extension. -/
inductive Turn (ε : Type) where
  /-- A registry extension extends the blueprint. -/
  | extend (name : Name) (x : RegistryExtension ε)
  /-- A registry extension is finalized. -/
  | finalize (name : Name) (x : RegistryExtension ε)
  /-- A definition extension revises the blueprint. -/
  | revise (name : Name) (x : DefinitionExtension ε)

namespace Turn

/-- What is run at a turn, if there is anything. -/
def callback? : Turn ε → Option ε
  | extend _ x => x.extend
  | finalize _ x => x.finalize
  | revise _ x => some x.finalize

/-- The turns at which registry extensions extend the blueprint. -/
def extending (xs : List (Name × RegistryExtension ε)) : List (Turn ε) :=
  xs.map fun e => extend e.1 e.2

/-- The turns at which registry extensions are finalized. -/
def finalizing (xs : List (Name × RegistryExtension ε)) : List (Turn ε) :=
  xs.map fun e => finalize e.1 e.2

/-- The turns of definition extensions. -/
def revising (xs : List (Name × DefinitionExtension ε)) : List (Turn ε) :=
  xs.map fun e => revise e.1 e.2

theorem extending_append (xs ys : List (Name × RegistryExtension ε)) :
  extending (xs ++ ys) = extending xs ++ extending ys
  := List.map_append

/-- All turns, where registry extensions extend the blueprint and then all of them are finalized,
before definition extensions have their turns. -/
def all (registry : List (Name × RegistryExtension ε))
    (definition : List (Name × DefinitionExtension ε)) : List (Turn ε) :=
  extending registry ++ finalizing registry ++ revising definition

theorem all_append (registry : List (Name × RegistryExtension ε))
    (definition definition' : List (Name × DefinitionExtension ε)) :
  all registry (definition ++ definition') = all registry definition ++ revising definition'
  := by
  simp [all, revising]

end Turn

namespace Bootstrap

variable {perform : ε → Draft κ ε σ Unit} {s s' : Blueprint κ ε × σ}

/-- Takes turns, one after the other. -/
def takeAll (perform : ε → Draft κ ε σ Unit) : List (Turn ε) → Draft κ ε σ Unit
  | [] => return ()
  | t :: turns => do
    performing perform t.callback?
    takeAll perform turns

/-- The state at which turns arrive that are taken from a state on. -/
def after (perform : ε → Draft κ ε σ Unit) (s : Blueprint κ ε × σ) (turns : List (Turn ε)) :
    Blueprint κ ε × σ :=
  (takeAll perform turns s).2

/-- Turns that return have arrived where they leave the blueprint. -/
theorem after_eq {turns : List (Turn ε)} (h : Yields (takeAll perform turns) s () s') :
  after perform s turns = s'
  := congrArg Prod.snd h

theorem takeAll_append (perform : ε → Draft κ ε σ Unit) (turns turns' : List (Turn ε)) :
  takeAll perform (turns ++ turns') = takeAll perform turns >>= fun _ => takeAll perform turns'
  := by
  induction turns with
  | nil => rfl
  | cons t turns ih => simp only [List.cons_append, takeAll, ih, bind_assoc]

/-- More turns return exactly if they do so from where the turns before them arrive. -/
theorem yields_takeAll_append_iff {turns turns' : List (Turn ε)} :
  Yields (takeAll perform (turns ++ turns')) s () s' ↔
    ∃ t, Yields (takeAll perform turns) s () t ∧ Yields (takeAll perform turns') t () s'
  := by
  rw [takeAll_append, yields_bind_iff]
  constructor
  · rintro ⟨⟨⟩, t, h⟩
    use t
  · rintro ⟨t, h⟩
    use (), t

theorem extendAll_eq (perform : ε → Draft κ ε σ Unit) (xs : List (Name × RegistryExtension ε)) :
  extendAll perform xs = takeAll perform (Turn.extending xs)
  := by
  induction xs with
  | nil => rfl
  | cons e xs ih =>
    rw [extendAll, ih]
    rfl

theorem finalizeAll_eq (perform : ε → Draft κ ε σ Unit) (xs : List (Name × RegistryExtension ε)) :
  finalizeAll perform xs = takeAll perform (Turn.finalizing xs)
  := by
  induction xs with
  | nil => rfl
  | cons e xs ih =>
    rw [finalizeAll, ih]
    rfl

theorem reviseAll_eq (perform : ε → Draft κ ε σ Unit) (xs : List (Name × DefinitionExtension ε)) :
  reviseAll perform xs = takeAll perform (Turn.revising xs)
  := by
  induction xs with
  | nil => rfl
  | cons e xs ih =>
    rw [reviseAll, ih]
    rfl

/-! ### The schedule of a bootstrapping -/

/-- The tiers from which a pass takes registry extensions, by the number of passes before it. -/
def admits : Nat → Tier → Bool
  | 0, t => t = .priority
  | 1, t => t ≠ .unordered
  | _, _ => true

theorem admits_of_le {k : Nat} (h : 2 ≤ k) :
  admits k = fun _ => true
  := by
  obtain ⟨j, rfl⟩ := Nat.exists_eq_add_of_le' h
  rfl

/-- The blueprint that a pass finds when the extensions `xs` have extended the one before. -/
def found (perform : ε → Draft κ ε σ Unit) (s : Blueprint κ ε × σ)
    (xs : List (Name × RegistryExtension ε)) : Blueprint κ ε :=
  (after perform s (Turn.extending xs)).1

/-- Passes collect these batches, one after the other, when `first` has run before. -/
def Collects (perform : ε → Draft κ ε σ Unit) (s : Blueprint κ ε × σ)
    (first : List (Name × RegistryExtension ε))
    (batches : List (List (Name × RegistryExtension ε))) : Prop :=
  ∀ done b rest, batches = done ++ b :: rest →
    b = batch (found perform s (first ++ done.flatten)) (done.flatten.map Prod.fst)
      (admits done.length)

/-- Nothing is left for a pass to collect. -/
def Settled (perform : ε → Draft κ ε σ Unit) (s : Blueprint κ ε × σ)
    (first : List (Name × RegistryExtension ε))
    (batches : List (List (Name × RegistryExtension ε))) : Prop :=
  batch (found perform s (first ++ batches.flatten)) (batches.flatten.map Prod.fst)
    (fun _ => true) = []

/-- The extensions that a bootstrapping discovers: the registry extensions in batches, and the
definition extensions `last` that come after the supplied ones. -/
structure Schedule (perform : ε → Draft κ ε σ Unit) (supplied : List (Presupplied ε))
    (s : Blueprint κ ε × σ) (batches : List (List (Name × RegistryExtension ε)))
    (last : List (Name × DefinitionExtension ε)) : Prop where
  /-- There are passes for the first two tiers, and then those for all. -/
  passes : 2 ≤ batches.length
  /-- Each pass collects its batch when those before it have run. -/
  collects : Collects perform s (Presupplied.registryOnes supplied) batches
  /-- The passes stop when there is nothing left. -/
  settled : Settled perform s (Presupplied.registryOnes supplied) batches
  /-- The definition extensions are collected when the supplied ones have had their turns. -/
  last : last = definitionOrder (after perform s
    (Turn.all (Presupplied.registryOnes supplied ++ batches.flatten)
      (Presupplied.definitionOnes supplied))).1

/-! ### Passes -/

section Passes

variable {first : List (Name × RegistryExtension ε)}
  {batches : List (List (Name × RegistryExtension ε))} {p p' : Progress ε}
  {t t' : Blueprint κ ε × σ}

/-- Passes have collected the batches, which have run. -/
structure Reached (perform : ε → Draft κ ε σ Unit) (s : Blueprint κ ε × σ)
    (first : List (Name × RegistryExtension ε))
    (batches : List (List (Name × RegistryExtension ε))) (p : Progress ε)
    (t : Blueprint κ ε × σ) : Prop where
  collects : Collects perform s first batches
  progress : p = ⟨batches.flatten.map Prod.fst, first ++ batches.flatten⟩
  taken : Yields (takeAll perform (Turn.extending (first ++ batches.flatten))) s () t

/-- The next pass finds the blueprint that the batches have left. -/
theorem Reached.found_eq (h : Reached perform s first batches p t) :
  found perform s (first ++ batches.flatten) = t.1
  := congrArg Prod.fst (after_eq h.taken)

/-- Before the first pass only the supplied extensions have run. -/
theorem reached_nil (h : Yields (extendAll perform first) s () t) :
  Reached perform s first [] ⟨[], first⟩ t
  := by
  constructor
  · intro done b rest h
    cases done <;> cases h
  · simp
  · rw [List.flatten_nil, List.append_nil, ← extendAll_eq]
    apply h

/-- The progress after a pass that has collected `xs`. -/
def Progress.with (p : Progress ε) (xs : List (Name × RegistryExtension ε)) : Progress ε :=
  ⟨p.processed ++ xs.map Prod.fst, p.ran ++ xs⟩

/-- A pass that has nothing to collect leaves everything as it is. -/
theorem pass?_yields_none_iff {allowed : Tier → Bool} :
  Yields (pass? perform allowed p) t none t' ↔ batch t.1 p.processed allowed = [] ∧ t = t'
  := by
  simp only [pass?, yields_bind_iff, yields_get_iff]
  constructor
  · rintro ⟨_, _, ⟨rfl, rfl⟩, h⟩
    split at h
    · rename_i empty
      obtain ⟨-, rfl⟩ := yields_pure_iff.mp h
      use List.isEmpty_iff.mp empty
    · obtain ⟨_, _, -, h⟩ := yields_bind_iff.mp h
      cases (yields_pure_iff.mp h).1
  · rintro ⟨empty, rfl⟩
    refine ⟨t, t, ⟨rfl, rfl⟩, ?_⟩
    rw [if_pos (List.isEmpty_iff.mpr empty)]
    apply yields_pure_iff.mpr ⟨rfl, rfl⟩

/-- A pass that finds something runs it, and has processed it then. -/
theorem pass?_yields_some_iff {allowed : Tier → Bool} :
  Yields (pass? perform allowed p) t (some p') t' ↔
    batch t.1 p.processed allowed ≠ [] ∧ p' = p.with (batch t.1 p.processed allowed) ∧
      Yields (extendAll perform (batch t.1 p.processed allowed)) t () t'
  := by
  simp only [pass?, yields_bind_iff, yields_get_iff]
  constructor
  · rintro ⟨_, _, ⟨rfl, rfl⟩, h⟩
    split at h
    · cases (yields_pure_iff.mp h).1
    · rename_i some
      obtain ⟨_, _, run, h⟩ := yields_bind_iff.mp h
      obtain ⟨hp, rfl⟩ := yields_pure_iff.mp h
      use fun empty => some (List.isEmpty_iff.mpr empty), (Option.some.inj hp).symm
  · rintro ⟨some, rfl, run⟩
    refine ⟨t, t, ⟨rfl, rfl⟩, ?_⟩
    rw [if_neg fun empty => some (List.isEmpty_iff.mp empty)]
    apply yields_bind_iff.mpr
    refine ⟨(), t', run, ?_⟩
    apply yields_pure_iff.mpr ⟨rfl, rfl⟩

/-- A pass runs the batch that it collects, be it empty or not. -/
theorem pass_yields_iff {allowed : Tier → Bool} :
  Yields (pass perform allowed p) t p' t' ↔
    p' = p.with (batch t.1 p.processed allowed) ∧
      Yields (extendAll perform (batch t.1 p.processed allowed)) t () t'
  := by
  simp only [pass, yields_bind_iff, yields_pure_iff]
  constructor
  · rintro ⟨none | p', _, h, rfl, rfl⟩
    · obtain ⟨empty, rfl⟩ := pass?_yields_none_iff.mp h
      rw [empty]
      refine ⟨?_, yields_pure_iff.mpr ⟨rfl, rfl⟩⟩
      simp [Progress.with]
    · apply (pass?_yields_some_iff.mp h).2
  · rintro ⟨rfl, run⟩
    by_cases empty : batch t.1 p.processed allowed = []
    · rw [empty] at run ⊢
      obtain ⟨-, rfl⟩ := yields_pure_iff.mp run
      refine ⟨none, t, pass?_yields_none_iff.mpr ⟨empty, rfl⟩, ?_, rfl⟩
      simp [Progress.with]
    · use some (p.with (batch t.1 p.processed allowed)), t'
      refine ⟨pass?_yields_some_iff.mpr ⟨empty, rfl, run⟩, rfl, rfl⟩

/-- A pass adds a batch to those that were collected before. -/
theorem Reached.concat (h : Reached perform s first batches p t)
    (hp : Yields (pass perform (admits batches.length) p) t p' t') :
  ∃ b, Reached perform s first (batches ++ [b]) p' t'
  := by
  obtain ⟨rfl, run⟩ := pass_yields_iff.mp hp
  have progress := h.progress
  subst progress
  use batch t.1 (batches.flatten.map Prod.fst) (admits batches.length)
  constructor
  · intro done b rest hb
    obtain rfl | ⟨rest, last, rfl⟩ := List.eq_nil_or_concat rest
    · obtain ⟨rfl, last⟩ := List.append_inj' hb rfl
      rw [h.found_eq]
      apply (List.singleton_inj.mp last).symm
    · rw [List.concat_eq_append, ← List.cons_append, ← List.append_assoc] at hb
      apply h.collects done b rest
      apply (List.append_inj' hb rfl).1
  · simp [Progress.with]
  · rw [List.flatten_append, ← List.append_assoc, Turn.extending_append]
    apply yields_takeAll_append_iff.mpr
    use t, h.taken
    rw [List.flatten_singleton, ← extendAll_eq]
    apply run

/-- The passes over all tiers add batches until nothing is left. -/
theorem Reached.discovered (h : Reached perform s first batches p t) (two : 2 ≤ batches.length)
    {limit : Nat} (hd : Yields (discover perform limit p) t p' t') :
  ∃ more, Reached perform s first (batches ++ more) p' t' ∧
    Settled perform s first (batches ++ more)
  := by
  induction limit generalizing batches p t with
  | zero => cases hd
  | succ limit ih =>
    obtain ⟨o, u, ho, hd⟩ := yields_bind_iff.mp hd
    cases o with
    | none =>
      obtain ⟨empty, rfl⟩ := pass?_yields_none_iff.mp ho
      obtain ⟨rfl, rfl⟩ := yields_pure_iff.mp hd
      use []
      rw [List.append_nil]
      use h
      rw [Settled, h.found_eq]
      rw [h.progress] at empty
      apply empty
    | some q =>
      have hq : Yields (pass perform (admits batches.length) p) t q u := by
        rw [admits_of_le two]
        apply pass_yields_iff.mpr (pass?_yields_some_iff.mp ho).2
      obtain ⟨b, reached⟩ := h.concat hq
      have longer : 2 ≤ (batches ++ [b]).length := by
        apply Nat.le_trans two
        simp
      obtain ⟨more, reached⟩ := ih reached longer hd
      use b :: more
      rw [← List.singleton_append, ← List.append_assoc]
      apply reached

end Passes

/-! ### The whole -/

/-- A bootstrapping up to the passes over all tiers. -/
def opening (perform : ε → Draft κ ε σ Unit) (supplied : List (Presupplied ε)) :
    Draft κ ε σ (Progress ε) := do
  extendAll perform (Presupplied.registryOnes supplied)
  let p ← pass perform (admits 0) ⟨[], Presupplied.registryOnes supplied⟩
  pass perform (admits 1) p

/-- A bootstrapping after the passes over all tiers. -/
def closing (perform : ε → Draft κ ε σ Unit) (supplied : List (Presupplied ε)) (p : Progress ε) :
    Draft κ ε σ Report := do
  finalizeAll perform p.ran
  reviseAll perform (Presupplied.definitionOnes supplied)
  let (b, _) ← get
  reviseAll perform (definitionOrder b)
  return ⟨p.ran.map Prod.fst, (Presupplied.definitionOnes supplied ++ definitionOrder b).map Prod.fst⟩

/-- A bootstrapping opens, discovers what there is, and closes. -/
theorem run_eq (perform : ε → Draft κ ε σ Unit) (limit : Nat) (supplied : List (Presupplied ε)) :
  run perform limit supplied
    = opening perform supplied >>= fun p => discover perform limit p >>= closing perform supplied
  := by
  simp only [run, opening, bind_assoc]
  rfl

/-- Two passes, of the first tier and of the first two, come before those over all tiers. -/
theorem opening_yields {perform : ε → Draft κ ε σ Unit} {supplied : List (Presupplied ε)}
    {p : Progress ε} (h : Yields (opening perform supplied) s p s') :
  ∃ batches, batches.length = 2 ∧
    Reached perform s (Presupplied.registryOnes supplied) batches p s'
  := by
  obtain ⟨⟨⟩, t, begun, h⟩ := yields_bind_iff.mp h
  obtain ⟨q, u, one, two⟩ := yields_bind_iff.mp h
  obtain ⟨b, reached⟩ := (reached_nil begun).concat one
  obtain ⟨b', reached⟩ := reached.concat two
  use [] ++ [b] ++ [b'], rfl

/-- At the end all registry extensions are finalized and the supplied definition extensions run, and
then those that the blueprint has come to hold. -/
theorem closing_yields_iff {p : Progress ε} {supplied : List (Presupplied ε)} {report : Report} :
  Yields (closing perform supplied p) s report s' ↔
    ∃ t, Yields (takeAll perform (Turn.finalizing p.ran
          ++ Turn.revising (Presupplied.definitionOnes supplied))) s () t ∧
      Yields (takeAll perform (Turn.revising (definitionOrder t.1))) t () s' ∧
      report = ⟨p.ran.map Prod.fst,
        (Presupplied.definitionOnes supplied ++ definitionOrder t.1).map Prod.fst⟩
  := by
  simp only [closing, yields_bind_iff, yields_get_iff, yields_takeAll_append_iff, finalizeAll_eq,
    reviseAll_eq]
  constructor
  · rintro ⟨⟨⟩, t, h, ⟨⟩, u, h', _, _, ⟨rfl, rfl⟩, ⟨⟩, v, h'', last⟩
    obtain ⟨rfl, rfl⟩ := yields_pure_iff.mp last
    use u, ⟨t, h, h'⟩, h''
  · rintro ⟨u, ⟨t, h, h'⟩, h'', rfl⟩
    refine ⟨(), t, h, (), u, h', u, u, ⟨rfl, rfl⟩, (), s', h'', yields_pure_iff.mpr ⟨rfl, rfl⟩⟩

/-- A bootstrapping that returns has taken the turns of its schedule, and reports them. -/
theorem of_run {limit : Nat} {supplied : List (Presupplied ε)} {report : Report}
    (h : Yields (run perform limit supplied) s report s') :
  ∃ batches last, Schedule perform supplied s batches last ∧
    Yields (takeAll perform (Turn.all (Presupplied.registryOnes supplied ++ batches.flatten)
      (Presupplied.definitionOnes supplied ++ last))) s () s' ∧
    report = ⟨(Presupplied.registryOnes supplied ++ batches.flatten).map Prod.fst,
      (Presupplied.definitionOnes supplied ++ last).map Prod.fst⟩
  := by
  rw [run_eq] at h
  obtain ⟨p, t, opened, h⟩ := yields_bind_iff.mp h
  obtain ⟨q, u, discovered, h⟩ := yields_bind_iff.mp h
  obtain ⟨opening, two, reached⟩ := opening_yields opened
  obtain ⟨more, reached, settled⟩ := reached.discovered (Nat.le_of_eq two.symm) discovered
  have progress := reached.progress
  subst progress
  obtain ⟨v, finalized, revised, rfl⟩ := closing_yields_iff.mp h
  have taken : Yields (takeAll perform (Turn.all (Presupplied.registryOnes supplied
      ++ (opening ++ more).flatten) (Presupplied.definitionOnes supplied))) s () v := by
    rw [Turn.all, List.append_assoc]
    apply yields_takeAll_append_iff.mpr ⟨u, reached.taken, finalized⟩
  use opening ++ more, definitionOrder v.1
  refine ⟨⟨?_, reached.collects, settled, ?_⟩, ?_, rfl⟩
  · rw [List.length_append, two]
    apply Nat.le_add_right
  · rw [after_eq taken]
  · rw [Turn.all_append]
    apply yields_takeAll_append_iff.mpr ⟨v, taken, revised⟩

end Bootstrap

/-! ### What callbacks may do -/

/-- A blueprint becomes another one by what it offers to callbacks, where registry extensions are
filed under names for which `may` holds. -/
inductive Blueprint.Revised (may : Name → Prop) (b : Blueprint κ ε) : Blueprint κ ε → Prop
  | refl : Revised may b b
  | define {b' : Blueprint κ ε} (h : Revised may b b') (d : Definition κ) :
      Revised may b (b'.define d)
  | undefine {b' : Blueprint κ ε} (h : Revised may b b') (n : Name) :
      Revised may b (b'.undefine n)
  | addRegistryExtension {b' : Blueprint κ ε} (h : Revised may b b') {n : Name} (hn : may n)
      (x : RegistryExtension ε) : Revised may b (b'.addRegistryExtension n x)
  | addDefinitionExtension {b' : Blueprint κ ε} (h : Revised may b b') (n : Name)
      (x : DefinitionExtension ε) : Revised may b (b'.addDefinitionExtension n x)
  | addInterceptor {b' : Blueprint κ ε} (h : Revised may b b') (n : Name) (ic : Interceptor κ) :
      Revised may b (b'.addInterceptor n ic)

namespace Blueprint

variable {may : Name → Prop} {b b' b'' : Blueprint κ ε} {n : Name}

theorem Revised.trans (h : b.Revised may b') (h' : b'.Revised may b'') :
  b.Revised may b''
  := by
  induction h' with
  | refl => apply h
  | define _ d ih => apply ih.define
  | undefine _ n ih => apply ih.undefine
  | addRegistryExtension _ hn x ih => apply ih.addRegistryExtension hn
  | addDefinitionExtension _ n x ih => apply ih.addDefinitionExtension
  | addInterceptor _ n ic ih => apply ih.addInterceptor

/-- Registry extensions are not lost, and keep their places among each other. -/
theorem Revised.names_sublist (h : b.Revised may b') :
  b.registryExtensions.names.Sublist b'.registryExtensions.names
  := by
  induction h with
  | refl => apply List.Sublist.refl
  | define _ _ ih | undefine _ _ ih | addDefinitionExtension _ _ _ ih
  | addInterceptor _ _ _ ih => apply ih
  | @addRegistryExtension b' _ n _ x ih =>
    apply ih.trans
    rw [Blueprint.addRegistryExtension, Catalog.names_insert]
    split
    · apply List.Sublist.refl
    · apply List.sublist_append_left

/-- New registry extensions are filed under names that are allowed. -/
theorem Revised.mem_names (h : b.Revised may b') (hn : n ∈ b'.registryExtensions.names) :
  n ∈ b.registryExtensions.names ∨ may n
  := by
  induction h with
  | refl => exact .inl hn
  | define _ _ ih | undefine _ _ ih | addDefinitionExtension _ _ _ ih
  | addInterceptor _ _ _ ih => apply ih hn
  | @addRegistryExtension b' _ m hm x ih =>
    rw [Blueprint.addRegistryExtension, Catalog.names_insert] at hn
    split at hn
    · apply ih hn
    · obtain hn | hn := List.mem_append.mp hn
      · apply ih hn
      · rw [List.mem_singleton.mp hn]
        right
        apply hm

end Blueprint

/-- Callbacks revise a blueprint by what it offers, and file registry extensions under names for
which `may` holds. -/
def Bootstrap.Modest (may : Name → Prop) (perform : ε → Draft κ ε σ Unit) : Prop :=
  ∀ k (s : Blueprint κ ε × σ), s.1.Revised may (perform k s).2.1

namespace Bootstrap

variable {may : Name → Prop} {perform : ε → Draft κ ε σ Unit}

/-- Turns revise a blueprint by what it offers, also where one of them fails. -/
theorem Modest.revised_takeAll (h : Modest may perform) (turns : List (Turn ε))
    (s : Blueprint κ ε × σ) :
  s.1.Revised may (after perform s turns).1
  := by
  have turn : ∀ (k? : Option ε) (s : Blueprint κ ε × σ),
      s.1.Revised may (performing perform k? s).2.1 := by
    rintro (_ | k) s
    · apply Blueprint.Revised.refl
    · apply h k s
  induction turns generalizing s with
  | nil => apply Blueprint.Revised.refl
  | cons t turns ih =>
    apply left_bind (P := fun t => s.1.Revised may t.1)
    · intro e u hu
      have first := turn t.callback? s
      rw [hu] at first
      apply first
    · rintro ⟨⟩ u hu
      have first := turn t.callback? s
      rw [hu] at first
      apply first.trans (ih u)

/-- As more turns are taken, a blueprint is revised further. -/
theorem Modest.revised_after (h : Modest may perform) (s : Blueprint κ ε × σ)
    (turns turns' : List (Turn ε)) :
  (after perform s turns).1.Revised may (after perform s (turns ++ turns')).1
  := by
  rw [after, after, takeAll_append]
  apply left_bind (P := fun t => (takeAll perform turns s).2.1.Revised may t.1)
  · intro e t ht
    rw [ht]
    apply Blueprint.Revised.refl
  · rintro ⟨⟩ t ht
    rw [ht]
    apply h.revised_takeAll

end Bootstrap
end Componentry
