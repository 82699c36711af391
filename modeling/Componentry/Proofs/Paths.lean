import Componentry.Links
import Mathlib.Logic.Relation

/-!
# Paths of links

The search for links that lead from one name to another finds them exactly if there is a path.  It
strikes the links of each name from which it goes on, which does no harm: a path that comes through
that name has a last stretch that begins there and does not come back.
-/

namespace Componentry

open Relation

namespace Links

variable {l : Links} {a b c target : Name} {pending : List Name}

/-- A path is a chain of links, which is followed here from its end to its beginning. -/
theorem path_iff_transGen :
  l.Path a b ↔ TransGen (fun x y => l.has y x = true) b a
  := by
  constructor
  · intro p
    induction p with
    | single h => exact .single h
    | cons h _ ih => exact ih.tail h
  · intro p
    induction p with
    | single h => apply Path.single h
    | tail _ h ih => apply Path.cons h ih

/-- A path that does without the links of a name is a path. -/
theorem Path.of_detach (p : (l.detach a).Path b c) :
  l.Path b c
  := by
  induction p with
  | single h => apply Path.single ((has_detach _ _ _ _).mp h).2
  | cons h _ ih => apply Path.cons ((has_detach _ _ _ _).mp h).2 ih

/-- A path does without the links of a name, or has a last stretch that begins with one of them. -/
theorem Path.detach_or (p : l.Path b c) (a : Name) :
  (l.detach a).Path b c ∨ ∃ d, l.has a d = true ∧ (d = c ∨ (l.detach a).Path d c)
  := by
  induction p with
  | @single b c h =>
    by_cases hb : b = a
    · subst hb
      right
      use c, h
      left
      rfl
    · left
      apply Path.single ((has_detach _ _ _ _).mpr ⟨hb, h⟩)
  | @cons b d c h _ ih =>
    rcases ih with ih | ih
    · by_cases hb : b = a
      · subst hb
        right
        use d, h
        right
        apply ih
      · left
        apply Path.cons ((has_detach _ _ _ _).mpr ⟨hb, h⟩) ih
    · right
      apply ih

/-- A path begins with a link. -/
theorem Path.start (p : l.Path a b) :
  ∃ c, l.has a c = true
  := by
  cases p with
  | single h => exact ⟨_, h⟩
  | cons h _ => exact ⟨_, h⟩

/-- If the links of a name are struck and the search goes on from their ends, no path is lost. -/
theorem exists_path_detach_iff (hc : l.has a target ≠ true) :
  (∃ b ∈ (l.row a).toList ++ pending, (l.detach a).Path b target) ↔
    ∃ b ∈ a :: pending, l.Path b target
  := by
  constructor
  · rintro ⟨b, hb, p⟩
    rcases List.mem_append.mp hb with hb | hb
    · use a, List.mem_cons_self
      have link : l.has a b = true := Roster.contains_iff.mpr hb
      apply Path.cons link p.of_detach
    · use b, List.mem_cons_of_mem a hb
      apply p.of_detach
  · rintro ⟨b, hb, p⟩
    rcases p.detach_or a with p | ⟨d, hd, rfl | p⟩
    · rcases List.mem_cons.mp hb with rfl | hb
      · obtain ⟨d, hd⟩ := p.start
        apply absurd rfl ((has_detach _ _ _ _).mp hd).1
      · use b, List.mem_append_right _ hb
    · apply absurd hd hc
    · use d, List.mem_append_left _ (Roster.contains_iff.mp hd)

/-- The search comes to the right answer. -/
theorem reachesFrom_iff :
  reachesFrom target l pending = true ↔ ∃ a ∈ pending, l.Path a target
  := by
  fun_induction reachesFrom target l pending with
  | case1 => simp
  | case2 l a pending hrow ih =>
    have deserted : ¬ l.Path a target := by
      intro p
      obtain ⟨d, hd⟩ := p.start
      rw [has, row, hrow] at hd
      cases hd
    rw [ih]
    simp [deserted]
  | case3 l a pending ends hrow ih =>
    have row : l.row a = ends := by
      rw [Links.row, hrow]
      rfl
    rw [Bool.or_eq_true, ih, ← row]
    by_cases found : l.has a target = true
    · apply iff_of_true (.inl found)
      use a, List.mem_cons_self, Path.single found
    · rw [← exists_path_detach_iff found]
      apply or_iff_right found

/-- One name reaches another if and only if there is a path. -/
theorem reaches_iff :
  l.reaches a b = true ↔ l.Path a b
  := by
  rw [reaches, reachesFrom_iff]
  simp

end Links

end Componentry
