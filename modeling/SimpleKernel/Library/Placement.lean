import Mathlib.Logic.ExistsUnique
import Mathlib.Logic.Function.Basic

set_option autoImplicit false

-- Places that hold at most one item each. A placement is exact for a set of
-- items when each of them has exactly one place and no place holds another.
namespace Placement

variable {Place Item : Type*}

structure Exact (holds : Place → Option Item) (alive : Item → Prop) : Prop where
  once : ∀ item, alive item → ∃! place, holds place = some item
  living : ∀ place item, holds place = some item → alive item

variable (holds : Place → Option Item) (alive : Item → Prop)

theorem exact_empty (none_held : ∀ place, holds place = none) (none_alive : ∀ item, ¬ alive item) : Exact holds alive := by
  refine ⟨fun item here => absurd here (none_alive item), ?_⟩
  intro place item held
  rw [none_held place] at held
  cases held

theorem exact_congr (other : Item → Prop) (same : ∀ item, other item ↔ alive item) (exact_holds : Exact holds alive) :
    Exact holds other := by
  have equal : other = alive := funext fun item => propext (same item)
  rw [equal]
  exact exact_holds

theorem exact_same_place (exact_holds : Exact holds alive) (first second : Place) (item : Item)
    (here : holds first = some item) (there : holds second = some item) : first = second :=
  (exact_holds.once item (exact_holds.living first item here)).unique here there

variable [DecidableEq Place]

theorem exact_put (exact_holds : Exact holds alive) (place : Place) (item : Item) (vacant : holds place = none)
    (fresh : ¬ alive item) : Exact (Function.update holds place (some item)) fun other => item = other ∨ alive other := by
  constructor
  · rintro other (rfl | old)
    · refine ⟨place, Function.update_self .., ?_⟩
      intro elsewhere held
      by_cases here : elsewhere = place
      · exact here
      · simp only [Function.update_of_ne here] at held
        exact absurd (exact_holds.living elsewhere item held) fresh
    · obtain ⟨found, held, only⟩ := exact_holds.once other old
      have apart : found ≠ place := by
        rintro rfl
        rw [vacant] at held
        cases held
      refine ⟨found, (Function.update_of_ne apart ..).trans held, ?_⟩
      intro elsewhere again
      by_cases here : elsewhere = place
      · subst here
        simp only [Function.update_self, Option.some.injEq] at again
        subst again
        exact absurd old fresh
      · simp only [Function.update_of_ne here] at again
        exact only elsewhere again
  · intro elsewhere other held
    by_cases here : elsewhere = place
    · subst here
      exact Or.inl (by simpa using held)
    · simp only [Function.update_of_ne here] at held
      exact Or.inr (exact_holds.living elsewhere other held)

theorem exact_take (exact_holds : Exact holds alive) (place : Place) (item : Item) (held : holds place = some item) :
    Exact (Function.update holds place none) fun other => item ≠ other ∧ alive other := by
  constructor
  · rintro other ⟨different, old⟩
    obtain ⟨found, there, only⟩ := exact_holds.once other old
    have apart : found ≠ place := by
      rintro rfl
      exact different (Option.some.inj (held.symm.trans there))
    refine ⟨found, (Function.update_of_ne apart ..).trans there, ?_⟩
    intro elsewhere again
    by_cases here : elsewhere = place
    · subst here
      simp only [Function.update_self] at again
      cases again
    · simp only [Function.update_of_ne here] at again
      exact only elsewhere again
  · intro elsewhere other there
    by_cases here : elsewhere = place
    · subst here
      simp only [Function.update_self] at there
      cases there
    · simp only [Function.update_of_ne here] at there
      refine ⟨?_, exact_holds.living elsewhere other there⟩
      rintro rfl
      exact here (exact_same_place holds alive exact_holds elsewhere place item there held)

end Placement
