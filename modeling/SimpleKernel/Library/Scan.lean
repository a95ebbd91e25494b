import Mathlib.Data.List.Range

set_option autoImplicit false

-- A loop that goes up from an index while nothing stops it, for a bounded
-- number of steps.
namespace Scan

variable (stop : Nat → Prop) [DecidablePred stop]

def first : Nat → Nat → Nat
  | 0, i => i
  | left + 1, i => if stop i then i else first left (i + 1)

def visited : Nat → Nat → List Nat
  | 0, i => [i]
  | left + 1, i => if stop i then [i] else i :: visited left (i + 1)

theorem first_above (left i : Nat) : i ≤ first stop left i := by
  induction left generalizing i with
  | zero => exact Nat.le_refl i
  | succ left ih =>
      rw [first]
      split
      · exact Nat.le_refl i
      · exact Nat.le_of_succ_le (ih (i + 1))

theorem clean_before (left i k : Nat) (low : i ≤ k) (high : k < first stop left i) : ¬ stop k := by
  induction left generalizing i with
  | zero => exact absurd high (Nat.not_lt.mpr low)
  | succ left ih =>
      rw [first] at high
      split at high
      · exact absurd high (Nat.not_lt.mpr low)
      · rename_i here
        cases Nat.eq_or_lt_of_le low with
        | inl same => exact same ▸ here
        | inr later => exact ih (i + 1) later high

theorem stops_early (left i : Nat) (early : first stop left i < i + left) : stop (first stop left i) := by
  induction left generalizing i with
  | zero => exact absurd early (Nat.lt_irrefl i)
  | succ left ih =>
      rw [first] at early ⊢
      by_cases here : stop i
      · rwa [if_pos here]
      · rw [if_neg here] at early ⊢
        exact ih (i + 1) (by omega)

theorem first_passes (left i : Nat) (clean : ∀ k < left, ¬ stop (i + k)) : first stop left i = i + left := by
  induction left generalizing i with
  | zero => rfl
  | succ left ih =>
      have here : ¬ stop i := clean 0 (Nat.succ_pos left)
      have later : ∀ k < left, ¬ stop (i + 1 + k) := by
        intro k bound
        have passed := clean (k + 1) (Nat.succ_lt_succ bound)
        rwa [Nat.add_comm k 1, ← Nat.add_assoc] at passed
      rw [first, if_neg here, ih (i + 1) later]
      omega

theorem first_exact (left i len : Nat) (clean : ∀ k < len, ¬ stop (i + k)) (stops : stop (i + len)) (fits : len ≤ left) :
    first stop left i = i + len := by
  have above := first_above stop left i
  cases Nat.lt_trichotomy (first stop left i) (i + len) with
  | inl before =>
      have passed := clean (first stop left i - i) (by omega)
      rw [Nat.add_sub_cancel' above] at passed
      exact absurd (stops_early stop left i (by omega)) passed
  | inr rest =>
      cases rest with
      | inl same => exact same
      | inr after => exact absurd stops (clean_before stop left i (i + len) (Nat.le_add_right i len) after)

theorem first_below (left i size : Nat) :
    first stop left i < size ↔ i + left < size ∨ ∃ k, i ≤ k ∧ k < size ∧ stop k := by
  induction left generalizing i with
  | zero =>
      constructor
      · intro inside
        exact Or.inl inside
      · rintro (inside | ⟨k, low, high, _⟩)
        · exact inside
        · exact Nat.lt_of_le_of_lt low high
  | succ left ih =>
      rw [first]
      by_cases here : stop i
      · rw [if_pos here]
        constructor
        · intro inside
          exact Or.inr ⟨i, Nat.le_refl i, inside, here⟩
        · rintro (inside | ⟨k, low, high, _⟩)
          · omega
          · exact Nat.lt_of_le_of_lt low high
      · have shift : i + 1 + left = i + (left + 1) := by omega
        rw [if_neg here, ih (i + 1), shift]
        apply or_congr_right
        constructor
        · rintro ⟨k, low, high, stops⟩
          exact ⟨k, Nat.le_of_succ_le low, high, stops⟩
        · rintro ⟨k, low, high, stops⟩
          have other : i ≠ k := by
            rintro rfl
            exact here stops
          exact ⟨k, Nat.lt_of_le_of_ne low other, high, stops⟩

theorem visited_range (left i : Nat) : visited stop left i = List.range' i (first stop left i + 1 - i) := by
  induction left generalizing i with
  | zero => simp [visited, first]
  | succ left ih =>
      rw [visited, first]
      split
      · simp
      · have above := first_above stop left (i + 1)
        have more : first stop left (i + 1) + 1 - i = first stop left (i + 1) + 1 - (i + 1) + 1 := by omega
        rw [ih (i + 1), more, List.range'_succ]

theorem visited_below (left size : Nat) : (∀ i ∈ visited stop left 0, i < size) ↔ first stop left 0 < size := by
  rw [visited_range, Nat.sub_zero, ← List.range_eq_range']
  constructor
  · intro inside
    exact inside (first stop left 0) (List.mem_range.mpr (Nat.lt_succ_self _))
  · intro last i member
    have before := List.mem_range.mp member
    omega

theorem visited_length (left i : Nat) : (visited stop left i).length ≤ left + 1 := by
  induction left generalizing i with
  | zero => exact Nat.le_refl 1
  | succ left ih =>
      rw [visited]
      split
      · exact Nat.le_add_left 1 (left + 1)
      · exact Nat.succ_le_succ (ih (i + 1))

end Scan
