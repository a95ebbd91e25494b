import Mathlib.Data.Nat.Digits.Lemmas

set_option autoImplicit false

-- Positional numerals, the most significant digit first.
namespace Numeral

def value (radix : Nat) (digits : List Nat) : Nat := digits.foldl (fun high digit => high * radix + digit) 0

structure Denotes (radix number : Nat) (digits : List Nat) : Prop where
  small : ∀ digit ∈ digits, digit < radix
  nonempty : digits ≠ []
  leading : digits.head? = some 0 → digits = [0]
  value : value radix digits = number

theorem value_reverse (radix : Nat) (digits : List Nat) : value radix digits.reverse = Nat.ofDigits radix digits := by
  rw [value, List.foldl_reverse, Nat.ofDigits_eq_foldr]
  congr 1
  funext digit high
  rw [Nat.mul_comm, Nat.add_comm, Nat.cast_id]

theorem value_digits (radix number : Nat) : value radix (Nat.digits radix number).reverse = number := by
  rw [value_reverse, Nat.ofDigits_digits]

theorem value_cons_zero (radix : Nat) (digits : List Nat) : value radix (0 :: digits) = value radix digits := by
  rw [value, List.foldl_cons, Nat.zero_mul, Nat.zero_add]
  rfl

theorem value_padded (radix count : Nat) (digits : List Nat) :
    value radix (List.replicate count 0 ++ digits) = value radix digits := by
  induction count with
  | zero => rfl
  | succ count ih => rw [List.replicate_succ, List.cons_append, value_cons_zero, ih]

theorem denotes_zero (radix : Nat) (positive : 0 < radix) : Denotes radix 0 [0] where
  small := fun digit member => by rwa [List.mem_singleton.mp member]
  nonempty := List.cons_ne_nil 0 []
  leading := fun _ => rfl
  value := value_cons_zero radix []

theorem denotes_digits (radix number : Nat) (base : 1 < radix) (positive : 0 < number) :
    Denotes radix number (Nat.digits radix number).reverse := by
  have nonzero : number ≠ 0 := Nat.pos_iff_ne_zero.mp positive
  refine ⟨fun digit member => ?_, ?_, fun zero => ?_, value_digits radix number⟩
  · exact Nat.digits_lt_base base (List.mem_reverse.mp member)
  · rw [Ne, List.reverse_eq_nil_iff]
    exact Nat.digits_ne_nil_iff_ne_zero.mpr nonzero
  · rw [List.head?_reverse, List.getLast?_eq_some_getLast (Nat.digits_ne_nil_iff_ne_zero.mpr nonzero)] at zero
    exact absurd (Option.some.inj zero) (Nat.getLast_digit_ne_zero radix nonzero)

theorem denotes_positive (radix number : Nat) (digits : List Nat) (base : 1 < radix) (denotes : Denotes radix number digits)
    (lead : digits.head? ≠ some 0) : digits = (Nat.digits radix number).reverse := by
  have read : Nat.ofDigits radix digits.reverse = number := by
    rw [← value_reverse, List.reverse_reverse]
    exact denotes.value
  have canonical : Nat.digits radix (Nat.ofDigits radix digits.reverse) = digits.reverse := by
    apply Nat.digits_ofDigits radix base
    · intro digit member
      exact denotes.small digit (List.mem_reverse.mp member)
    · intro nonempty zero
      apply lead
      rw [List.head?_eq_getLast?_reverse, List.getLast?_eq_some_getLast nonempty, zero]
  rw [read] at canonical
  rw [canonical, List.reverse_reverse]

theorem denotes_unique (radix number : Nat) (a b : List Nat) (base : 1 < radix) (first : Denotes radix number a)
    (second : Denotes radix number b) : a = b := by
  have zeroValue (digits : List Nat) (denotes : Denotes radix 0 digits) : digits = [0] := by
    by_cases lead : digits.head? = some 0
    · exact denotes.leading lead
    · have none := denotes_positive radix 0 digits base denotes lead
      rw [Nat.digits_zero] at none
      exact absurd none denotes.nonempty
  by_cases zero : number = 0
  · rw [zero] at first second
    rw [zeroValue a first, zeroValue b second]
  · have positive (digits : List Nat) (denotes : Denotes radix number digits) : digits.head? ≠ some 0 := by
      intro lead
      have value := denotes.value
      rw [denotes.leading lead, value_cons_zero] at value
      exact zero value.symm
    rw [denotes_positive radix number a base first (positive a first),
      denotes_positive radix number b base second (positive b second)]

theorem denotes_length (radix number size : Nat) (digits : List Nat) (base : 1 < radix)
    (denotes : Denotes radix number digits)
    (room : 0 < size) (bound : number < radix ^ size) : digits.length ≤ size := by
  by_cases lead : digits.head? = some 0
  · rw [denotes.leading lead]
    exact room
  · rw [denotes_positive radix number digits base denotes lead, List.length_reverse]
    exact (Nat.digits_length_le_iff base number).mpr bound

end Numeral
