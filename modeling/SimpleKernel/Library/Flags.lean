import Mathlib.Data.BitVec

set_option autoImplicit false

-- The status flags of an x86 comparison and the conditions that branches and
-- conditional moves read off them.
namespace Flags

structure Status where
  zero : Bool
  sign : Bool
  overflow : Bool
  carry : Bool
deriving DecidableEq, Repr

variable {size : Nat}

-- `cmp b, a`: the flags of a - b.
def compare (a b : BitVec size) : Status where
  zero := a - b == 0
  sign := (a - b).msb
  overflow := a.ssubOverflow b
  carry := a.ult b

-- `test b, a`: the flags of a & b, which clears overflow and carry.
def test (a b : BitVec size) : Status where
  zero := a &&& b == 0
  sign := (a &&& b).msb
  overflow := false
  carry := false

def equal (status : Status) : Bool := status.zero
def less (status : Status) : Bool := status.sign != status.overflow
def lessEqual (status : Status) : Bool := status.zero || less status
def greater (status : Status) : Bool := !lessEqual status
def below (status : Status) : Bool := status.carry

theorem compare_equal (a b : BitVec size) : equal (compare a b) = true ↔ a = b := by
  have zero : a - b = 0 ↔ a = b := by
    constructor
    · intro none
      have sum := BitVec.sub_add_cancel a b
      rw [none] at sum
      exact sum.symm.trans (BitVec.zero_add b)
    · intro same
      rw [same]
      exact BitVec.sub_self b
  exact beq_iff_eq.trans zero

-- The sign of the difference is wrong exactly when the subtraction overflows.
theorem compare_less (a b : BitVec size) : less (compare a b) = true ↔ a.toInt < b.toInt := by
  change ((a - b).msb != a.ssubOverflow b) = true ↔ a.toInt < b.toInt
  cases overflows : a.ssubOverflow b with
  | false =>
      have exact : (a - b).toInt = a.toInt - b.toInt := BitVec.toInt_sub_of_not_ssubOverflow (by simp [overflows])
      rw [Bool.bne_false, BitVec.msb_eq_toInt, decide_eq_true_iff, exact]
      omega
  | true =>
      have signs := overflows
      rw [BitVec.ssubOverflow_eq] at signs
      have left := BitVec.msb_eq_toInt (x := a)
      have right := BitVec.msb_eq_toInt (x := b)
      cases first : a.msb with
      | false =>
          simp only [first, Bool.not_false, Bool.true_and, Bool.false_and, Bool.or_false, Bool.and_eq_true] at signs
          rw [signs.1] at right
          rw [first] at left
          have negative := of_decide_eq_true right.symm
          have nonneg := of_decide_eq_false left.symm
          rw [signs.2]
          exact iff_of_false (by decide) (by omega)
      | true =>
          simp only [first, Bool.not_true, Bool.true_and, Bool.false_and, Bool.false_or, Bool.and_eq_true,
            Bool.not_eq_true'] at signs
          rw [signs.1] at right
          rw [first] at left
          have negative := of_decide_eq_true left.symm
          have nonneg := of_decide_eq_false right.symm
          rw [signs.2]
          exact iff_of_true (by decide) (by omega)

theorem compare_less_equal (a b : BitVec size) : lessEqual (compare a b) = true ↔ a.toInt ≤ b.toInt := by
  rw [lessEqual, Bool.or_eq_true, compare_less]
  have same : (compare a b).zero = true ↔ a.toInt = b.toInt := (compare_equal a b).trans BitVec.toInt_inj.symm
  rw [same]
  omega

theorem compare_greater (a b : BitVec size) : greater (compare a b) = true ↔ b.toInt < a.toInt := by
  have le := compare_less_equal a b
  change (!lessEqual (compare a b)) = true ↔ _
  rw [Bool.not_eq_true', ← Bool.not_eq_true, le]
  exact Int.not_le

theorem compare_below (a b : BitVec size) : below (compare a b) = true ↔ a.toNat < b.toNat := by
  change a.ult b = true ↔ _
  rw [BitVec.ult_eq_decide, decide_eq_true_iff]

theorem test_less (a b : BitVec size) : less (test a b) = (a &&& b).msb := Bool.bne_false _

end Flags
