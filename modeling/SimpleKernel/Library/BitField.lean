import Mathlib.Data.BitVec

set_option autoImplicit false

-- Bit fields of a machine word, as a C compiler lays out `unsigned x : width`
-- members: a field is a run of bits, and storing keeps every other bit.
namespace BitField

structure Field where
  lo : Nat
  width : Nat
deriving DecidableEq, Repr

variable {size : Nat}

def mask (field : Field) : BitVec size :=
  (BitVec.allOnes field.width).setWidth size <<< field.lo

def get (field : Field) (word : BitVec size) : Nat :=
  (word.extractLsb' field.lo field.width).toNat

-- Storing converts the value to the width of the field, modulo 2^width.
def put (field : Field) (value : Int) (word : BitVec size) : BitVec size :=
  (word &&& ~~~ mask field) ||| ((BitVec.ofInt field.width value).setWidth size <<< field.lo)

def putAll (stores : List (Field × Int)) (word : BitVec size) : BitVec size :=
  stores.foldl (fun current store => put store.1 store.2 current) word

def Apart (a b : Field) : Prop := a.lo + a.width ≤ b.lo ∨ b.lo + b.width ≤ a.lo

instance (a b : Field) : Decidable (Apart a b) := inferInstanceAs (Decidable (_ ∨ _))

theorem mask_bit (field : Field) (i : Nat) (bound : i < size) :
    (mask field : BitVec size).getLsbD i = decide (field.lo ≤ i ∧ i < field.lo + field.width) := by
  simp only [mask, BitVec.getLsbD_shiftLeft, BitVec.getLsbD_setWidth, BitVec.getLsbD_allOnes, bound,
    decide_true, Bool.true_and]
  by_cases low : i < field.lo
  · simp [low, Nat.not_le.mpr low]
  · have above : field.lo ≤ i := Nat.le_of_not_lt low
    have inside : i - field.lo < size := by omega
    by_cases high : i < field.lo + field.width
    · have within : i - field.lo < field.width := by omega
      simp [low, above, inside, high, within]
    · have outside : ¬ i - field.lo < field.width := by omega
      simp [low, above, high, outside]

theorem put_bit (field : Field) (value : Int) (word : BitVec size) (i : Nat) (bound : i < size) :
    (put field value word).getLsbD i =
      if field.lo ≤ i ∧ i < field.lo + field.width then (BitVec.ofInt field.width value).getLsbD (i - field.lo)
      else word.getLsbD i := by
  simp only [put, BitVec.getLsbD_or, BitVec.getLsbD_and, BitVec.getLsbD_not, mask_bit field i bound,
    BitVec.getLsbD_shiftLeft, BitVec.getLsbD_setWidth, bound, decide_true, Bool.true_and]
  by_cases low : i < field.lo
  · have outside : ¬ (field.lo ≤ i ∧ i < field.lo + field.width) := by omega
    simp [low, outside]
  · have above : field.lo ≤ i := Nat.le_of_not_lt low
    have inside : i - field.lo < size := by omega
    by_cases high : i < field.lo + field.width
    · simp [low, above, inside, high]
    · have beyond : (BitVec.ofInt field.width value).getLsbD (i - field.lo) = false :=
        BitVec.getLsbD_of_ge _ _ (by omega)
      simp [low, high, beyond]

theorem get_put_same (field : Field) (value : Int) (word : BitVec size) (fits : field.lo + field.width ≤ size) :
    get field (put field value word) = (BitVec.ofInt field.width value).toNat := by
  have bits : (put field value word).extractLsb' field.lo field.width = BitVec.ofInt field.width value := by
    apply BitVec.eq_of_getLsbD_eq
    intro i bound
    have inside : field.lo + i < size := by omega
    simp [put_bit field value word (field.lo + i) inside, bound]
  simp only [get, bits]

theorem get_put_apart (field other : Field) (value : Int) (word : BitVec size)
    (fits : other.lo + other.width ≤ size) (apart : Apart field other) :
    get other (put field value word) = get other word := by
  have bits : (put field value word).extractLsb' other.lo other.width = word.extractLsb' other.lo other.width := by
    apply BitVec.eq_of_getLsbD_eq
    intro i bound
    have inside : other.lo + i < size := by omega
    have outside : ¬ (field.lo ≤ other.lo + i ∧ other.lo + i < field.lo + field.width) := by
      rcases apart with below | above <;> omega
    simp [put_bit field value word (other.lo + i) inside, bound, outside]
  simp only [get, bits]

theorem get_split (lo first second : Nat) (word : BitVec size) :
    get ⟨lo, first + second⟩ word = get ⟨lo, first⟩ word + 2 ^ first * get ⟨lo + first, second⟩ word := by
  simp only [get, BitVec.extractLsb'_toNat, Nat.shiftRight_eq_div_pow, Nat.pow_add, ← Nat.div_div_eq_div_mul]
  exact Nat.mod_mul

def lastStored (field : Field) : List (Field × Int) → Option Int
  | [] => none
  | store :: rest => (lastStored field rest).orElse (fun _ => if store.1 = field then some store.2 else none)

def separate (field : Field) (stores : List (Field × Int)) : Bool :=
  stores.all fun store => decide (store.1 = field ∨ Apart store.1 field)

theorem get_putAll (field : Field) (stores : List (Field × Int)) (word : BitVec size)
    (fits : field.lo + field.width ≤ size) (covered : separate field stores = true) :
    get field (putAll stores word) =
      ((lastStored field stores).map fun value => (BitVec.ofInt field.width value).toNat).getD (get field word) := by
  induction stores generalizing word with
  | nil => rfl
  | cons store rest ih =>
      simp only [separate, List.all_cons, Bool.and_eq_true, decide_eq_true_eq] at covered
      obtain ⟨head, later⟩ := covered
      change get field (putAll rest (put store.1 store.2 word)) = _
      rw [ih (put store.1 store.2 word) later]
      cases found : lastStored field rest with
      | some value => simp [lastStored, found]
      | none =>
          rcases head with same | apart
          · subst same
            simp [lastStored, found, get_put_same store.1 store.2 word fits]
          · by_cases same : store.1 = field
            · subst same
              simp [lastStored, found, get_put_same store.1 store.2 word fits]
            · simp [lastStored, found, same, get_put_apart store.1 field store.2 word fits apart]

end BitField
