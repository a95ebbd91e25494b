import Mathlib.Data.Int.Notation
import Mathlib.Logic.Function.Basic

set_option autoImplicit false

-- A memory is a function from addresses; a copy loop goes upwards one cell at
-- a time and reads the memory it has written so far.
namespace Memory

variable {Cell : Type*}

def copyUp : Int → Int → Nat → (Int → Cell) → Int → Cell
  | _, _, 0, memory => memory
  | dest, src, count + 1, memory => copyUp (dest + 1) (src + 1) count (Function.update memory dest (memory src))

theorem copy_up_at (dest src : Int) (count : Nat) (memory : Int → Cell) (address : Int)
    (fresh : dest ≤ src ∨ src + count ≤ dest) :
    copyUp dest src count memory address =
      if dest ≤ address ∧ address < dest + count then memory (src + (address - dest)) else memory address := by
  induction count generalizing dest src memory with
  | zero =>
      have empty : ¬ (dest ≤ address ∧ address < dest + (0 : Nat)) := by omega
      rw [if_neg empty]
      rfl
  | succ count ih =>
      have later : dest + 1 ≤ src + 1 ∨ src + 1 + count ≤ dest + 1 := by omega
      rw [copyUp, ih (dest + 1) (src + 1) _ later]
      by_cases first : address = dest
      · have before : ¬ (dest + 1 ≤ address ∧ address < dest + 1 + count) := by omega
        have inside : dest ≤ address ∧ address < dest + (count + 1 : Nat) := by omega
        rw [if_neg before, if_pos inside, first, Function.update_self, Int.sub_self, Int.add_zero]
      · by_cases rest : dest + 1 ≤ address ∧ address < dest + 1 + count
        · have inside : dest ≤ address ∧ address < dest + (count + 1 : Nat) := by omega
          have source : src + 1 + (address - (dest + 1)) ≠ dest := by omega
          have same : src + 1 + (address - (dest + 1)) = src + (address - dest) := by omega
          rw [if_pos rest, if_pos inside, Function.update_of_ne source, same]
        · have outside : ¬ (dest ≤ address ∧ address < dest + (count + 1 : Nat)) := by omega
          rw [if_neg rest, if_neg outside, Function.update_of_ne first]

theorem copy_up_outside (dest src : Int) (count : Nat) (memory : Int → Cell) (address : Int)
    (outside : address < dest ∨ dest + count ≤ address) : copyUp dest src count memory address = memory address := by
  induction count generalizing dest src memory with
  | zero => rfl
  | succ count ih =>
      have apart : address ≠ dest := by omega
      rw [copyUp, ih (dest + 1) (src + 1) _ (by omega), Function.update_of_ne apart]

end Memory
