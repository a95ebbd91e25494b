import SimpleKernel.Paging.Present

set_option autoImplicit false

namespace SimpleKernel.Paging

open BitField (get)

abbrev Memory := Nat → UInt8

def translate (layout : Layout) (other : Nat → Nat → Word) (tables : Tables) (v : Word) : Option Nat :=
  (walk layout other tables v).map Leaf.address

-- Stores of the kernel, which no protection stops: a byte at a time from v on,
-- none for a page fault. They do not reach the frames of the tables.
def storeBytes (layout : Layout) (other : Nat → Nat → Word) (tables : Tables) : Word → List UInt8 → Memory → Option Memory
  | _, [], memory => some memory
  | v, byte :: rest, memory =>
      match translate layout other tables v with
      | none => none
      | some address => storeBytes layout other tables (v + 1) rest (Function.update memory address byte)

def withBytes (base : Nat) (bytes : List UInt8) (memory : Memory) : Memory := fun address =>
  if base ≤ address ∧ address < base + bytes.length then bytes.getD (address - base) 0 else memory address

theorem with_bytes_get (base : Nat) (bytes : List UInt8) (memory : Memory) (k : Nat) (inside : k < bytes.length) :
    withBytes base bytes memory (base + k) = bytes.getD k 0 := by
  have offset : base + k - base = k := by omega
  rw [withBytes, if_pos (by omega), offset]

theorem with_bytes_cons (base : Nat) (byte : UInt8) (rest : List UInt8) (memory : Memory) :
    withBytes (base + 1) rest (Function.update memory base byte) = withBytes base (byte :: rest) memory := by
  funext address
  rw [withBytes, withBytes, List.length_cons]
  by_cases first : address = base
  · subst first
    rw [if_neg (by omega), if_pos (by omega), Function.update_self, Nat.sub_self, List.getD_cons_zero]
  · rw [Function.update_of_ne first]
    by_cases inside : base + 1 ≤ address ∧ address < base + 1 + rest.length
    · have offset : address - base = address - (base + 1) + 1 := by omega
      rw [if_pos inside, if_pos (by omega), offset, List.getD_cons_succ]
    · rw [if_neg inside, if_neg (by omega)]

theorem word_succ (v : Word) (k : Nat) : v + 1 + BitVec.ofNat 32 k = v + BitVec.ofNat 32 (k + 1) := by
  rw [BitVec.ofNat_add, BitVec.add_assoc]
  exact congrArg (v + ·) (BitVec.add_comm _ _)

theorem word_place (v : Word) (k : Nat) (bound : v.toNat + k < 2 ^ 32) : (v + BitVec.ofNat 32 k).toNat = v.toNat + k := by
  rw [BitVec.toNat_add, BitVec.toNat_ofNat]
  omega

section Store

variable (layout : Layout) (other : Nat → Nat → Word) (tables : Tables)

theorem translate_some (v : Word) : (translate layout other tables v).isSome = (walk layout other tables v).isSome :=
  Option.isSome_map

theorem store_bytes_linear (v : Word) (base : Nat) (bytes : List UInt8) (memory : Memory)
    (linear : ∀ k < bytes.length, translate layout other tables (v + BitVec.ofNat 32 k) = some (base + k)) :
    storeBytes layout other tables v bytes memory = some (withBytes base bytes memory) := by
  induction bytes generalizing v base memory with
  | nil =>
      rw [storeBytes]
      congr 1
      funext address
      rw [withBytes, if_neg (by simp)]
  | cons byte rest ih =>
      have first : translate layout other tables v = some base := by
        simpa using linear 0 (Nat.succ_pos rest.length)
      have later : ∀ k < rest.length, translate layout other tables (v + 1 + BitVec.ofNat 32 k) = some (base + 1 + k) := by
        intro k inside
        rw [word_succ, linear (k + 1) (Nat.succ_lt_succ inside), Nat.add_assoc, Nat.add_comm 1 k]
      rw [storeBytes, first]
      dsimp only
      rw [ih (v + 1) (base + 1) _ later, with_bytes_cons]

theorem store_bytes_some (v : Word) (bytes : List UInt8) (memory : Memory) :
    (storeBytes layout other tables v bytes memory).isSome = true ↔
      ∀ k < bytes.length, (walk layout other tables (v + BitVec.ofNat 32 k)).isSome = true := by
  induction bytes generalizing v memory with
  | nil =>
      refine iff_of_true rfl ?_
      intro k inside
      cases inside
  | cons byte rest ih =>
      rw [storeBytes]
      cases first : translate layout other tables v with
      | none =>
          refine iff_of_false Bool.false_ne_true ?_
          intro all
          have here := all 0 (Nat.succ_pos rest.length)
          rw [← translate_some, BitVec.add_zero, first] at here
          cases here
      | some address =>
          dsimp only
          rw [ih (v + 1)]
          constructor
          · intro later k inside
            cases k with
            | zero => rw [← translate_some, BitVec.add_zero, first, Option.isSome_some]
            | succ k =>
                rw [← word_succ]
                exact later k (Nat.lt_of_succ_lt_succ inside)
          · intro all k inside
            rw [word_succ]
            exact all (k + 1) (Nat.succ_lt_succ inside)

theorem translate_big (v : Word) (i k : Nat) (entry : (v.toNat + k) / 2 ^ 22 = i) (bound : v.toNat + k < 2 ^ 32)
    (here : get present (tables.pageDirectory i) = 1) (big : get pageSize (tables.pageDirectory i) = 1) :
    translate layout other tables (v + BitVec.ofNat 32 k) =
      some (get bit10Addr (tables.pageDirectory i) * 2 ^ 22 + (v.toNat + k) % 2 ^ 22) := by
  rw [translate, walk]
  simp only [word_place v k bound, entry, here, big, Nat.one_ne_zero, if_false, if_true, Option.map_some]

end Store

end SimpleKernel.Paging
