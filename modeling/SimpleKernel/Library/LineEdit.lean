import Mathlib.Data.List.Basic

set_option autoImplicit false

-- Canonical line editing: the text a sequence of insertions and erasures leaves.
namespace LineEdit

inductive Key (α : Type*) where
  | erase
  | insert (char : α)
deriving DecidableEq, Repr

variable {α : Type*}

def edit (line : List α) : Key α → List α
  | .erase => line.dropLast
  | .insert char => line ++ [char]

def editAll (line : List α) (keys : List (Key α)) : List α := keys.foldl edit line

def underflows : List α → List (Key α) → Bool
  | _, [] => false
  | line, .erase :: rest => line.isEmpty || underflows line.dropLast rest
  | line, .insert char :: rest => underflows (line ++ [char]) rest

def Fits (limit : Nat) : List α → List (Key α) → Prop
  | line, [] => line.length ≤ limit
  | line, key :: rest => line.length ≤ limit ∧ Fits limit (edit line key) rest

instance decidableFits (limit : Nat) : (line : List α) → (keys : List (Key α)) → Decidable (Fits limit line keys)
  | line, [] => inferInstanceAs (Decidable (line.length ≤ limit))
  | line, key :: rest =>
      have := decidableFits limit (edit line key) rest
      inferInstanceAs (Decidable (line.length ≤ limit ∧ Fits limit (edit line key) rest))

@[simp] theorem edit_all_nil (line : List α) : editAll line [] = line := rfl

@[simp] theorem edit_all_cons (line : List α) (key : Key α) (rest : List (Key α)) :
    editAll line (key :: rest) = editAll (edit line key) rest := rfl

theorem edit_all_append (line : List α) (before after : List (Key α)) :
    editAll line (before ++ after) = editAll (editAll line before) after := by
  simp only [editAll, List.foldl_append]

theorem edit_all_member (line : List α) (keys : List (Key α)) (char : α) (member : char ∈ editAll line keys) :
    char ∈ line ∨ .insert char ∈ keys := by
  induction keys generalizing line with
  | nil => exact Or.inl member
  | cons key rest ih =>
      cases ih (edit line key) member with
      | inr later => exact Or.inr (List.mem_cons_of_mem _ later)
      | inl here =>
          cases key with
          | erase => exact Or.inl (List.dropLast_subset line here)
          | insert other =>
              cases List.mem_append.mp here with
              | inl before => exact Or.inl before
              | inr same => exact Or.inr (List.mem_singleton.mp same ▸ List.mem_cons_self)

theorem fits_append (limit : Nat) (line : List α) (before after : List (Key α))
    (fits : Fits limit line (before ++ after)) : Fits limit (editAll line before) after := by
  induction before generalizing line with
  | nil => exact fits
  | cons key rest ih => exact ih (edit line key) fits.2

theorem fits_head (limit : Nat) (line : List α) (keys : List (Key α)) (fits : Fits limit line keys) :
    line.length ≤ limit := by
  cases keys with
  | nil => exact fits
  | cons key rest => exact fits.1

theorem fits_last (limit : Nat) (line : List α) (keys : List (Key α)) (fits : Fits limit line keys) :
    (editAll line keys).length ≤ limit := by
  induction keys generalizing line with
  | nil => exact fits
  | cons key rest ih => exact ih (edit line key) fits.2

theorem fits_mono (limit more : Nat) (line : List α) (keys : List (Key α)) (le : limit ≤ more)
    (fits : Fits limit line keys) : Fits more line keys := by
  induction keys generalizing line with
  | nil => exact Nat.le_trans fits le
  | cons key rest ih => exact ⟨Nat.le_trans fits.1 le, ih (edit line key) fits.2⟩

-- One character in front of the line survives until an erasure would have met
-- the empty line, and is the one that erasure takes.
theorem edit_all_behind (first : α) (line : List α) (keys : List (Key α)) :
    editAll (first :: line) keys =
      if underflows line keys = true then editAll line keys else first :: editAll line keys := by
  induction keys generalizing line with
  | nil => simp [underflows]
  | cons key rest ih =>
      cases key with
      | insert char => exact ih (line ++ [char])
      | erase =>
          cases line with
          | nil => simp [edit, underflows]
          | cons second tail => exact ih (List.dropLast (second :: tail))

theorem drop_behind_eq (first : α) (keys : List (Key α)) :
    (editAll [first] keys).drop 1 = editAll [] keys ↔ underflows [] keys = false ∨ editAll [] keys = [] := by
  rw [edit_all_behind]
  cases reached : underflows [] keys with
  | false => simp
  | true =>
      simp only [if_true, Bool.true_eq_false, false_or]
      constructor
      · intro same
        have length := congrArg List.length same
        rw [List.length_drop] at length
        exact List.eq_nil_of_length_eq_zero (by omega)
      · intro empty
        rw [empty]
        rfl

theorem fits_behind (limit : Nat) (first : α) (line : List α) (keys : List (Key α)) (fits : Fits limit line keys) :
    Fits (limit + 1) (first :: line) keys := by
  induction keys generalizing line with
  | nil => simpa [Fits] using fits
  | cons key rest ih =>
      have length : (first :: line).length ≤ limit + 1 := by simpa using fits.1
      refine ⟨length, ?_⟩
      cases key with
      | insert char => simpa [edit] using ih (line ++ [char]) fits.2
      | erase =>
          cases line with
          | nil => exact fits_mono limit (limit + 1) _ _ (Nat.le_succ _) fits.2
          | cons second tail => simpa [edit] using ih (List.dropLast (second :: tail)) fits.2

end LineEdit
