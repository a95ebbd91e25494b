import Mathlib.Data.BitVec

set_option autoImplicit false

-- Runs of cells in a memory whose addresses are machine words. A run that fits
-- does not pass the last address; the address behind it may be 0.
namespace Region

variable {size : Nat} {Cell : Type*}

def Within (base : BitVec size) (count : Nat) (address : BitVec size) : Prop :=
  base.toNat ≤ address.toNat ∧ address.toNat < base.toNat + count

instance (base : BitVec size) (count : Nat) (address : BitVec size) : Decidable (Within base count address) :=
  inferInstanceAs (Decidable (_ ∧ _))

def Fits (base : BitVec size) (count : Nat) : Prop := base.toNat + count ≤ 2 ^ size

instance (base : BitVec size) (count : Nat) : Decidable (Fits base count) := inferInstanceAs (Decidable (_ ≤ _))

def write (base : BitVec size) (count : Nat) (values : Nat → Cell) (memory : BitVec size → Cell)
    (address : BitVec size) : Cell :=
  if Within base count address then values (address - base).toNat else memory address

def fill (base : BitVec size) (count : Nat) (value : Cell) (memory : BitVec size → Cell) : BitVec size → Cell :=
  write base count (fun _ => value) memory

def copy (dest src : BitVec size) (count : Nat) (memory : BitVec size → Cell) : BitVec size → Cell :=
  write dest count (fun i => memory (src + BitVec.ofNat size i)) memory

theorem within_none (base address : BitVec size) : ¬ Within base 0 address := by
  intro within
  have bounds := within
  rw [Within] at bounds
  omega

theorem within_offset (base : BitVec size) (count : Nat) (address : BitVec size) (within : Within base count address) :
    (address - base).toNat = address.toNat - base.toNat ∧ (address - base).toNat < count := by
  have difference : (address - base).toNat = address.toNat - base.toNat := BitVec.toNat_sub_of_le within.1
  have bounds := within
  rw [Within] at bounds
  exact ⟨difference, by omega⟩

theorem offset_inside (base : BitVec size) (count i : Nat) (fits : Fits base count) (inside : i < count) :
    (base + BitVec.ofNat size i).toNat = base.toNat + i := by
  rw [Fits] at fits
  rw [BitVec.toNat_add, BitVec.toNat_ofNat, Nat.add_mod_mod, Nat.mod_eq_of_lt (by omega)]

theorem fits_later (base : BitVec size) (first rest : Nat) (fits : Fits base (first + rest)) :
    rest = 0 ∨ (base + BitVec.ofNat size first).toNat = base.toNat + first := by
  cases rest with
  | zero => exact Or.inl rfl
  | succ n => exact Or.inr (offset_inside base (first + (n + 1)) first fits (by omega))

theorem fits_rest (base : BitVec size) (first rest : Nat) (fits : Fits base (first + rest)) :
    Fits (base + BitVec.ofNat size first) rest := by
  cases fits_later base first rest fits with
  | inl none =>
      rw [none]
      exact Nat.le_of_lt (base + BitVec.ofNat size first).isLt
  | inr place =>
      rw [Fits] at fits ⊢
      omega

theorem fits_first (base : BitVec size) (first rest : Nat) (fits : Fits base (first + rest)) : Fits base first := by
  rw [Fits] at fits ⊢
  omega

theorem within_split (base : BitVec size) (first rest : Nat) (address : BitVec size) (fits : Fits base (first + rest)) :
    Within base (first + rest) address ↔ Within base first address ∨
      Within (base + BitVec.ofNat size first) rest address := by
  cases fits_later base first rest fits with
  | inl none =>
      rw [none, Nat.add_zero]
      constructor
      · exact Or.inl
      · intro either
        cases either with
        | inl within => exact within
        | inr later => exact absurd later (within_none _ _)
  | inr place =>
      rw [Within, Within, Within, place]
      omega

theorem offset_later (base : BitVec size) (first rest : Nat) (address : BitVec size) (fits : Fits base (first + rest))
    (later : Within (base + BitVec.ofNat size first) rest address) :
    (address - base).toNat = first + (address - (base + BitVec.ofNat size first)).toNat ∧ ¬ Within base first address := by
  have whole := (within_split base first rest address fits).mpr (Or.inr later)
  have fromBase := (within_offset base _ address whole).1
  have fromFirst := (within_offset _ rest address later).1
  have start := later.1
  cases fits_later base first rest fits with
  | inl none =>
      rw [none] at later
      exact absurd later (within_none _ _)
  | inr place =>
      rw [Within]
      omega

theorem write_none (base : BitVec size) (values : Nat → Cell) (memory : BitVec size → Cell) :
    write base 0 values memory = memory := by
  funext address
  exact if_neg (within_none base address)

theorem write_congr (base : BitVec size) (count : Nat) (values others : Nat → Cell) (memory : BitVec size → Cell)
    (same : ∀ i < count, values i = others i) : write base count values memory = write base count others memory := by
  funext address
  by_cases within : Within base count address
  · rw [write, write, if_pos within, if_pos within, same _ (within_offset base count address within).2]
  · rw [write, write, if_neg within, if_neg within]

theorem write_at (base : BitVec size) (count i : Nat) (values : Nat → Cell) (memory : BitVec size → Cell)
    (fits : Fits base count)
    (inside : i < count) : write base count values memory (base + BitVec.ofNat size i) = values i := by
  have place := offset_inside base count i fits inside
  have within : Within base count (base + BitVec.ofNat size i) := by
    rw [Within, place]
    omega
  rw [write, if_pos within, (within_offset base count _ within).1, place, Nat.add_sub_cancel_left]

theorem write_append (base : BitVec size) (first rest : Nat) (values : Nat → Cell) (memory : BitVec size → Cell)
    (fits : Fits base (first + rest)) :
    write (base + BitVec.ofNat size first) rest (fun i => values (first + i)) (write base first values memory) =
      write base (first + rest) values memory := by
  funext address
  have split := within_split base first rest address fits
  rw [write, write, write]
  by_cases later : Within (base + BitVec.ofNat size first) rest address
  · rw [if_pos later, if_pos (split.mpr (Or.inr later)), (offset_later base first rest address fits later).1]
  · by_cases early : Within base first address
    · rw [if_neg later, if_pos early, if_pos (split.mpr (Or.inl early))]
    · rw [if_neg later, if_neg early, if_neg fun whole => (split.mp whole).elim early later]

theorem write_prepend (base : BitVec size) (first rest : Nat) (values : Nat → Cell) (memory : BitVec size → Cell)
    (fits : Fits base (first + rest)) :
    write base first values (write (base + BitVec.ofNat size first) rest (fun i => values (first + i)) memory) =
      write base (first + rest) values memory := by
  rw [← write_append base first rest values memory fits]
  funext address
  by_cases later : Within (base + BitVec.ofNat size first) rest address
  · simp only [write, if_neg (offset_later base first rest address fits later).2, if_pos later]
  · simp only [write, if_neg later]

theorem fill_append (base : BitVec size) (first rest : Nat) (value : Cell) (memory : BitVec size → Cell)
    (fits : Fits base (first + rest)) :
    fill (base + BitVec.ofNat size first) rest value (fill base first value memory) = fill base (first + rest) value memory :=
  write_append base first rest (fun _ => value) memory fits

theorem source_place (src : BitVec size) (first i : Nat) :
    src + BitVec.ofNat size first + BitVec.ofNat size i = src + BitVec.ofNat size (first + i) := by
  rw [BitVec.ofNat_add, BitVec.add_assoc]

theorem copy_append (dest src : BitVec size) (first rest : Nat) (memory : BitVec size → Cell)
    (fits : Fits dest (first + rest))
    (unread : ∀ i, first ≤ i → i < first + rest → ¬ Within dest first (src + BitVec.ofNat size i)) :
    copy (dest + BitVec.ofNat size first) (src + BitVec.ofNat size first) rest (copy dest src first memory) =
      copy dest src (first + rest) memory := by
  have kept (i : Nat) (inside : i < rest) : copy dest src first memory (src + BitVec.ofNat size first + BitVec.ofNat size i) =
      memory (src + BitVec.ofNat size (first + i)) := by
    rw [source_place, copy, write, if_neg (unread (first + i) (by omega) (by omega))]
  rw [copy, write_congr _ rest _ _ _ kept]
  exact write_append dest first rest (fun i => memory (src + BitVec.ofNat size i)) memory fits

theorem copy_prepend (dest src : BitVec size) (first rest : Nat) (memory : BitVec size → Cell)
    (fits : Fits dest (first + rest))
    (unread : ∀ i < first, ¬ Within (dest + BitVec.ofNat size first) rest (src + BitVec.ofNat size i)) :
    copy dest src first (copy (dest + BitVec.ofNat size first) (src + BitVec.ofNat size first) rest memory) =
      copy dest src (first + rest) memory := by
  have kept (i : Nat) (inside : i < first) :
      copy (dest + BitVec.ofNat size first) (src + BitVec.ofNat size first) rest memory (src + BitVec.ofNat size i) =
        memory (src + BitVec.ofNat size i) := by
    rw [copy, write, if_neg (unread i inside)]
  have later (i : Nat) (_inside : i < rest) : memory (src + BitVec.ofNat size first + BitVec.ofNat size i) =
      memory (src + BitVec.ofNat size (first + i)) := by
    rw [source_place]
  rw [copy, write_congr dest first _ _ _ kept, copy, write_congr _ rest _ _ _ later]
  exact write_prepend dest first rest (fun i => memory (src + BitVec.ofNat size i)) memory fits

end Region
