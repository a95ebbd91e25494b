import SimpleKernel.FileSystem.Range

set_option autoImplicit false

namespace SimpleKernel.FileSystem

def indicesFrom (image : Image) (inode : Nat) : Nat → Nat → List Int
  | 0, _ => []
  | left + 1, i =>
      let index := (toInt32 i).tdiv 4096
      if dataBlockNum image inode index ≥ dataCount image then [index]
      else if i = fileLength image inode then [index]
      else index :: indicesFrom image inode left (i + 1)

def blockIndices (image : Image) (inode offset length : Nat) : List Int :=
  if inode ≥ inodeCount image then []
  else indicesFrom image inode ((offset + length) % 2 ^ 32 - offset) offset

def InTable (index : Int) : Prop := 0 ≤ index ∧ index < maxFilesize

instance (index : Int) : Decidable (InTable index) := inferInstanceAs (Decidable (_ ∧ _))

theorem indices_from_stored (image : Image) (inode offset left i : Nat) :
    (indicesFrom image inode left i).length = (readFrom image inode offset left i).stored.length ∨
      (indicesFrom image inode left i).length = (readFrom image inode offset left i).stored.length + 1 := by
  induction left generalizing i with
  | zero => exact Or.inl rfl
  | succ left ih =>
      rw [indicesFrom, readFrom]
      dsimp only
      split
      · right
        simp only [List.length_singleton, List.length_nil]
      · split
        · left
          simp only [List.length_singleton]
        · simp only [List.length_cons, Nat.add_right_cancel_iff]
          exact ih (i + 1)

theorem indices_from_positions (image : Image) (inode left i : Nat) (file : StoredFile image inode)
    (within : i ≤ fileLength image inode) :
    indicesFrom image inode left i =
      (List.range' i (min left (fileLength image inode - i + 1))).map fun k => ((k / 4096 : Nat) : Int) := by
  have small := stored_file_small image inode file
  induction left generalizing i with
  | zero => simp [indicesFrom]
  | succ left ih =>
      have index := (signed_position i (by omega)).1
      by_cases last : i = fileLength image inode
      · have one : min (left + 1) (fileLength image inode - i + 1) = 1 := by omega
        simp only [indicesFrom, index, if_pos last, ite_self, one, List.range'_one, List.map_singleton]
      · have here := stored_file_present image inode i file (by omega)
        rw [block_present_small image inode i (by omega)] at here
        have count : min (left + 1) (fileLength image inode - i + 1) =
            min left (fileLength image inode - (i + 1) + 1) + 1 := by omega
        simp only [indicesFrom, index, if_neg (Nat.not_le.mpr here), if_neg last, ge_iff_le]
        rw [ih (i + 1) (by omega), count, List.range'_succ, List.map_cons]

theorem block_indices_positions (image : Image) (inode offset length : Nat) (file : StoredFile image inode)
    (short : length < 2 ^ 31) (within : offset ≤ fileLength image inode) :
    blockIndices image inode offset length =
      (List.range' offset (min length (fileLength image inode - offset + 1))).map fun k => ((k / 4096 : Nat) : Int) := by
  have small := stored_file_small image inode file
  have wrap : (offset + length) % 2 ^ 32 - offset = length := by omega
  rw [blockIndices, if_neg (Nat.not_le.mpr file.inodeInRange), wrap,
    indices_from_positions image inode length offset file within]

theorem block_indices_in_table (image : Image) (inode offset length : Nat) (file : StoredFile image inode)
    (short : length < 2 ^ 31) (within : offset ≤ fileLength image inode) :
    (∀ index ∈ blockIndices image inode offset length, InTable index) ↔
      fileLength image inode < maxFilesize * blocksize ∨ offset + length ≤ fileLength image inode := by
  have long := file.lengthInRange
  rw [block_indices_positions image inode offset length file short within]
  simp only [List.forall_mem_map, List.mem_range'_1, InTable, maxFilesize, blocksize] at long ⊢
  constructor
  · intro all
    by_contra outside
    have last := all (fileLength image inode) ⟨within, by omega⟩
    omega
  · intro inside k range
    omega

end SimpleKernel.FileSystem
