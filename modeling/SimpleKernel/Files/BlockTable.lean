import SimpleKernel.FileSystem.Indices
import SimpleKernel.Files.ShortReads

set_option autoImplicit false

namespace SimpleKernel.Files

open FileSystem (Image StoredFile fileLength maxFilesize blocksize blockIndices InTable block_indices_in_table
  stored_file_small stored_file_outcome stored_file_missing oneByteImage one_byte_file setLength set_length_word
  set_length_file)

def TableSafe (image : Image) (fd : Nat) (r : Reading) (nbytes : Nbytes) : Prop :=
  ∀ index ∈ blockIndices image (r.inode fd) (r.filePos fd) nbytes.value, InTable index

def ShortOfEnd (image : Image) (fd : Nat) (r : Reading) (nbytes : Nbytes) : Prop :=
  fileLength image (r.inode fd) < maxFilesize * blocksize ∨
    r.filePos fd + nbytes.value ≤ fileLength image (r.inode fd)

instance (image : Image) (fd : Nat) (r : Reading) (nbytes : Nbytes) : Decidable (ShortOfEnd image fd r nbytes) :=
  inferInstanceAs (Decidable (_ ∨ _))

-- A failed read of an empty file leaves file_pos at 2^32 - 1 for good.
structure Bounded (image : Image) (fd inode : Nat) (r : Reading) : Prop where
  sameInode : r.inode fd = inode
  position : r.filePos fd ≤ fileLength image inode ∨ (r.filePos fd = 2 ^ 32 - 1 ∧ fileLength image inode = 0)

theorem table_safe_iff (image : Image) (fd inode : Nat) (r : Reading) (nbytes : Nbytes) (file : StoredFile image inode)
    (bounded : Bounded image fd inode r) : TableSafe image fd r nbytes ↔ ShortOfEnd image fd r nbytes := by
  have short := nbytes.int32
  rw [TableSafe, ShortOfEnd, bounded.sameInode]
  rcases bounded.position with within | ⟨lost, empty⟩
  · exact block_indices_in_table image inode _ _ file short within
  · have none : (r.filePos fd + nbytes.value) % 2 ^ 32 - r.filePos fd = 0 := by omega
    refine iff_of_true ?_ (Or.inl (by rw [empty]; decide))
    rw [blockIndices, if_neg (Nat.not_le.mpr file.inodeInRange), none]
    exact fun index member => absurd member List.not_mem_nil

theorem read_lost (image : Image) (fd inode : Nat) (r : Reading) (nbytes : Nbytes) (file : StoredFile image inode)
    (same : r.inode fd = inode) (lost : r.filePos fd = 2 ^ 32 - 1) : (r.read image fd nbytes).ret = 0 := by
  have short := nbytes.int32
  have none : (2 ^ 32 - 1 + nbytes.value) % 2 ^ 32 - (2 ^ 32 - 1) = 0 := by omega
  rw [read_eq, same, lost, FileSystem.readData, if_neg (Nat.not_le.mpr file.inodeInRange), none]
  rfl

theorem step_bounded (image : Image) (fd inode : Nat) (r : Reading) (nbytes : Nbytes) (file : StoredFile image inode)
    (bounded : Bounded image fd inode r) : Bounded image fd inode (r.step image fd nbytes) where
  sameInode := (step_inode image fd r nbytes).trans bounded.sameInode
  position := by
    have moved := step_file_pos image fd r nbytes
    have small := stored_file_small image inode file
    rcases bounded.position with within | ⟨lost, empty⟩
    · have outcome := stored_file_outcome image inode (r.filePos fd) nbytes.value file nbytes.int32 within
      rw [read_eq, bounded.sameInode] at moved
      generalize FileSystem.readData image inode (r.filePos fd) nbytes.value = result at outcome moved
      cases outcome with
      | finished passed =>
          have inside := passed.within
          dsimp only at moved
          omega
      | ended count early passed atEnd here =>
          dsimp only at moved
          omega
      | blocked count early passed missing =>
          have last := stored_file_missing image inode _ count file passed missing
          dsimp only at moved
          omega
    · rw [read_lost image fd inode r nbytes file bounded.sameInode lost] at moved
      omega

theorem opened_bounded (image : Image) (fd : Nat) (inode : UInt32) (s : State) :
    Bounded image fd inode.toNat (Reading.opened fd inode s) :=
  ⟨(opened_tracked image fd inode s).sameInode, Or.inl (opened_tracked image fd inode s).within⟩

theorem one_byte_table (address : Nat) (low : 4100 ≤ address) (high : address < 8192) : oneByteImage address = 0 := by
  rw [oneByteImage, if_neg (by omega), if_neg (by omega)]

theorem full_file_indexes_past :
    StoredFile (setLength 4190208 oneByteImage) 0 ∧
      ¬ TableSafe (setLength 4190208 oneByteImage) 2 (Reading.opened 2 0 blankState) ⟨4190209, by decide⟩ := by
  have length := set_length_word 4190208 oneByteImage (by decide)
  have file : StoredFile (setLength 4190208 oneByteImage) 0 :=
    set_length_file 4190208 oneByteImage (by decide) (by decide +kernel) (by decide +kernel) one_byte_table
  have bounded := opened_bounded (setLength 4190208 oneByteImage) 2 0 blankState
  refine ⟨file, fun safe => ?_⟩
  have short := (table_safe_iff _ 2 0 _ _ file bounded).mp safe
  rw [ShortOfEnd, bounded.sameInode] at short
  change fileLength _ 0 < _ ∨ 0 + 4190209 ≤ fileLength _ 0 at short
  rw [length] at short
  revert short
  decide

theorem block_table_exact (image : Image) (fd : Nat) (inode : UInt32) (s : State) (reads : List Nbytes)
    (file : StoredFile image inode.toNat) :
    (∀ before nbytes after, reads = before ++ nbytes :: after →
        TableSafe image fd (Run.final (Reading.step image fd) (Reading.opened fd inode s) before) nbytes) ↔
      Run.Guarded (Reading.step image fd) (ShortOfEnd image fd) (Reading.opened fd inode s) reads := by
  rw [Run.each_iff_guarded (Reading.step image fd) (TableSafe image fd)]
  exact Run.guarded_congr (Reading.step image fd) (TableSafe image fd) (ShortOfEnd image fd) (Bounded image fd inode.toNat)
    (fun r nbytes bounded _ => step_bounded image fd inode.toNat r nbytes file bounded)
    (fun r nbytes bounded => table_safe_iff image fd inode.toNat r nbytes file bounded)
    (Reading.opened fd inode s) reads (opened_bounded image fd inode s)

theorem block_table_exact_one_byte : TableSafe oneByteImage 2 (Reading.opened 2 0 blankState) ⟨5, by decide⟩ :=
  (block_table_exact oneByteImage 2 0 blankState [⟨5, by decide⟩] one_byte_file).mpr (by decide +kernel) [] _ [] rfl

end SimpleKernel.Files
