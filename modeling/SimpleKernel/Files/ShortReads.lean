import SimpleKernel.FileSystem.Range
import SimpleKernel.Files.Delivery

set_option autoImplicit false

namespace SimpleKernel.Files

open FileSystem (Image inodeCount fileLength fileSlice BlockPresent ReadOutcome Passed readData read_data_outcome
  GoodFile read_data_good file_slice_length file_slice_take word_bound twoBlockImage two_block_length)

structure Nbytes where
  value : Nat
  int32 : value < 2 ^ 31

structure Reading where
  files : State
  delivered : List Nat

def Reading.inode (fd : Nat) (r : Reading) : Nat := (r.files.fds fd).inode.toNat

def Reading.filePos (fd : Nat) (r : Reading) : Nat := (r.files.fds fd).filePos.toNat

def Reading.read (image : Image) (fd : Nat) (r : Reading) (nbytes : Nbytes) : ReadResult :=
  (fileRead image fd nbytes.value r.files).1

def Reading.step (image : Image) (fd : Nat) (r : Reading) (nbytes : Nbytes) : Reading where
  files := (fileRead image fd nbytes.value r.files).2
  delivered := r.delivered ++ List.range' (r.filePos fd) (r.read image fd nbytes).ret.toNat

def Reading.opened (fd : Nat) (inode : UInt32) (s : State) : Reading :=
  ⟨{ s with fds := Function.update s.fds fd (markOpen .files inode.toNat (s.fds fd)) }, []⟩

structure Honest (image : Image) (fd : Nat) (r : Reading) (nbytes : Nbytes) : Prop where
  failed : (r.read image fd nbytes).ret = -1 → (r.step image fd nbytes).filePos fd = r.filePos fd
  advanced : 0 ≤ (r.read image fd nbytes).ret →
    (((r.step image fd nbytes).filePos fd : Nat) : Int) = r.filePos fd + (r.read image fd nbytes).ret ∧
      bytesRead (r.read image fd nbytes) =
        fileSlice image (r.inode fd) (r.filePos fd) (r.read image fd nbytes).ret.toNat
  once : ∀ k ∈ List.range' (r.filePos fd) (r.read image fd nbytes).ret.toNat, k ∉ r.delivered
  notEarly : 0 < nbytes.value → (r.read image fd nbytes).ret = 0 → fileLength image (r.inode fd) ≤ r.filePos fd

-- The inode exists, no byte behind position 2^31 is asked for, and the blocks
-- of the byte at file_pos and of the next one, as far as the call gets there,
-- are blocks of the image. A gap further on only makes the call return less.
def Readable (image : Image) (fd : Nat) (r : Reading) (nbytes : Nbytes) : Prop :=
  r.inode fd < inodeCount image ∧ min (r.filePos fd + nbytes.value) (fileLength image (r.inode fd) + 1) ≤ 2 ^ 31 ∧
    (nbytes.value = 0 ∨ (BlockPresent image (r.inode fd) (r.filePos fd) ∧
      (nbytes.value = 1 ∨ r.filePos fd = fileLength image (r.inode fd) ∨
        BlockPresent image (r.inode fd) (r.filePos fd + 1))))

instance (image : Image) (fd : Nat) (r : Reading) (nbytes : Nbytes) : Decidable (Readable image fd r nbytes) :=
  inferInstanceAs (Decidable (_ ∧ _))

structure Tracked (image : Image) (fd inode : Nat) (r : Reading) : Prop where
  sameInode : r.inode fd = inode
  within : r.filePos fd ≤ fileLength image inode
  delivered : ∀ k ∈ r.delivered, k < r.filePos fd

theorem step_inode (image : Image) (fd : Nat) (r : Reading) (nbytes : Nbytes) :
    (r.step image fd nbytes).inode fd = r.inode fd := by
  simp only [Reading.inode, Reading.step, fileRead, Function.update_self]

theorem step_file_pos (image : Image) (fd : Nat) (r : Reading) (nbytes : Nbytes) :
    (((r.step image fd nbytes).filePos fd : Nat) : Int) = (r.filePos fd + (r.read image fd nbytes).ret) % 2 ^ 32 := by
  simp only [Reading.filePos, Reading.step, Reading.read, fileRead, Function.update_self, UInt32.toNat_ofNat']
  omega

theorem read_eq (image : Image) (fd : Nat) (r : Reading) (nbytes : Nbytes) :
    r.read image fd nbytes = readData image (r.inode fd) (r.filePos fd) nbytes.value := by
  have small := nbytes.int32
  have same : ((nbytes.value : Int) % 2 ^ 32).toNat = nbytes.value := by omega
  simp only [Reading.read, fileRead, same]
  rfl

theorem read_invalid (image : Image) (fd : Nat) (r : Reading) (nbytes : Nbytes) (invalid : inodeCount image ≤ r.inode fd) :
    (r.read image fd nbytes).ret = -1 := by
  rw [read_eq, readData, if_pos invalid]

theorem read_outcome (image : Image) (fd inode : Nat) (r : Reading) (nbytes : Nbytes) (tracked : Tracked image fd inode r)
    (valid : inode < inodeCount image) (small : min (r.filePos fd + nbytes.value) (fileLength image inode + 1) ≤ 2 ^ 31) :
    ReadOutcome image inode (r.filePos fd) nbytes.value (r.filePos fd) (r.read image fd nbytes) := by
  rw [read_eq, tracked.sameInode]
  exact read_data_outcome image inode (r.filePos fd) nbytes.value valid nbytes.int32 tracked.within small

-- A failure steps the position back: -1 is added to it like a count of bytes.
theorem failed_moves (image : Image) (fd : Nat) (r : Reading) (nbytes : Nbytes)
    (failed : (r.read image fd nbytes).ret = -1) : (r.step image fd nbytes).filePos fd ≠ r.filePos fd := by
  have moved := step_file_pos image fd r nbytes
  have word := (r.files.fds fd).filePos.toNat_lt
  rw [failed] at moved
  simp only [Reading.filePos] at moved word ⊢
  omega

theorem counted_honest (image : Image) (fd inode count : Nat) (r : Reading) (nbytes : Nbytes)
    (tracked : Tracked image fd inode r) (within : r.filePos fd + count ≤ fileLength image inode)
    (ret : (r.read image fd nbytes).ret = count)
    (stored : (r.read image fd nbytes).stored.take count = fileSlice image inode (r.filePos fd) count)
    (notEarly : 0 < nbytes.value → count = 0 → fileLength image inode ≤ r.filePos fd) :
    Honest image fd r nbytes ∧ Tracked image fd inode (r.step image fd nbytes) := by
  have moved := step_file_pos image fd r nbytes
  have word : fileLength image inode < 2 ^ 32 := word_bound image _
  rw [ret] at moved
  have next : (r.step image fd nbytes).filePos fd = r.filePos fd + count := by omega
  constructor
  · exact {
      failed := fun negative => by omega
      advanced := fun _ => by
        rw [next, ret, tracked.sameInode, bytesRead, ret, Int.toNat_natCast, stored]
        exact ⟨Int.natCast_add _ _, rfl⟩
      once := fun k member delivered => by
        have above := (List.mem_range'_1.mp member).1
        have below := tracked.delivered k delivered
        omega
      notEarly := fun asked zero => by
        rw [tracked.sameInode]
        exact notEarly asked (by omega) }
  · exact {
      sameInode := (step_inode image fd r nbytes).trans tracked.sameInode
      within := by
        rw [next]
        exact within
      delivered := fun k member => by
        rw [next]
        simp only [Reading.step, ret, Int.toNat_natCast, List.mem_append, List.mem_range'_1] at member
        cases member with
        | inl earlier =>
            have below := tracked.delivered k earlier
            omega
        | inr fresh => exact fresh.2 }

theorem readable_honest (image : Image) (fd inode : Nat) (r : Reading) (nbytes : Nbytes)
    (tracked : Tracked image fd inode r) (readable : Readable image fd r nbytes) :
    Honest image fd r nbytes ∧ Tracked image fd inode (r.step image fd nbytes) := by
  obtain ⟨valid, small, blocks⟩ := readable
  rw [tracked.sameInode] at valid small blocks
  have outcome := read_outcome image fd inode r nbytes tracked valid small
  generalize known : r.read image fd nbytes = result at outcome
  cases outcome with
  | finished passed =>
      apply counted_honest image fd inode nbytes.value r nbytes tracked passed.within
      · rw [known]
        dsimp only
        omega
      · rw [known]
        exact file_slice_take image inode _ _ _ (Nat.le_refl _)
      · intro asked zero
        omega
  | ended count early passed atEnd here =>
      apply counted_honest image fd inode count r nbytes tracked passed.within
      · rw [known]
        dsimp only
        omega
      · rw [known]
        exact file_slice_take image inode _ _ _ (Nat.le_succ count)
      · intro asked zero
        omega
  | blocked count early passed missing =>
      have within := passed.within
      have two : 2 ≤ count := by
        rcases blocks with none | ⟨first, rest⟩
        · omega
        · by_contra few
          cases count with
          | zero => exact missing first
          | succ more =>
              have one : more = 0 := by omega
              subst one
              rcases rest with single | last | second
              · omega
              · omega
              · exact missing second
      apply counted_honest image fd inode (count - 1) r nbytes tracked (by omega)
      · rw [known]
        dsimp only
        omega
      · rw [known]
        exact file_slice_take image inode _ _ _ (by omega)
      · intro asked zero
        omega

theorem honest_readable (image : Image) (fd inode : Nat) (r : Reading) (nbytes : Nbytes)
    (tracked : Tracked image fd inode r) (short : fileLength image inode < 2 ^ 31) (honest : Honest image fd r nbytes) :
    Readable image fd r nbytes := by
  have notFailed : (r.read image fd nbytes).ret ≠ -1 := fun failed =>
    failed_moves image fd r nbytes failed (honest.failed failed)
  have valid : inode < inodeCount image := by
    by_contra invalid
    rw [← tracked.sameInode] at invalid
    exact notFailed (read_invalid image fd r nbytes (Nat.not_lt.mp invalid))
  have small : min (r.filePos fd + nbytes.value) (fileLength image inode + 1) ≤ 2 ^ 31 := by omega
  have notEarly := honest.notEarly
  have outcome := read_outcome image fd inode r nbytes tracked valid small
  rw [Readable, tracked.sameInode]
  rw [tracked.sameInode] at notEarly
  refine ⟨valid, small, ?_⟩
  generalize r.read image fd nbytes = result at outcome notFailed notEarly
  cases outcome with
  | finished passed =>
      by_cases none : nbytes.value = 0
      · exact Or.inl none
      · right
        refine ⟨passed.present _ (Nat.le_refl _) (by omega), ?_⟩
        by_cases one : nbytes.value = 1
        · exact Or.inl one
        · exact Or.inr (Or.inr (passed.present _ (by omega) (by omega)))
  | ended count early passed atEnd here =>
      right
      cases count with
      | zero => exact ⟨here, Or.inr (Or.inl atEnd)⟩
      | succ more =>
          refine ⟨passed.present _ (Nat.le_refl _) (by omega), Or.inr (Or.inr ?_)⟩
          by_cases one : more = 0
          · subst one
            exact here
          · exact passed.present _ (by omega) (by omega)
  | blocked count early passed missing =>
      have within := passed.within
      dsimp only at notFailed notEarly
      have two : 2 ≤ count := by
        by_contra few
        have one : count = 1 := by omega
        have reached := notEarly (by omega) (by omega)
        omega
      right
      exact ⟨passed.present _ (Nat.le_refl _) (by omega), Or.inr (Or.inr (passed.present _ (by omega) (by omega)))⟩

theorem opened_tracked (image : Image) (fd : Nat) (inode : UInt32) (s : State) :
    Tracked image fd inode.toNat (Reading.opened fd inode s) where
  sameInode := by simp [Reading.inode, Reading.opened, markOpen]
  within := by simp [Reading.filePos, Reading.opened, markOpen]
  delivered := fun k member => absurd member List.not_mem_nil

def gapImage : Image := fun address => if address = 4 ∨ address = 4096 then 1 else 0

def blankState : State := ⟨fun _ => ⟨none, 0, 0, 0⟩, 0, ⟨0, 0⟩⟩

theorem failure_moves_position : ¬ Honest gapImage 2 (Reading.opened 2 0 blankState) ⟨1, by decide⟩ := by
  intro honest
  have kept := honest.failed (by decide +kernel)
  revert kept
  decide +kernel

theorem short_reads_exact (image : Image) (fd : Nat) (inode : UInt32) (s : State) (reads : List Nbytes) :
    (Run.Guarded (Reading.step image fd) (Readable image fd) (Reading.opened fd inode s) reads →
        ∀ before nbytes after, reads = before ++ nbytes :: after →
          Honest image fd (Run.final (Reading.step image fd) (Reading.opened fd inode s) before) nbytes) ∧
      (fileLength image inode.toNat < 2 ^ 31 →
        (∀ before nbytes after, reads = before ++ nbytes :: after →
          Honest image fd (Run.final (Reading.step image fd) (Reading.opened fd inode s) before) nbytes) →
        Run.Guarded (Reading.step image fd) (Readable image fd) (Reading.opened fd inode s) reads) := by
  rw [Run.each_iff_guarded (Reading.step image fd) (Honest image fd)]
  have start := opened_tracked image fd inode s
  constructor
  · exact Run.guarded_law (Reading.step image fd) (Readable image fd) (Honest image fd) (Tracked image fd inode.toNat)
      (fun r nbytes tracked readable => (readable_honest image fd inode.toNat r nbytes tracked readable).2)
      (fun r nbytes tracked readable => (readable_honest image fd inode.toNat r nbytes tracked readable).1)
      (Reading.opened fd inode s) reads start
  · intro short
    exact Run.guarded_law (Reading.step image fd) (Honest image fd) (Readable image fd) (Tracked image fd inode.toNat)
      (fun r nbytes tracked honest => (readable_honest image fd inode.toNat r nbytes tracked
        (honest_readable image fd inode.toNat r nbytes tracked short honest)).2)
      (fun r nbytes tracked => honest_readable image fd inode.toNat r nbytes tracked short)
      (Reading.opened fd inode s) reads start

def firstRead : Reading := Reading.step twoBlockImage 2 (Reading.opened 2 0 blankState) ⟨4094, by decide⟩

theorem first_read_pos : firstRead.filePos 2 = 4094 := by
  have good : GoodFile twoBlockImage 0 := ⟨by decide +kernel, by decide +kernel, by
    rw [two_block_length]
    decide +kernel⟩
  have ret : ((Reading.opened 2 0 blankState).read twoBlockImage 2 ⟨4094, by decide⟩).ret = 4094 := by
    rw [read_eq]
    change (readData twoBlockImage 0 0 4094).ret = 4094
    rw [read_data_good twoBlockImage 0 0 4094 good (Nat.zero_le _) (by decide), two_block_length]
    rfl
  have moved := step_file_pos twoBlockImage 2 (Reading.opened 2 0 blankState) ⟨4094, by decide⟩
  rw [ret] at moved
  exact Int.ofNat.inj moved

theorem first_read_inode : firstRead.inode 2 = 0 :=
  (step_inode twoBlockImage 2 (Reading.opened 2 0 blankState) ⟨4094, by decide⟩).trans rfl

theorem short_reads_exact_two_blocks :
    Honest twoBlockImage 2 firstRead ⟨4, by decide⟩ ∧
      bytesRead (firstRead.read twoBlockImage 2 ⟨4, by decide⟩) = [97, 97, 98, 98] ∧
        Run.Guarded (Reading.step twoBlockImage 2) (Readable twoBlockImage 2) (Reading.opened 2 0 blankState)
          [⟨4094, by decide⟩, ⟨4, by decide⟩] := by
  have second : Readable twoBlockImage 2 firstRead ⟨4, by decide⟩ := by
    rw [Readable, first_read_inode, first_read_pos]
    decide +kernel
  have exact := short_reads_exact twoBlockImage 2 0 blankState [⟨4094, by decide⟩, ⟨4, by decide⟩]
  have honest := exact.1 ⟨by decide +kernel, second, trivial⟩
  refine ⟨honest [⟨4094, by decide⟩] ⟨4, by decide⟩ [] rfl, ?_, exact.2 (by decide +kernel) honest⟩
  rw [read_eq, first_read_inode, first_read_pos]
  decide +kernel

end SimpleKernel.Files
