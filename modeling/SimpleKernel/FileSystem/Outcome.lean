import SimpleKernel.FileSystem.ReadData

set_option autoImplicit false

namespace SimpleKernel.FileSystem

def BlockPresent (image : Image) (inode i : Nat) : Prop :=
  dataBlockNum image inode ((toInt32 i).tdiv 4096) < dataCount image

instance (image : Image) (inode i : Nat) : Decidable (BlockPresent image inode i) := inferInstanceAs (Decidable (_ < _))

structure Passed (image : Image) (inode i count : Nat) : Prop where
  within : i + count ≤ fileLength image inode
  present : ∀ k, i ≤ k → k < i + count → BlockPresent image inode k

-- The three ways out of the loop from a position in the file: what was asked
-- for is read, the end is met and one byte more is stored, a block is missing.
inductive ReadOutcome (image : Image) (inode offset left i : Nat) : ReadResult → Prop where
  | finished (passed : Passed image inode i left) :
      ReadOutcome image inode offset left i ⟨fileSlice image inode i left, ((i + left : Nat) : Int) - offset⟩
  | ended (count : Nat) (early : count < left) (passed : Passed image inode i count)
      (atEnd : i + count = fileLength image inode) (here : BlockPresent image inode (i + count)) :
      ReadOutcome image inode offset left i ⟨fileSlice image inode i (count + 1), ((i + count : Nat) : Int) - offset⟩
  | blocked (count : Nat) (early : count < left) (passed : Passed image inode i count)
      (missing : ¬ BlockPresent image inode (i + count)) :
      ReadOutcome image inode offset left i ⟨fileSlice image inode i count, ((i + count : Nat) : Int) - offset - 1⟩

theorem block_present_small (image : Image) (inode i : Nat) (small : i < 2 ^ 31) :
    BlockPresent image inode i ↔ dataBlockNum image inode ((i / 4096 : Nat) : Int) < dataCount image := by
  rw [BlockPresent, (signed_position i small).1]

theorem passed_none (image : Image) (inode i : Nat) (within : i ≤ fileLength image inode) : Passed image inode i 0 :=
  ⟨within, fun k above below => absurd above (by omega)⟩

theorem passed_succ (image : Image) (inode i count : Nat) (here : BlockPresent image inode i)
    (rest : Passed image inode (i + 1) count) : Passed image inode i (count + 1) where
  within := by
    have within := rest.within
    omega
  present := fun k above below => by
    by_cases first : k = i
    · rw [first]
      exact here
    · exact rest.present k (by omega) (by omega)

theorem outcome_succ (image : Image) (inode offset left i : Nat) (rest : ReadResult) (here : BlockPresent image inode i)
    (outcome : ReadOutcome image inode offset left (i + 1) rest) :
    ReadOutcome image inode offset (left + 1) i ⟨fileByte image inode i :: rest.stored, rest.ret⟩ := by
  have reach : ∀ count, i + 1 + count = i + (count + 1) := by
    intro count
    omega
  cases outcome with
  | finished passed =>
      rw [← file_slice_succ, reach left]
      exact .finished (passed_succ image inode i left here passed)
  | ended count early passed atEnd last =>
      rw [reach count] at atEnd last ⊢
      rw [← file_slice_succ]
      exact .ended (count + 1) (by omega) (passed_succ image inode i count here passed) atEnd last
  | blocked count early passed missing =>
      rw [reach count] at missing ⊢
      rw [← file_slice_succ]
      exact .blocked (count + 1) (by omega) (passed_succ image inode i count here passed) missing

-- Positions from 2^31 on are negative to the loop, so the part of the file
-- that is read has to end before.
theorem read_from_outcome (image : Image) (inode offset left i : Nat) (above : offset ≤ i)
    (short : i + left < offset + 2 ^ 31) (within : i ≤ fileLength image inode)
    (small : min (i + left) (fileLength image inode + 1) ≤ 2 ^ 31) :
    ReadOutcome image inode offset left i (readFrom image inode offset left i) := by
  induction left generalizing i with
  | zero =>
      have ret := to_int32_small ((i : Int) - offset) (by omega) (by omega)
      rw [readFrom, ret]
      exact .finished (passed_none image inode i within)
  | succ left ih =>
      have failed := to_int32_small ((i : Int) - offset - 1) (by omega) (by omega)
      have ended := to_int32_small ((i : Int) - offset) (by omega) (by omega)
      by_cases here : BlockPresent image inode i
      · have valid := (block_present_small image inode i (by omega)).mp here
        rw [read_from_succ image inode offset left i (by omega) valid]
        by_cases last : i = fileLength image inode
        · have single : fileSlice image inode i (0 + 1) = [fileByte image inode i] := file_slice_succ image inode i 0
          rw [if_pos last, ended, ← single]
          exact .ended 0 (Nat.succ_pos left) (passed_none image inode i within) last here
        · rw [if_neg last]
          exact outcome_succ image inode offset left i _ here (ih (i + 1) (by omega) (by omega) (by omega) (by omega))
      · have missing : dataCount image ≤ dataBlockNum image inode ((toInt32 i).tdiv 4096) := Nat.not_lt.mp here
        rw [read_from_blocked image inode offset left i missing, failed]
        exact .blocked 0 (Nat.succ_pos left) (passed_none image inode i within) here

theorem read_data_outcome (image : Image) (inode offset length : Nat) (valid : inode < inodeCount image)
    (short : length < 2 ^ 31) (within : offset ≤ fileLength image inode)
    (small : min (offset + length) (fileLength image inode + 1) ≤ 2 ^ 31) :
    ReadOutcome image inode offset length offset (readData image inode offset length) := by
  have wrap : (offset + length) % 2 ^ 32 - offset = length := by omega
  rw [readData, if_neg (Nat.not_le.mpr valid), wrap]
  exact read_from_outcome image inode offset length offset (Nat.le_refl offset) (by omega) within small

end SimpleKernel.FileSystem
