import SimpleKernel.Files.Descriptors

set_option autoImplicit false

namespace SimpleKernel.Files

open FileSystem (Image inodeCount dataCount dataBlockNum toInt32 readData readFrom read_from_blocked read_from_stores
  read_data_bounds directoryRead
  directory_read_entry entry_name_length paddedName entryName to_int32_small)
open Keyboard (copyLoop readLine keyboardSize)

def ReadBounded (nbytes : Int) (result : ReadResult) : Prop :=
  result.ret ≤ max nbytes 0 ∧ (result.stored.length : Int) ≤ max nbytes 0

instance (nbytes : Int) (result : ReadResult) : Decidable (ReadBounded nbytes result) := inferInstanceAs (Decidable (_ ∧ _))

-- When each driver keeps to it: the terminal when the line ends within what
-- was asked for, a directory when a whole name fits, a file unless a negative
-- length makes it read forward.
def ReadSafe (image : Image) (line : Nat → UInt8) (slot : FileDescriptor) (nbytes : Int) : Fops → Prop
  | .stdin => 128 ≤ nbytes ∨ ∃ k : Nat, k < 127 ∧ (k : Int) < nbytes ∧ line k = 10
  | .directory => 33 ≤ nbytes
  | .files => 0 ≤ nbytes ∨ inodeCount image ≤ slot.inode.toNat ∨ 0 ≤ nbytes + slot.filePos.toNat ∨
      dataCount image ≤ dataBlockNum image slot.inode.toNat ((toInt32 slot.filePos.toNat).tdiv 4096)
  | .rtc => True
  | .stdout => True

theorem copy_loop_spec (keyboardBuf : Nat → UInt8) (num : Int) (left i : Nat) :
    i ≤ (copyLoop keyboardBuf num left i).2 ∧ (copyLoop keyboardBuf num left i).2 ≤ left + i ∧
      (∀ k, i ≤ k → k < (copyLoop keyboardBuf num left i).2 → (k : Int) < num ∧ keyboardBuf k ≠ 10) ∧
      ((keyboardBuf (copyLoop keyboardBuf num left i).2 = 10 ∧ ((copyLoop keyboardBuf num left i).2 : Int) < num ∧
          (copyLoop keyboardBuf num left i).1.length = (copyLoop keyboardBuf num left i).2 + 1 - i) ∨
        (((copyLoop keyboardBuf num left i).2 = left + i ∨ num ≤ (copyLoop keyboardBuf num left i).2) ∧
          (copyLoop keyboardBuf num left i).1.length = (copyLoop keyboardBuf num left i).2 - i)) := by
  induction left generalizing i with
  | zero =>
      simp only [copyLoop]
      exact ⟨Nat.le_refl i, by omega, fun k above below => by omega, Or.inr ⟨Or.inl (by omega), by simp⟩⟩
  | succ left ih =>
      by_cases more : (i : Int) < num
      · by_cases newline : keyboardBuf i = 10
        · simp only [copyLoop, if_pos more, if_pos newline]
          exact ⟨Nat.le_refl i, by omega, fun k above below => by omega, Or.inl ⟨newline, more, by simp⟩⟩
        · obtain ⟨above, below, passed, ended⟩ := ih (i + 1)
          simp only [copyLoop, if_pos more, if_neg newline, List.length_cons]
          refine ⟨by omega, by omega, fun k least less => ?_, ?_⟩
          · by_cases here : k = i
            · subst here
              exact ⟨more, newline⟩
            · exact passed k (by omega) less
          · rcases ended with ⟨stop, inside, count⟩ | ⟨stop, count⟩
            · exact Or.inl ⟨stop, inside, by omega⟩
            · exact Or.inr ⟨by omega, by omega⟩
      · simp only [copyLoop, if_neg more]
        exact ⟨Nat.le_refl i, by omega, fun k above below => by omega, Or.inr ⟨Or.inr (by omega), by simp⟩⟩

theorem read_line_bounded (line : Nat → UInt8) (nbytes : Int) :
    ReadBounded nbytes (readLine line nbytes) ↔ 128 ≤ nbytes ∨ ∃ k : Nat, k < 127 ∧ (k : Int) < nbytes ∧ line k = 10 := by
  obtain ⟨_, below, passed, ended⟩ := copy_loop_spec line nbytes keyboardSize 0
  have limit : keyboardSize = 127 := rfl
  simp only [ReadBounded, readLine]
  constructor
  · rintro ⟨ret, _⟩
    rcases ended with ⟨newline, inside, _⟩ | ⟨stop, _⟩
    · by_cases wide : 128 ≤ nbytes
      · exact Or.inl wide
      · exact Or.inr ⟨_, by omega, inside, newline⟩
    · exact Or.inl (by omega)
  · intro safe
    rcases ended with ⟨_, inside, count⟩ | ⟨stop, count⟩
    · omega
    · rcases safe with wide | ⟨k, small, asked, newline⟩
      · omega
      · exfalso
        exact (passed k (Nat.zero_le k) (by omega)).2 newline

theorem directory_read_bounded (image : Image) (buf : Nat) (numFilesRead : FileSystem.Cursor) (nbytes : Int)
    (mapped : buf ≠ 0) : ReadBounded nbytes (directoryRead image buf numFilesRead).1 ↔ 33 ≤ nbytes := by
  have short := entry_name_length image numFilesRead.toNat
  have length : (paddedName (entryName image numFilesRead.toNat)).length = 33 := by
    simp only [paddedName, List.length_append, List.length_replicate]
    omega
  rw [directory_read_entry image buf numFilesRead mapped]
  simp only [ReadBounded, length]
  omega

-- A negative length is taken as one of nearly 2^32: the loop runs unless the
-- sum wraps to a position before the start.
theorem read_data_negative (image : Image) (inode : Nat) (filePos : UInt32) (nbytes : Int) (low : -2 ^ 31 ≤ nbytes)
    (negative : nbytes < 0) :
    ReadBounded nbytes (readData image inode filePos.toNat (nbytes % 2 ^ 32).toNat) ↔
      inodeCount image ≤ inode ∨ 0 ≤ nbytes + filePos.toNat ∨
        dataCount image ≤ dataBlockNum image inode ((toInt32 filePos.toNat).tdiv 4096) := by
  have word := filePos.toNat_lt
  have limit : max nbytes 0 = 0 := by omega
  rw [ReadBounded, limit]
  by_cases missing : inodeCount image ≤ inode
  · rw [readData, if_pos missing]
    exact iff_of_true ⟨by decide, by decide⟩ (Or.inl missing)
  · rw [readData, if_neg missing]
    by_cases wraps : 0 ≤ nbytes + filePos.toNat
    · have count : (filePos.toNat + (nbytes % 2 ^ 32).toNat) % 2 ^ 32 - filePos.toNat = 0 := by omega
      have zero := to_int32_small ((filePos.toNat : Int) - filePos.toNat) (by omega) (by omega)
      rw [count, readFrom, zero]
      exact iff_of_true ⟨by dsimp only; omega, by simp⟩ (Or.inr (Or.inl wraps))
    · have room : 0 < (filePos.toNat + (nbytes % 2 ^ 32).toNat) % 2 ^ 32 - filePos.toNat := by omega
      obtain ⟨rest, count⟩ := Nat.exists_eq_add_of_lt room
      rw [count, Nat.zero_add]
      by_cases invalid : dataCount image ≤ dataBlockNum image inode ((toInt32 filePos.toNat).tdiv 4096)
      · have failed := to_int32_small ((filePos.toNat : Int) - filePos.toNat - 1) (by omega) (by omega)
        rw [read_from_blocked image inode _ rest _ invalid, failed]
        exact iff_of_true ⟨by dsimp only; omega, by simp⟩ (Or.inr (Or.inr invalid))
      · have stores := read_from_stores image inode filePos.toNat rest filePos.toNat invalid
        refine iff_of_false (fun bounded => ?_) ?_
        · have none := bounded.2
          omega
        · rintro (absent | wrapped | blocked)
          · exact missing absent
          · exact wraps wrapped
          · exact invalid blocked

theorem file_read_bounded (image : Image) (fd : Nat) (nbytes : Int) (s : State) (low : -2 ^ 31 ≤ nbytes)
    (high : nbytes < 2 ^ 31) :
    ReadBounded nbytes (fileRead image fd nbytes s).1 ↔ ReadSafe image (fun _ => 0) (s.fds fd) nbytes .files := by
  change ReadBounded nbytes (readData image (s.fds fd).inode.toNat (s.fds fd).filePos.toNat (nbytes % 2 ^ 32).toNat) ↔ _
  by_cases negative : nbytes < 0
  · have positive : ¬ 0 ≤ nbytes := by omega
    rw [read_data_negative image _ _ nbytes low negative]
    simp only [ReadSafe, positive, false_or]
  · have same : (((nbytes % 2 ^ 32).toNat : Nat) : Int) = nbytes := by omega
    obtain ⟨stored, _, ret⟩ := read_data_bounds image (s.fds fd).inode.toNat (s.fds fd).filePos.toNat (nbytes % 2 ^ 32).toNat
      (by omega)
    refine iff_of_true ⟨by omega, by omega⟩ (Or.inl (by omega))

theorem sys_read_driver (image : Image) (line : Nat → UInt8) (fd : Int) (buf : Nat) (nbytes : Int) (s : State) (fops : Fops)
    (low : 0 ≤ fd) (high : fd ≤ 7) (notStdout : fd ≠ 1) (mapped : buf ≠ 0) (inUse : (s.fds fd.toNat).flags ≠ 0)
    (table : (s.fds fd.toNat).fopsPtr = some fops) :
    sysRead image line fd buf nbytes s = driverRead image line fops fd.toNat buf nbytes s := by
  rw [sysRead, if_neg (by omega), if_neg inUse, table]

theorem stdin_returns_more :
    ¬ ReadBounded 1 (sysRead (fun _ => 0) (fun k => if k = 0 then 97 else if k = 1 then 10 else 0) 0 1 1
      (start (fun _ => ⟨none, 0, 0, 0⟩) ⟨0, ⟨0, 0⟩⟩).files).1 := by
  decide

theorem read_bounded_exact (image : Image) (line : Nat → UInt8) (fd : Int) (buf : Nat) (nbytes : Int) (s : State)
    (fops : Fops) (low : 0 ≤ fd) (high : fd ≤ 7) (notStdout : fd ≠ 1) (mapped : buf ≠ 0)
    (inUse : (s.fds fd.toNat).flags ≠ 0) (table : (s.fds fd.toNat).fopsPtr = some fops) (least : -2 ^ 31 ≤ nbytes)
    (most : nbytes < 2 ^ 31) :
    ReadBounded nbytes (sysRead image line fd buf nbytes s).1 ↔ ReadSafe image line (s.fds fd.toNat) nbytes fops := by
  rw [sys_read_driver image line fd buf nbytes s fops low high notStdout mapped inUse table]
  cases fops with
  | files => exact file_read_bounded image fd.toNat nbytes s least most
  | directory => exact directory_read_bounded image buf s.devices.numFilesRead nbytes mapped
  | rtc => exact iff_of_true ⟨by simp [driverRead, readRtc], by simp [driverRead]⟩ trivial
  | stdin => exact read_line_bounded line nbytes
  | stdout => exact iff_of_true ⟨by simp only [driverRead]; omega, by simp [driverRead]⟩ trivial

theorem read_bounded_exact_wide :
    ReadBounded 128 (sysRead (fun _ => 0) (fun k => if k = 0 then 97 else if k = 1 then 10 else 0) 0 1 128
      (start (fun _ => ⟨none, 0, 0, 0⟩) ⟨0, ⟨0, 0⟩⟩).files).1 :=
  (read_bounded_exact (fun _ => 0) (fun k => if k = 0 then 97 else if k = 1 then 10 else 0) 0 1 128
    (start (fun _ => ⟨none, 0, 0, 0⟩) ⟨0, ⟨0, 0⟩⟩).files .stdin (by decide) (by decide) (by decide) (by decide) (by decide)
    rfl (by decide) (by decide)).mpr (Or.inl (by decide))

end SimpleKernel.Files
