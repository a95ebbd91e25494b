import SimpleKernel.FileSystem.Range
import SimpleKernel.Paging.Stores
import SimpleKernel.Process.Calls

set_option autoImplicit false

namespace SimpleKernel.Process

open BitField (get)
open FileSystem (Image StoredFile BlockPresent fileLength fileByte fileSlice readData setLength file_slice_get
  file_slice_length stored_file_outcome stored_file_missing set_length_file set_length_word)
open Paging (Layout Word Tables Memory Call walk userAddress translate storeBytes withBytes initPaging pageSwitch lastPage
  videoMapped present vidmapIdx size4kb size4mb size8mb size128mb size132mb userAdd page_switch_user
  page_switch_entry_fields user_address_big translate_big store_bytes_linear store_bytes_some with_bytes_get walk_some
  calls_mapped last_page_concat video_mapped_concat)

-- read_data(inode_num, 0, (uint8_t *)(SIZE_128MB + 0x48000), 1023 * 4096)
def loadAddress : Word := BitVec.ofNat 32 (size128mb + loadOffset)

def loadBytes (image : Image) (program : Program) : List UInt8 := (readData image program.inodeNum 0 (1023 * 4096)).stored

def loader (layout : Layout) (other : Nat → Nat → Word) (image : Image) (program : Program) (tables : Tables)
    (memory : Memory) :
    Option Memory :=
  storeBytes layout other tables loadAddress (loadBytes image program) memory

def loaderStores (image : Image) (program : Program) : List Nat :=
  List.range' (size128mb + loadOffset) (loadBytes image program).length

structure LoadsFile (layout : Layout) (other : Nat → Nat → Word) (image : Image) (program : Program) (tables : Tables)
    (memory : Memory) : Prop where
  stored : ∃ filled, loader layout other image program tables memory = some filled ∧
    ∀ k < fileLength image program.inodeNum,
      (userAddress layout other tables (BitVec.ofNat 32 (userAdd + k))).map filled = some (fileByte image program.inodeNum k)
  inside : ∀ address ∈ loaderStores image program, size128mb ≤ address ∧ address < size132mb

-- The byte behind the text is stored too, unless its block is none of the image.
def FitsOwnPage (image : Image) (inode : Nat) : Prop :=
  loadOffset + fileLength image inode < size4mb ∨
    (loadOffset + fileLength image inode = size4mb ∧ ¬ BlockPresent image inode (fileLength image inode))

def loadLength (image : Image) (inode : Nat) : Nat :=
  if fileLength image inode < 1023 * 4096 ∧ BlockPresent image inode (fileLength image inode) then fileLength image inode + 1
  else fileLength image inode

theorem fits_page_iff (image : Image) (program : Program) (paging : Tables) : fitsPage image program paging = true ↔
    loadOffset + (loadBytes image program).length ≤
      if get present (paging.pageDirectory vidmapIdx) = 1 then size4mb + size4kb else size4mb := by
  rw [fitsPage, decide_eq_true_eq, loadBytes]

theorem load_bytes_slice (image : Image) (program : Program) (file : StoredFile image program.inodeNum) :
    loadBytes image program = fileSlice image program.inodeNum 0 (loadLength image program.inodeNum) := by
  have long := file.lengthInRange
  simp only [FileSystem.maxFilesize, FileSystem.blocksize] at long
  have outcome := stored_file_outcome image program.inodeNum 0 (1023 * 4096) file (by decide) (Nat.zero_le _)
  rw [loadBytes, loadLength]
  generalize readData image program.inodeNum 0 (1023 * 4096) = result at outcome ⊢
  cases outcome with
  | finished passed =>
      have within := passed.within
      have full : fileLength image program.inodeNum = 1023 * 4096 := by omega
      rw [full, if_neg (fun both => Nat.lt_irrefl _ both.1)]
  | ended count early passed atEnd here =>
      have same : count = fileLength image program.inodeNum := by omega
      rw [atEnd] at here
      rw [if_pos ⟨by omega, here⟩, same]
  | blocked count early passed missing =>
      have last := stored_file_missing image program.inodeNum 0 count file passed missing
      have same : count = fileLength image program.inodeNum := by omega
      rw [last] at missing
      rw [if_neg (fun both => missing both.2), same]

theorem load_length_fits (image : Image) (inode : Nat) :
    loadOffset + loadLength image inode ≤ size4mb ↔ FitsOwnPage image inode := by
  rw [loadLength, FitsOwnPage]
  simp only [loadOffset, size4mb]
  by_cases more : fileLength image inode < 1023 * 4096 ∧ BlockPresent image inode (fileLength image inode)
  · rw [if_pos more]
    constructor
    · intro fits
      exact Or.inl (by omega)
    · rintro (less | ⟨_, missing⟩)
      · omega
      · exact absurd more.2 missing
  · rw [if_neg more]
    constructor
    · intro fits
      cases Nat.lt_or_eq_of_le fits with
      | inl less => exact Or.inl less
      | inr same => exact Or.inr ⟨same, fun here => more ⟨by omega, here⟩⟩
    · rintro (less | ⟨same, _⟩)
      · exact Nat.le_of_lt less
      · exact Nat.le_of_eq same

theorem load_length_covers (image : Image) (inode : Nat) : fileLength image inode ≤ loadLength image inode := by
  rw [loadLength]
  split
  · exact Nat.le_succ _
  · exact Nat.le_refl _

theorem load_address_nat : loadAddress.toNat = userAdd := by decide

theorem launch_paging (image : Image) (exeData : Bytes) (caller : Caller) (creator : Option Slot) (q j : Slot)
    (command : CString) (program : Program) (m : Machine)
    (found : findProgram image exeData (firstWord command) = some program)
    (free : freeSlot m.pcbState = some j) :
    (m.launch image exeData caller creator q command).2.paging = pageSwitch j.val m.paging := by
  rw [Machine.launch, found]
  dsimp only
  rw [free]
  dsimp only
  split <;> rfl

theorem launch_fits (image : Image) (exeData : Bytes) (caller : Caller) (creator : Option Slot) (q j : Slot)
    (command : CString) (program : Program) (m : Machine)
    (found : findProgram image exeData (firstWord command) = some program)
    (free : freeSlot m.pcbState = some j) (fits : fitsPage image program m.paging = true) :
    m.launch image exeData caller creator q command =
      (true, m.start caller creator q j (arguments command) program.entryAddress) := by
  rw [Machine.launch, found]
  dsimp only
  rw [free]
  dsimp only
  rw [if_pos fits]

section Frame

variable (layout : Layout) (other : Nat → Nat → Word) (image : Image) (program : Program) (j : Slot) (paging : Tables)

def frameBase (j : Slot) : Nat := (2 + j.val) * 2 ^ 22 + loadOffset

theorem loader_translates (k : Nat) (inside : loadOffset + k < size4mb) :
    translate layout other (pageSwitch j.val paging) (loadAddress + BitVec.ofNat 32 k) = some (frameBase j + k) ∧
      userAddress layout other (pageSwitch j.val paging) (BitVec.ofNat 32 (userAdd + k)) = some (frameBase j + k) := by
  have slot := j.isLt
  have fields := page_switch_entry_fields j.val (paging.pageDirectory 32) (by omega) (by omega)
  rw [← page_switch_user j.val paging (by omega) (by omega)] at fields
  obtain ⟨here, big, user, address⟩ := fields
  simp only [loadOffset, size4mb] at inside
  have user22 : (userAdd + k) / 2 ^ 22 = 32 ∧ (userAdd + k) % 2 ^ 22 = loadOffset + k := by
    simp only [userAdd, loadOffset]
    omega
  have place : (BitVec.ofNat 32 (userAdd + k)).toNat = userAdd + k := by
    rw [BitVec.toNat_ofNat]
    simp only [userAdd]
    omega
  rw [frameBase, Nat.add_assoc, ← user22.2]
  constructor
  · have entry : (loadAddress.toNat + k) / 2 ^ 22 = 32 := by rw [load_address_nat, user22.1]
    have bound : loadAddress.toNat + k < 2 ^ 32 := by
      rw [load_address_nat, userAdd]
      omega
    rw [translate_big layout other _ loadAddress 32 k entry bound here big, address, load_address_nat, Int.toNat_natCast]
  · have entry : (BitVec.ofNat 32 (userAdd + k)).toNat / 2 ^ 22 = 32 := by rw [place, user22.1]
    rw [user_address_big layout other _ _ 32 j.val entry here big user address, place]

theorem loader_inside (memory : Memory) (fits : loadOffset + (loadBytes image program).length ≤ size4mb) :
    loader layout other image program (pageSwitch j.val paging) memory =
      some (withBytes (frameBase j) (loadBytes image program) memory) := by
  apply store_bytes_linear
  intro k inside
  exact (loader_translates layout other j paging k (by omega)).1

theorem loader_stores_inside : (∀ address ∈ loaderStores image program, size128mb ≤ address ∧ address < size132mb) ↔
    loadOffset + (loadBytes image program).length ≤ size4mb := by
  simp only [loaderStores, List.mem_range'_1, size128mb, size132mb, loadOffset, size4mb]
  constructor
  · intro inside
    by_contra more
    have last := inside (0x8048000 + ((loadBytes image program).length - 1)) (by omega)
    omega
  · intro fits address range
    omega

theorem loads_file_iff (memory : Memory) (file : StoredFile image program.inodeNum) :
    LoadsFile layout other image program (pageSwitch j.val paging) memory ↔ FitsOwnPage image program.inodeNum := by
  have slice := load_bytes_slice image program file
  have length : (loadBytes image program).length = loadLength image program.inodeNum := by rw [slice, file_slice_length]
  have covers := load_length_covers image program.inodeNum
  rw [← load_length_fits image program.inodeNum, ← length]
  constructor
  · intro loads
    exact (loader_stores_inside image program).mp loads.inside
  · intro fits
    refine ⟨⟨_, loader_inside layout other image program j paging memory fits, ?_⟩,
      (loader_stores_inside image program).mpr fits⟩
    intro k inside
    have below : k < (loadBytes image program).length := by omega
    rw [(loader_translates layout other j paging k (by omega)).2, Option.map_some, with_bytes_get _ _ _ k below, slice,
      file_slice_get, if_pos (by omega), Nat.zero_add]

end Frame

theorem video_present (layout : Layout) (directory table : Nat → Word) (calls : List Call) :
    get present ((Run.final (Paging.step layout) (initPaging layout directory table) calls).pageDirectory vidmapIdx) = 1 ↔
      videoMapped calls = true := by
  have mapped := calls_mapped layout directory table calls
  cases drawn : videoMapped calls with
  | true =>
      rw [drawn] at mapped
      exact iff_of_true (mapped.videoPresent rfl).1 rfl
  | false =>
      rw [drawn] at mapped
      refine iff_of_false ?_ Bool.false_ne_true
      intro here
      exact absurd ((mapped.videoAbsent rfl).symm.trans here) Nat.zero_ne_one

theorem loader_completes (layout : Layout) (other : Nat → Nat → Word) (directory table : Nat → Word) (calls : List Call)
    (image : Image) (program : Program) (j : Slot) (memory : Memory) :
    let paging := Run.final (Paging.step layout) (initPaging layout directory table) calls
    (loader layout other image program (pageSwitch j.val paging) memory).isSome = true ↔
      fitsPage image program paging = true := by
  intro paging
  have slot := j.isLt
  have bound : (loadBytes image program).length ≤ 1023 * 4096 :=
    (FileSystem.read_data_bounds image program.inodeNum 0 (1023 * 4096) (by decide)).1
  have switched : pageSwitch j.val paging =
      Run.final (Paging.step layout) (initPaging layout directory table) (calls ++ [.pageSwitch j.val]) := by
    rw [Run.final_concat]
    rfl
  have page : lastPage (calls ++ [.pageSwitch j.val]) ≠ none := by
    have argument : Paging.pageArgument (.pageSwitch j.val) = some j.val := if_neg (by omega)
    rw [last_page_concat, argument]
    exact Option.some_ne_none j.val
  have video : videoMapped (calls ++ [.pageSwitch j.val]) = videoMapped calls := by
    rw [video_mapped_concat]
    exact Bool.or_false _
  rw [loader, store_bytes_some, fits_page_iff, if_congr (video_present layout directory table calls) rfl rfl]
  generalize (loadBytes image program).length = count at bound ⊢
  have limit : loadOffset ≤ if videoMapped calls = true then size4mb + size4kb else size4mb := by
    split <;> decide
  have mapped : ∀ k < count, (walk layout other (pageSwitch j.val paging) (loadAddress + BitVec.ofNat 32 k)).isSome = true ↔
      loadOffset + k < if videoMapped calls = true then size4mb + size4kb else size4mb := by
    intro k inside
    have place : (loadAddress + BitVec.ofNat 32 k).toNat = size128mb + (loadOffset + k) := by
      rw [BitVec.toNat_add, BitVec.toNat_ofNat, load_address_nat]
      simp only [userAdd, size128mb, loadOffset]
      omega
    have user : (size128mb + (loadOffset + k) < size132mb ∧ lastPage (calls ++ [.pageSwitch j.val]) ≠ none) ↔
        size128mb + (loadOffset + k) < size132mb := and_iff_left page
    rw [switched, walk_some, place, video, user]
    simp only [size8mb, size128mb, size132mb, size4kb, size4mb]
    cases videoMapped calls with
    | true =>
        simp only [if_true, and_true]
        omega
    | false =>
        simp only [Bool.false_eq_true, if_false, and_false, or_false]
        omega
  generalize (if videoMapped calls = true then size4mb + size4kb else size4mb) = pages at limit mapped ⊢
  constructor
  · intro all
    by_contra more
    have last := (mapped (count - 1) (by omega)).mp (all (count - 1) (by omega))
    omega
  · intro fits k inside
    exact (mapped k inside).mpr (by omega)

def shellOf (length : Nat) : Image := setLength length shellImage

theorem shell_of_file (length : Nat) (long : length ≤ 1023 * 4096) (inodes : 0 < FileSystem.inodeCount (shellOf length))
    (blocks : 0 < FileSystem.dataCount (shellOf length)) : StoredFile (shellOf length) 0 := by
  refine set_length_file length shellImage long inodes blocks ?_
  intro address low high
  rw [shellImage, if_neg (by omega), if_neg (by omega), if_neg (by omega), if_neg (by omega), if_neg (by omega)]

def longShell : Image := shellOf 3899393

theorem long_shell_file : StoredFile longShell 0 :=
  shell_of_file 3899393 (by decide) (by decide +kernel) (by decide +kernel)

theorem long_shell_count : (loadBytes longShell ⟨0, 0⟩).length = 3899394 := by
  have length : fileLength longShell 0 = 3899393 := set_length_word 3899393 shellImage (by decide)
  have block : BlockPresent longShell 0 3899393 := by decide +kernel
  rw [load_bytes_slice longShell ⟨0, 0⟩ long_shell_file, file_slice_length, loadLength]
  dsimp only
  rw [length, if_pos ⟨by decide, block⟩]

def afterVidmap : Machine :=
  { shellBoot with paging := (Paging.vidmap default (BitVec.ofNat 32 size128mb) shellBoot.paging).paging }

theorem long_shell_passes_page :
    let started := afterVidmap.launch longShell (fun _ => 0) .syscall (some firstSlot) firstSlot shellCommand
    StoredFile longShell 0 ∧ findProgram longShell (fun _ => 0) (firstWord shellCommand) = some ⟨0, 0⟩ ∧
      started.2.control = .user 1 ∧ size132mb ∈ loaderStores longShell ⟨0, 0⟩ ∧
      ∀ memory, ¬ LoadsFile default (fun _ _ => 0) longShell ⟨0, 0⟩ started.2.paging memory := by
  intro started
  have found : findProgram longShell (fun _ => 0) (firstWord shellCommand) = some ⟨0, 0⟩ := by decide +kernel
  have free : freeSlot afterVidmap.pcbState = some 1 := by decide +kernel
  have video : get present (afterVidmap.paging.pageDirectory vidmapIdx) = 1 := by decide +kernel
  have fits : fitsPage longShell ⟨0, 0⟩ afterVidmap.paging = true := by
    rw [fits_page_iff, long_shell_count, if_pos video]
    decide
  have last : size132mb ∈ loaderStores longShell ⟨0, 0⟩ := by
    rw [loaderStores, long_shell_count, List.mem_range'_1]
    decide
  have control : started.2.control = .user 1 := by
    have outcome : started = (true, afterVidmap.start .syscall (some firstSlot) firstSlot 1 (arguments shellCommand) 0) :=
      launch_fits longShell (fun _ => 0) .syscall (some firstSlot) firstSlot 1 shellCommand ⟨0, 0⟩ afterVidmap found free fits
    rw [outcome]
    rfl
  refine ⟨long_shell_file, found, control, last, ?_⟩
  intro memory loads
  exact absurd (loads.inside size132mb last).2 (Nat.lt_irrefl _)

theorem loads_file_exact (layout : Layout) (other : Nat → Nat → Word) (image : Image) (exeData : Bytes) (caller : Caller)
    (creator : Option Slot) (q j : Slot) (command : CString) (program : Program) (m : Machine) (memory : Memory)
    (found : findProgram image exeData (firstWord command) = some program) (free : freeSlot m.pcbState = some j)
    (file : StoredFile image program.inodeNum) :
    LoadsFile layout other image program (m.launch image exeData caller creator q command).2.paging memory ↔
      FitsOwnPage image program.inodeNum := by
  rw [launch_paging image exeData caller creator q j command program m found free]
  exact loads_file_iff layout other image program j m.paging memory file

theorem loads_file_exact_shell :
    LoadsFile default (fun _ _ => 0) (shellOf 28) ⟨0, 0⟩
      (shellBoot.launch (shellOf 28) (fun _ => 0) .syscall (some firstSlot) firstSlot shellCommand).2.paging fun _ => 0 := by
  have file : StoredFile (shellOf 28) 0 := shell_of_file 28 (by decide) (by decide +kernel) (by decide +kernel)
  refine (loads_file_exact default (fun _ _ => 0) (shellOf 28) (fun _ => 0) .syscall (some firstSlot) firstSlot 1 shellCommand
    ⟨0, 0⟩ shellBoot (fun _ => 0) (by decide +kernel) (by decide +kernel) file).mpr (Or.inl ?_)
  decide +kernel

end SimpleKernel.Process
