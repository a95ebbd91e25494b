import SimpleKernel.FileSystem.Lookup
import SimpleKernel.Files.Delivery
import SimpleKernel.Files.ReadBounds
import SimpleKernel.Process.Arguments
import SimpleKernel.Programs.Ls

set_option autoImplicit false

namespace SimpleKernel.Programs

open FileSystem (Image Dentry GoodFile entryName fileContent fileLength fileSlice inodeCount readData readDentryByName)
open Files (FileSlot OpenFails bytesRead fileRead sysOpen sysRead)
open Grep (store text)

def catBufsize : Nat := 1024

section Cat

variable (image : Image) (line : Nat → UInt8) (buf literal : Pointer)

def catRound (fd : Int) (r : Running) : Option (Running ⊕ (Int × World)) :=
  let read := sysRead image line fd buf.val catBufsize r.world.files
  let cnt := read.1.ret
  let data := store r.data 0 read.1.stored
  let w : World := ⟨read.2, r.world.output⟩
  if cnt = 0 then some (.inr (0, w))
  else if cnt = -1 then some (.inr (3, ece391Fdputs 1 literal (text "file read failed\n") w))
  else
    let written := ece391Write 1 buf ((List.range cnt.toNat).map data) w
    if written.1 = -1 then some (.inr (3, written.2)) else some (.inl ⟨data, written.2⟩)

-- `args` is what execute has left in the PCB.
def catMain (args stack : Bytes) (fuel : Nat) (w : World) : Option (Int × World) :=
  let given := Process.getargs args (some stack) catBufsize
  let data := given.2.getD stack
  if given.1 ≠ 0 then some (3, ece391Fdputs 1 literal (text "could not read arguments\n") w)
  else
    let opened := sysOpen image (some (nameAt data catBufsize)) w.files
    let next : World := ⟨opened.2, w.output⟩
    if opened.1 = -1 then some (2, ece391Fdputs 1 literal (text "file not found\n") next)
    else Loop.run (catRound image line buf literal opened.1) fuel ⟨data, next⟩

theorem name_of_args (name : CString) (stack : Bytes) (fits : name.bytes.length < catBufsize) :
    nameAt (Process.strcpy name.bytes stack) catBufsize = name := by
  have same : nameIn (Process.strcpy name.bytes stack) catBufsize = name.bytes := by
    refine name_from_stop name.bytes catBufsize (Process.strcpy name.bytes stack) 0 name.noNul ?_ ?_ fits
    · intro k bound
      rw [Nat.zero_add, Process.strcpy, if_pos (Nat.le_of_lt bound)]
    · rw [Nat.zero_add, Process.strcpy, if_pos (Nat.le_refl _), List.getD_eq_default _ _ (Nat.le_refl _)]
  cases name
  exact CString.mk.injEq .. ▸ same

theorem cat_listing (fd : Nat) : Listing image (OpenDirectory fd) (entryName image) (catRound image line buf literal fd) := by
  constructor
  · intro r opened empty
    refine ⟨r.world.advance, ?_, rfl⟩
    rw [catRound, directory_read image line fd buf _ r.world opened, empty]
    rfl
  · intro r opened named
    have read := directory_read image line fd buf catBufsize r.world opened
    generalize entryName image r.world.cursor = name at named read ⊢
    have positive : (name.length : Int) ≠ 0 := by
      have nonempty := List.length_pos_iff.mpr named
      omega
    have succeeds : (name.length : Int) ≠ -1 := by omega
    have wrote := write_standard buf name ⟨r.world.advance.files, r.world.output⟩ opened.standard
    have listed : catRound image line buf literal fd r =
        some (.inl ⟨store r.data 0 (FileSystem.paddedName name), r.world.advance.say name⟩) := by
      simp only [catRound, read, Int.toNat_natCast, if_neg positive, if_neg succeeds, store_range _ _ _ (padded_fits name),
        padded_take, wrote]
      rfl
    exact ⟨_, listed, advance_open r.world _ fd opened, rfl, rfl⟩

structure Catting (inode fd : Nat) (before : List UInt8) (asked : Nat) (w : World) : Prop where
  standard : Standard w.files.fds
  own : 2 ≤ fd ∧ fd ≤ 7
  used : (w.files.fds fd).flags = 1
  table : (w.files.fds fd).fopsPtr = some .files
  slot : ∃ delivered, FileSlot image (w.files.fds fd) inode asked delivered ∧ w.output = before ++ delivered

theorem catting_output (inode fd : Nat) (before : List UInt8) (asked : Nat) (w : World)
    (catting : Catting image inode fd before asked w) :
    w.output = before ++ fileSlice image inode 0 (min asked (fileLength image inode)) := by
  obtain ⟨delivered, slot, output⟩ := catting.slot
  rw [output, slot.delivered]

theorem cat_round_file (inode fd : Nat) (before : List UInt8) (asked : Nat) (r : Running) (good : GoodFile image inode)
    (catting : Catting image inode fd before asked r.world) :
    (fileLength image inode ≤ asked ∧ ∃ last, catRound image line buf literal fd r = some (.inr (0, last)) ∧
      last.output = r.world.output) ∨
    (asked < fileLength image inode ∧ ∃ next, catRound image line buf literal fd r = some (.inl next) ∧
      Catting image inode fd before (asked + catBufsize) next.world) := by
  obtain ⟨delivered, slot, output⟩ := catting.slot
  have size : (catBufsize : Int).toNat = catBufsize := Int.toNat_natCast _
  have small : (catBufsize : Int) < 2 ^ 31 := by decide
  have file := Files.sys_read_file image line fd buf.val catBufsize r.world.files catting.own.1 catting.own.2 buf.property
    catting.used catting.table
  have result := Files.file_slot_read image (r.world.files.fds fd) inode asked delivered catBufsize good slot
    (Int.natCast_nonneg _) small
  have after := Files.file_read_slot image fd inode asked delivered catBufsize r.world.files good slot
    (Int.natCast_nonneg _) small
  have read : (fileRead image fd catBufsize r.world.files).1 = _ := result
  have kept : ∀ other ≠ fd, (fileRead image fd catBufsize r.world.files).2.fds other = r.world.files.fds other :=
    fun other apart => Function.update_of_ne apart _ _
  have flags : ((fileRead image fd catBufsize r.world.files).2.fds fd).flags = 1 := by
    simp only [fileRead, Function.update_self]
    exact catting.used
  have table : ((fileRead image fd catBufsize r.world.files).2.fds fd).fopsPtr = some .files := by
    simp only [fileRead, Function.update_self]
    exact catting.table
  have standard : Standard (fileRead image fd catBufsize r.world.files).2.fds :=
    standard_update _ fd _ catting.own.1 catting.standard
  rw [size] at after read
  rw [bytesRead, read, Int.toNat_natCast] at after
  generalize stored : fileSlice image inode (min asked (fileLength image inode))
    (min catBufsize (fileLength image inode - min asked (fileLength image inode) + 1)) = bytes at read after
  have held : min catBufsize (fileLength image inode - min asked (fileLength image inode)) ≤ bytes.length := by
    rw [← stored, FileSystem.file_slice_length]
    omega
  have positive : 0 < catBufsize := by decide
  rcases Nat.lt_or_ge asked (fileLength image inode) with more | done
  · refine Or.inr ⟨more, ?_⟩
    generalize count : min catBufsize (fileLength image inode - min asked (fileLength image inode)) = cnt at read after held
    have some_read : (cnt : Int) ≠ 0 := by omega
    have succeeds : (cnt : Int) ≠ -1 := by omega
    have wrote := write_standard buf (bytes.take cnt) ⟨(fileRead image fd catBufsize r.world.files).2,
      r.world.output⟩ standard
    have counted : ((bytes.take cnt).length : Int) ≠ -1 := by omega
    refine ⟨⟨store r.data 0 bytes,
      World.say (bytes.take cnt) ⟨(fileRead image fd catBufsize r.world.files).2, r.world.output⟩⟩, ?_,
      ⟨standard, catting.own, flags, table, _, after, ?_⟩⟩
    · simp only [catRound, file, read, Int.toNat_natCast, if_neg some_read, if_neg succeeds, store_range _ _ _ held, wrote,
        if_neg counted]
    · change r.world.output ++ bytes.take cnt = before ++ (delivered ++ bytes.take cnt)
      rw [output, List.append_assoc]
  · refine Or.inl ⟨done, ⟨(fileRead image fd catBufsize r.world.files).2, r.world.output⟩, ?_, rfl⟩
    have nothing :
        ((min catBufsize (fileLength image inode - min asked (fileLength image inode)) : Nat) : Int) = 0 := by
      omega
    simp only [catRound, file, read, if_pos nothing]

theorem catting_place (inode fd : Nat) (before : List UInt8) (asked : Nat) (w : World)
    (catting : Catting image inode fd before asked w) :
    (w.files.fds fd).filePos.toNat = min asked (fileLength image inode) := by
  obtain ⟨_, slot, _⟩ := catting.slot
  exact slot.filePos

theorem cat_file (inode fd : Nat) (r : Running) (good : GoodFile image inode)
    (catting : Catting image inode fd r.world.output 0 r.world) :
    Leaves (Loop.run (catRound image line buf literal fd) (fileLength image inode + 1) r) 0 r.world
      (fileContent image inode) := by
  have start := catting_place image inode fd _ 0 r.world catting
  obtain ⟨⟨status, last⟩, ended, zero, output⟩ := Loop.ends_with (catRound image line buf literal fd)
    (fun state => ∃ asked, Catting image inode fd r.world.output asked state.world)
    (fun state => fileLength image inode - (state.world.files.fds fd).filePos.toNat)
    (fun result => result.1 = 0 ∧ result.2.output = r.world.output ++ fileContent image inode)
    (by
      rintro state ⟨asked, still⟩
      have place := catting_place image inode fd _ asked state.world still
      rcases cat_round_file image line buf literal inode fd _ asked state good still with
        ⟨done, last, leaves, kept⟩ | ⟨more, next, goes, after⟩
      · refine Or.inr ⟨(0, last), leaves, rfl, ?_⟩
        rw [kept, catting_output image inode fd _ asked state.world still, Nat.min_eq_right done]
        rfl
      · have later := catting_place image inode fd _ (asked + catBufsize) next.world after
        have positive : 0 < catBufsize := by decide
        exact Or.inl ⟨next, goes, ⟨_, after⟩, by omega⟩)
    r ⟨0, catting⟩
  rw [start, Nat.zero_min, Nat.sub_zero] at ended
  exact ⟨last, by rw [ended, ← zero], output⟩

variable (name : CString) (old stack : Bytes) (w : World) (fits : name.bytes.length ≤ 127)

include fits

theorem cat_opens (fuel : Nat) :
    catMain image line buf literal (Process.strcpy name.bytes old) stack fuel w =
      if (sysOpen image (some name) w.files).1 = -1 then
        some (2, ece391Fdputs 1 literal (text "file not found\n") ⟨(sysOpen image (some name) w.files).2, w.output⟩)
      else Loop.run (catRound image line buf literal (sysOpen image (some name) w.files).1) fuel
        ⟨Process.strcpy name.bytes stack, ⟨(sysOpen image (some name) w.files).2, w.output⟩⟩ := by
  have size : (127 : Nat) < catBufsize := by decide
  have room : (name.bytes.length : Int) < catBufsize := by omega
  simp only [catMain, Process.getargs_text name.bytes old name.noNul fits stack catBufsize, if_pos room, ne_eq,
    not_true_eq_false, if_false, Option.getD_some, name_of_args name stack (by omega)]

variable (standard : Standard w.files.fds)

include standard

theorem cat_not_found (fuel : Nat) (fails : OpenFails image (some name) w.files.fds) :
    Leaves (catMain image line buf literal (Process.strcpy name.bytes old) stack fuel w) 2 w (text "file not found\n") := by
  refine ⟨w.say (text "file not found\n"), ?_, rfl⟩
  rw [cat_opens image line buf literal name old stack w fits fuel, open_refused image (some name) w.files fails, if_pos rfl,
    fdputs_standard literal _ ⟨w.files, w.output⟩ standard]

variable (dentry : Dentry) (found : readDentryByName image name = some dentry)
    (opens : ¬ OpenFails image (some name) w.files.fds)

include found opens

theorem cat_opened (fops : Files.Fops) (known : Files.fopsOf dentry.filetype = some fops) (fuel : Nat) :
    ∃ fd : Nat, 2 ≤ fd ∧ fd ≤ 7 ∧ ∃ opened : World, opened.output = w.output ∧ Standard opened.files.fds ∧
      opened.files.fds fd = Files.markOpen fops dentry.inodeNum (w.files.fds fd) ∧
      opened.files.devices = (Files.driverOpen fops w.files.devices).2 ∧
      (sysRead image line fd buf.val catBufsize opened.files =
        Files.driverRead image line fops fd buf.val catBufsize opened.files) ∧
      catMain image line buf literal (Process.strcpy name.bytes old) stack fuel w =
        Loop.run (catRound image line buf literal fd) fuel ⟨Process.strcpy name.bytes stack, opened⟩ := by
  obtain ⟨fd, ⟨low, high, _⟩, opened⟩ := open_succeeds image name w.files dentry fops found known opens
  have succeeds : ¬ (fd : Int) = -1 := by omega
  have slot : (sysOpen image (some name) w.files).2.fds fd = Files.markOpen fops dentry.inodeNum (w.files.fds fd) := by
    rw [opened]
    exact Function.update_self _ _ _
  have marked := mark_open_table fops dentry.inodeNum (w.files.fds fd)
  refine ⟨fd, low, high, ⟨(sysOpen image (some name) w.files).2, w.output⟩, rfl,
    opened_standard image (some name) w.files standard, slot, ?_, ?_, ?_⟩
  · rw [opened]
  · apply Files.sys_read_driver image line fd buf.val catBufsize _ fops (by omega) (by omega) (by omega) buf.property
    · rw [Int.toNat_natCast, slot, marked.1]
      decide
    · rw [Int.toNat_natCast, slot, marked.2]
  · rw [cat_opens image line buf literal name old stack w fits fuel, opened, if_neg succeeds]

omit fits standard opens in
theorem found_inode : (UInt32.ofNat dentry.inodeNum).toNat = dentry.inodeNum := by
  obtain ⟨k, _, same⟩ := (FileSystem.read_dentry_by_name_some image name dentry).mp found
  have small : dentry.inodeNum < 2 ^ 32 := by
    rw [same]
    exact FileSystem.word_bound image _
  rw [UInt32.toNat_ofNat']
  exact Nat.mod_eq_of_lt small

theorem cat_clock (clock : dentry.filetype = Files.rtcFiletype) (fuel : Nat) :
    Leaves (catMain image line buf literal (Process.strcpy name.bytes old) stack (fuel + 1) w) 0 w [] := by
  have known : Files.fopsOf dentry.filetype = some .rtc := by
    rw [clock]
    rfl
  obtain ⟨fd, _, _, opened, output, _, _, _, read, run⟩ :=
    cat_opened image line buf literal name old stack w fits standard dentry found opens .rtc known (fuel + 1)
  refine ⟨⟨opened.files, opened.output⟩, ?_, by rw [List.append_nil]; exact output⟩
  rw [run]
  apply Loop.run_leaves
  simp only [catRound, read, Files.driverRead, readRtc, if_true]

theorem cat_directory (directory : dentry.filetype = Files.dirFiletype) :
    (∀ e < 256, FirstEmpty image e →
      Leaves (catMain image line buf literal (Process.strcpy name.bytes old) stack (e + 1) w) 0 w
        ((List.range e).flatMap (entryName image))) ∧
    ((∀ i < 256, entryName image i ≠ []) →
      ∀ fuel, catMain image line buf literal (Process.strcpy name.bytes old) stack fuel w = none) := by
  obtain ⟨fd, result, opened, rewound, _⟩ := directory_opened image name w dentry standard found directory opens
  have listing := cat_listing image line buf literal fd
  have succeeds : ¬ (fd : Int) = -1 := by omega
  constructor
  · intro e small first
    obtain ⟨last, ended, output⟩ := listing_ends image _ _ _ listing
      ⟨Process.strcpy name.bytes stack, _⟩ opened rewound e small first
    refine ⟨last, ?_, output⟩
    rw [cat_opens image line buf literal name old stack w fits, result, if_neg succeeds]
    exact ended
  · intro full fuel
    rw [cat_opens image line buf literal name old stack w fits, result, if_neg succeeds]
    exact listing_endless image _ _ _ listing ⟨Process.strcpy name.bytes stack, _⟩ opened full fuel

theorem cat_regular (regular : dentry.filetype = Files.regFiletype) :
    (GoodFile image dentry.inodeNum →
      Leaves (catMain image line buf literal (Process.strcpy name.bytes old) stack
        (fileLength image dentry.inodeNum + 1) w) 0 w
        (fileContent image dentry.inodeNum)) ∧
    (inodeCount image ≤ dentry.inodeNum → ∀ fuel,
      Leaves (catMain image line buf literal (Process.strcpy name.bytes old) stack (fuel + 1) w) 3 w
        (text "file read failed\n")) := by
  have known : Files.fopsOf dentry.filetype = some .files := by
    rw [regular]
    rfl
  constructor
  · intro good
    obtain ⟨fd, low, high, opened, output, still, slot, _, _, run⟩ :=
      cat_opened image line buf literal name old stack w fits standard dentry found opens .files known
        (fileLength image dentry.inodeNum + 1)
    have marked := mark_open_table .files dentry.inodeNum (w.files.fds fd)
    have catting : Catting image dentry.inodeNum fd opened.output 0 opened := by
      refine ⟨still, ⟨low, high⟩, by rw [slot, marked.1], by rw [slot, marked.2], [], ?_, (List.append_nil _).symm⟩
      rw [slot]
      exact Files.file_slot_opened image dentry.inodeNum (w.files.fds fd) good
    obtain ⟨last, ended, printed⟩ := cat_file image line buf literal dentry.inodeNum fd
      ⟨Process.strcpy name.bytes stack, opened⟩ good catting
    exact ⟨last, run.trans ended, by rw [printed, ← output]⟩
  · intro invalid fuel
    obtain ⟨fd, low, _, opened, output, still, slot, _, read, run⟩ :=
      cat_opened image line buf literal name old stack w fits standard dentry found opens .files known (fuel + 1)
    have inode := found_inode image name dentry found
    have failed : (fileRead image fd catBufsize opened.files).1 = ⟨[], -1⟩ := by
      change readData image (opened.files.fds fd).inode.toNat _ _ = _
      rw [slot, readData, if_pos (by rw [Files.markOpen, inode]; exact invalid)]
    have untouched : Standard (fileRead image fd catBufsize opened.files).2.fds := standard_update _ fd _ low still
    have said := fdputs_standard literal (text "file read failed\n")
      ⟨(fileRead image fd catBufsize opened.files).2, opened.output⟩ untouched
    have nonzero : ¬ (-1 : Int) = 0 := by decide
    refine ⟨World.say (text "file read failed\n") ⟨(fileRead image fd catBufsize opened.files).2, opened.output⟩, ?_, ?_⟩
    · rw [run]
      apply Loop.run_leaves
      simp only [catRound, read, Files.driverRead, failed, if_neg nonzero, if_true, said]
    · rw [← output]
      rfl

end Cat

theorem cat_exact (image : Image) (line : Nat → UInt8) (buf literal : Pointer) (name : CString) (old stack : Bytes)
    (w : World)
    (fits : name.bytes.length ≤ 127) (standard : Standard w.files.fds) :
    (OpenFails image (some name) w.files.fds → ∀ fuel,
      Leaves (catMain image line buf literal (Process.strcpy name.bytes old) stack fuel w) 2 w (text "file not found\n")) ∧
    ∀ dentry, readDentryByName image name = some dentry → ¬ OpenFails image (some name) w.files.fds →
      (dentry.filetype = Files.rtcFiletype → ∀ fuel,
        Leaves (catMain image line buf literal (Process.strcpy name.bytes old) stack (fuel + 1) w) 0 w []) ∧
      (dentry.filetype = Files.dirFiletype →
        (∀ e < 256, FirstEmpty image e →
          Leaves (catMain image line buf literal (Process.strcpy name.bytes old) stack (e + 1) w) 0 w
            ((List.range e).flatMap (entryName image))) ∧
        ((∀ i < 256, entryName image i ≠ []) →
          ∀ fuel, catMain image line buf literal (Process.strcpy name.bytes old) stack fuel w = none)) ∧
      (dentry.filetype = Files.regFiletype →
        (GoodFile image dentry.inodeNum →
          Leaves (catMain image line buf literal (Process.strcpy name.bytes old) stack
            (fileLength image dentry.inodeNum + 1) w)
            0 w (fileContent image dentry.inodeNum)) ∧
        (inodeCount image ≤ dentry.inodeNum → ∀ fuel,
          Leaves (catMain image line buf literal (Process.strcpy name.bytes old) stack (fuel + 1) w) 3 w
            (text "file read failed\n"))) := by
  refine ⟨fun fails fuel => cat_not_found image line buf literal name old stack w fits standard fuel fails, ?_⟩
  intro dentry found opens
  exact ⟨fun clock fuel => cat_clock image line buf literal name old stack w fits standard dentry found opens clock fuel,
    fun directory => cat_directory image line buf literal name old stack w fits standard dentry found opens directory,
    fun regular => cat_regular image line buf literal name old stack w fits standard dentry found opens regular⟩

def noteName : CString := ⟨[97], List.forall_mem_singleton.mpr (by decide)⟩

theorem note_found : readDentryByName noteImage noteName = some ⟨97 :: List.replicate 31 0, 2, 0⟩ := by decide +kernel

theorem note_good : GoodFile noteImage 0 := ⟨by decide +kernel, by decide +kernel, by decide +kernel⟩

theorem cat_exact_note : Leaves (catMain noteImage (fun _ => 0) notePointer notePointer
    (Process.strcpy noteName.bytes fun _ => 0)
    (fun _ => 0) 4 noteWorld) 0 noteWorld [104, 105, 10] := by
  have opens := note_opens noteName _ (by decide) note_found (by decide)
  have printed := ((cat_exact noteImage (fun _ => 0) notePointer notePointer noteName (fun _ => 0) (fun _ => 0) noteWorld
    (by decide) note_standard).2 _ note_found opens).2.2
  have length : fileLength noteImage 0 = 3 := by decide +kernel
  have content : fileContent noteImage 0 = [104, 105, 10] := by decide +kernel
  rw [← content]
  have leaves := (printed rfl).1 note_good
  rw [show ((⟨97 :: List.replicate 31 0, 2, 0⟩ : Dentry).inodeNum) = 0 from rfl, length] at leaves
  exact leaves

end SimpleKernel.Programs
