import SimpleKernel.Files.Table

set_option autoImplicit false

namespace SimpleKernel.Files

open FileSystem (Image Dentry readDentryByName readData GoodFile fileLength fileSlice fileContent inodeCount word_bound
  read_data_good file_slice_length file_slice_take file_slice_append)

def bytesRead (result : ReadResult) : List UInt8 := result.stored.take result.ret.toNat

def deliveredAfter (call : Call) (result : ReadResult) (i : Nat) (earlier : List UInt8) : List UInt8 :=
  match call with
  | .open _ => if result.ret = i then [] else earlier
  | .read fd _ _ _ => if fd = i then earlier ++ bytesRead result else earlier
  | _ => earlier

def deliveredOn : List (Call × ReadResult) → Nat → List UInt8
  | [], _ => []
  | entry :: rest, i => deliveredAfter entry.1 entry.2 i (deliveredOn rest i)

def askedAfter (call : Call) (ret : Int) (i earlier : Nat) : Nat :=
  match call with
  | .open _ => if ret = i then 0 else earlier
  | .read fd buf nbytes _ => if fd = i ∧ buf ≠ 0 then earlier + nbytes.toNat else earlier
  | _ => earlier

def askedOn : List (Call × ReadResult) → Nat → Nat
  | [], _ => 0
  | entry :: rest, i => askedAfter entry.1 entry.2.ret i (askedOn rest i)

def LengthOk : Call → Prop
  | .read _ _ nbytes _ => 0 ≤ nbytes ∧ nbytes < 2 ^ 31
  | _ => True

def Elsewhere (i : Nat) : Call → Prop
  | .close fd => fd ≠ i
  | .read fd _ _ _ => fd ≠ i
  | _ => True

def OpenFile (image : Image) (log : List (Call × ReadResult)) (i : Nat) (dentry : Dentry) : Prop :=
  (∃ name, openedOn log i = some name ∧ readDentryByName image name = some dentry) ∧ dentry.filetype = 2 ∧
    GoodFile image dentry.inodeNum

structure FileSlot (image : Image) (slot : FileDescriptor) (file asked : Nat) (delivered : List UInt8) : Prop where
  inode : slot.inode.toNat = file
  filePos : slot.filePos.toNat = min asked (fileLength image file)
  delivered : delivered = fileSlice image file 0 (min asked (fileLength image file))

structure DeliveryInv (image : Image) (p : Process) : Prop where
  table : TableInv image p.files.fds p.log
  files : ∀ i dentry, OpenFile image p.log i dentry →
    FileSlot image (p.files.fds i) dentry.inodeNum (askedOn p.log i) (deliveredOn p.log i)

theorem file_slot_opened (image : Image) (inode : Nat) (slot : FileDescriptor) (good : GoodFile image inode) :
    FileSlot image (markOpen .files inode slot) inode 0 [] where
  inode := by
    have bound := word_bound image 4
    have inside := good.inodeInRange
    have small : inode < 2 ^ 32 := Nat.lt_trans inside bound
    simp only [markOpen, UInt32.toNat_ofNat']
    exact Nat.mod_eq_of_lt small
  filePos := by simp [markOpen]
  delivered := by simp [fileSlice]

theorem file_slot_read (image : Image) (slot : FileDescriptor) (inode asked : Nat) (delivered : List UInt8) (nbytes : Int)
    (good : GoodFile image inode) (fileSlot : FileSlot image slot inode asked delivered) (least : 0 ≤ nbytes)
    (most : nbytes < 2 ^ 31) :
    readData image slot.inode.toNat slot.filePos.toNat (nbytes % 2 ^ 32).toNat =
      ⟨fileSlice image inode (min asked (fileLength image inode))
          (min nbytes.toNat (fileLength image inode - min asked (fileLength image inode) + 1)),
        (min nbytes.toNat (fileLength image inode - min asked (fileLength image inode)) : Nat)⟩ := by
  have length : (nbytes % 2 ^ 32).toNat = nbytes.toNat := by omega
  rw [fileSlot.inode, fileSlot.filePos, length]
  exact read_data_good image inode _ nbytes.toNat good (Nat.min_le_right _ _) (by omega)

theorem file_read_slot (image : Image) (fd inode asked : Nat) (delivered : List UInt8) (nbytes : Int) (s : State)
    (good : GoodFile image inode) (fileSlot : FileSlot image (s.fds fd) inode asked delivered) (least : 0 ≤ nbytes)
    (most : nbytes < 2 ^ 31) :
    FileSlot image ((fileRead image fd nbytes s).2.fds fd) inode (asked + nbytes.toNat)
      (delivered ++ bytesRead (fileRead image fd nbytes s).1) := by
  have result := file_slot_read image (s.fds fd) inode asked delivered nbytes good fileSlot least most
  have long := good.lengthInRange
  have sum : min asked (fileLength image inode) +
      min nbytes.toNat (fileLength image inode - min asked (fileLength image inode)) =
        min (asked + nbytes.toNat) (fileLength image inode) := by omega
  exact {
    inode := by
      simp only [fileRead, Function.update_self]
      exact fileSlot.inode
    filePos := by
      simp only [fileRead, Function.update_self, result]
      rw [fileSlot.filePos, UInt32.toNat_ofNat']
      omega
    delivered := by
      simp only [fileRead, bytesRead, result, Int.toNat_natCast]
      rw [fileSlot.delivered, file_slice_take image inode _ _ _ (by omega)]
      have joined := file_slice_append image inode 0 (min asked (fileLength image inode))
        (min nbytes.toNat (fileLength image inode - min asked (fileLength image inode)))
      rw [Nat.zero_add, sum] at joined
      exact joined }

theorem sys_read_file (image : Image) (line : Nat → UInt8) (i buf : Nat) (nbytes : Int) (s : State) (least : 2 ≤ i)
    (most : i ≤ 7) (mapped : buf ≠ 0) (used : (s.fds i).flags = 1) (table : (s.fds i).fopsPtr = some .files) :
    sysRead image line i buf nbytes s = fileRead image i nbytes s := by
  have inUse : ¬ (s.fds i).flags = 0 := by
    rw [used]
    decide
  have range : ¬ ((i : Int) < 0 ∨ (i : Int) > 7 ∨ buf = 0 ∨ (i : Int) = 1) := by omega
  simp only [sysRead, if_neg range, Int.toNat_natCast, if_neg inUse, table, driverRead]

theorem sys_read_null (image : Image) (line : Nat → UInt8) (fd : Int) (nbytes : Int) (s : State) :
    sysRead image line fd 0 nbytes s = (⟨[], -1⟩, s) := by
  rw [sysRead, if_pos (by omega)]

theorem open_file_slot (image : Image) (p : Process) (i : Nat) (dentry : Dentry) (table : TableInv image p.files.fds p.log)
    (opened : OpenFile image p.log i dentry) :
    2 ≤ i ∧ i ≤ 7 ∧ (p.files.fds i).flags = 1 ∧ (p.files.fds i).fopsPtr = some .files := by
  obtain ⟨⟨name, named, found⟩, regular, _⟩ := opened
  have inside : 2 ≤ i ∧ i ≤ 7 := by
    by_contra out
    have absent := table.outside i (by omega)
    rw [named] at absent
    cases absent
  have slot := table.slots i inside.1 inside.2
  rw [named] at slot
  obtain ⟨again, same, _, used, fops⟩ := slot
  have equal : again = dentry := Option.some.inj (same.symm.trans found)
  rw [equal, regular] at fops
  exact ⟨inside.1, inside.2, used, fops⟩

theorem delivery_same (image : Image) (p : Process) (call : Call) (i : Nat) (dentry : Dentry) (inv : DeliveryInv image p)
    (slot : (p.step image call).files.fds i = p.files.fds i)
    (named : openedOn (p.step image call).log i = openedOn p.log i)
    (asked : askedOn (p.step image call).log i = askedOn p.log i)
    (delivered : deliveredOn (p.step image call).log i = deliveredOn p.log i)
    (opened : OpenFile image (p.step image call).log i dentry) :
    FileSlot image ((p.step image call).files.fds i) dentry.inodeNum (askedOn (p.step image call).log i)
      (deliveredOn (p.step image call).log i) := by
  rw [OpenFile, named] at opened
  rw [slot, asked, delivered]
  exact inv.files i dentry opened

theorem open_delivery (image : Image) (filename : Option CString) (p : Process) (inv : DeliveryInv image p) (i : Nat)
    (dentry : Dentry) (opened : OpenFile image (p.step image (.open filename)).log i dentry) :
    FileSlot image ((p.step image (.open filename)).files.fds i) dentry.inodeNum
      (askedOn (p.step image (.open filename)).log i) (deliveredOn (p.step image (.open filename)).log i) := by
  rcases open_cases image filename p.files with ⟨_, result⟩ | ⟨name, entry, fops, k, named, _, found, known, _, result⟩
  · have other : ¬ (-1 : Int) = (i : Int) := by omega
    refine delivery_same image p _ i dentry inv ?_ ?_ ?_ ?_ opened
    · simp only [Process.step, perform, result]
    · simp only [Process.step, perform, result, openedOn, openedAfter, if_neg other]
    · simp only [Process.step, perform, result, askedOn, askedAfter, if_neg other]
    · simp only [Process.step, perform, result, deliveredOn, deliveredAfter, if_neg other]
  · by_cases here : k = i
    · subst here
      subst named
      obtain ⟨⟨again, same, found'⟩, regular, good⟩ := opened
      simp only [Process.step, perform, result, openedOn, openedAfter, if_pos, Option.some.injEq] at same
      subst same
      have equal : entry = dentry := Option.some.inj (found.symm.trans found')
      subst equal
      rw [regular] at known
      cases known
      simp only [Process.step, perform, result, askedOn, askedAfter, deliveredOn, deliveredAfter, if_pos,
        Function.update_self]
      exact file_slot_opened image entry.inodeNum (p.files.fds k) good
    · have other : ¬ (k : Int) = (i : Int) := by omega
      refine delivery_same image p _ i dentry inv ?_ ?_ ?_ ?_ opened
      · simp only [Process.step, perform, result, Function.update_of_ne (Ne.symm here)]
      · simp only [Process.step, perform, result, openedOn, openedAfter, if_neg other]
      · simp only [Process.step, perform, result, askedOn, askedAfter, if_neg other]
      · simp only [Process.step, perform, result, deliveredOn, deliveredAfter, if_neg other]

theorem close_delivery (image : Image) (fd : Int) (p : Process) (inv : DeliveryInv image p) (i : Nat) (dentry : Dentry)
    (opened : OpenFile image (p.step image (.close fd)).log i dentry) :
    FileSlot image ((p.step image (.close fd)).files.fds i) dentry.inodeNum (askedOn (p.step image (.close fd)).log i)
      (deliveredOn (p.step image (.close fd)).log i) := by
  rcases close_cases fd p.files with ⟨⟨low, high, _⟩, result⟩ | ⟨_, result⟩
  · by_cases here : fd = (i : Int)
    · obtain ⟨⟨name, named, _⟩, _⟩ := opened
      simp only [Process.step, perform, result, openedOn, openedAfter, and_true, if_pos here, reduceCtorEq] at named
    · have different : i ≠ fd.toNat := by omega
      refine delivery_same image p _ i dentry inv ?_ ?_ rfl rfl opened
      · simp only [Process.step, perform, result, Function.update_of_ne different]
      · simp only [Process.step, perform, result, openedOn, openedAfter, and_true, if_neg here]
  · have failed : ¬ (fd = (i : Int) ∧ (-1 : Int) = 0) := fun both => by omega
    refine delivery_same image p _ i dentry inv ?_ ?_ rfl rfl opened
    · simp only [Process.step, perform, result]
    · simp only [Process.step, perform, result, openedOn, openedAfter, if_neg failed]

theorem read_delivery (image : Image) (line : Nat → UInt8) (fd : Int) (buf : Nat) (nbytes : Int) (p : Process)
    (inv : DeliveryInv image p) (length : LengthOk (.read fd buf nbytes line)) (i : Nat) (dentry : Dentry)
    (opened : OpenFile image (p.step image (.read fd buf nbytes line)).log i dentry) :
    FileSlot image ((p.step image (.read fd buf nbytes line)).files.fds i) dentry.inodeNum
      (askedOn (p.step image (.read fd buf nbytes line)).log i)
      (deliveredOn (p.step image (.read fd buf nbytes line)).log i) := by
  have before : OpenFile image p.log i dentry := opened
  have fileSlot := inv.files i dentry before
  by_cases here : fd = (i : Int)
  · subst here
    by_cases mapped : buf = 0
    · subst mapped
      have refused : ¬ (True ∧ ¬ True) := fun both => both.2 trivial
      simp only [Process.step, perform, sys_read_null, askedOn, askedAfter, deliveredOn, deliveredAfter, if_pos, bytesRead,
        List.take_nil, List.append_nil, ne_eq, if_neg refused]
      exact fileSlot
    · obtain ⟨least, most, used, table⟩ := open_file_slot image p i dentry inv.table before
      have result := sys_read_file image line i buf nbytes p.files least most mapped used table
      simp only [Process.step, perform, result, askedOn, askedAfter, deliveredOn, deliveredAfter, if_pos, ne_eq, mapped,
        not_false_eq_true, and_self]
      exact file_read_slot image i dentry.inodeNum _ _ nbytes p.files before.2.2 fileSlot length.1 length.2
  · have slots := read_slots image line fd buf nbytes p.files i
    refine delivery_same image p _ i dentry inv (slots.2.2.2 (Ne.symm here)) rfl ?_ ?_ opened
    · have other : ¬ (fd = (i : Int) ∧ buf ≠ 0) := fun both => here both.1
      simp only [Process.step, askedOn, askedAfter, if_neg other]
    · simp only [Process.step, deliveredOn, deliveredAfter, if_neg here]

theorem step_delivery (image : Image) (p : Process) (call : Call) (inv : DeliveryInv image p) (length : LengthOk call) :
    DeliveryInv image (p.step image call) where
  table := step_inv image p call inv.table
  files := fun i dentry opened => by
    cases call with
    | «open» filename => exact open_delivery image filename p inv i dentry opened
    | close fd => exact close_delivery image fd p inv i dentry opened
    | read fd buf nbytes line => exact read_delivery image line fd buf nbytes p inv length i dentry opened
    | write fd buf frequency nbytes =>
        have fds := write_fds fd buf frequency nbytes p.files
        exact delivery_same image p _ i dentry inv (congrFun fds i) rfl rfl rfl opened
    | elsewhere devices => exact delivery_same image p _ i dentry inv rfl rfl rfl rfl opened

theorem start_delivery (image : Image) (old : Table) (devices : Devices) : DeliveryInv image (start old devices) where
  table := start_inv image old devices
  files := fun _ _ opened => by
    obtain ⟨⟨_, named, _⟩, _⟩ := opened
    cases named

theorem calls_delivery (image : Image) (old : Table) (devices : Devices) (calls : List Call)
    (lengths : ∀ call ∈ calls, LengthOk call) :
    DeliveryInv image (Run.final (Process.step image) (start old devices) calls) :=
  Run.guarded_invariant (Process.step image) (fun _ call => LengthOk call) (DeliveryInv image) (step_delivery image)
    (start old devices) calls (start_delivery image old devices)
    (Run.guarded_all (Process.step image) LengthOk (start old devices) calls lengths)

-- The contract of one open file: the bytes delivered, the end of file,
-- and that calls on other descriptors have no part in it.
structure Delivers (image : Image) (p : Process) (i : Nat) (file : Nat) : Prop where
  content : deliveredOn p.log i = (fileContent image file).take (min (askedOn p.log i) (fileLength image file))
  endOfFile : ∀ (buf : Nat) (nbytes : Int) (line : Nat → UInt8), buf ≠ 0 → 0 < nbytes → nbytes < 2 ^ 31 →
    ((sysRead image line i buf nbytes p.files).1.ret = 0 ↔ deliveredOn p.log i = fileContent image file)
  frame : ∀ call, Elsewhere i call → (p.step image call).files.fds i = p.files.fds i ∧
    openedOn (p.step image call).log i = openedOn p.log i ∧ deliveredOn (p.step image call).log i = deliveredOn p.log i ∧
    askedOn (p.step image call).log i = askedOn p.log i

theorem elsewhere_frame (image : Image) (p : Process) (i : Nat) (call : Call) (used : ¬ Unused p.files.fds i)
    (away : Elsewhere i call) :
    (p.step image call).files.fds i = p.files.fds i ∧ openedOn (p.step image call).log i = openedOn p.log i ∧
      deliveredOn (p.step image call).log i = deliveredOn p.log i ∧ askedOn (p.step image call).log i = askedOn p.log i := by
  cases call with
  | «open» filename =>
      rcases open_cases image filename p.files with ⟨_, result⟩ | ⟨_, _, _, k, _, _, _, _, smallest, result⟩
      · have other : ¬ (-1 : Int) = (i : Int) := by omega
        simp only [Process.step, perform, result, openedOn, openedAfter, deliveredOn, deliveredAfter, askedOn, askedAfter,
          if_neg other, and_self]
      · have different : i ≠ k := fun same => used (same ▸ smallest.2.2.1)
        have other : ¬ (k : Int) = (i : Int) := by omega
        simp only [Process.step, perform, result, openedOn, openedAfter, deliveredOn, deliveredAfter, askedOn, askedAfter,
          if_neg other, Function.update_of_ne different, and_self]
  | close fd =>
      have other : ¬ fd = (i : Int) := away
      rcases close_cases fd p.files with ⟨⟨low, _, _⟩, result⟩ | ⟨_, result⟩
      · have different : i ≠ fd.toNat := by omega
        simp only [Process.step, perform, result, openedOn, openedAfter, deliveredOn, deliveredAfter, askedOn, askedAfter,
          other, false_and, if_false, Function.update_of_ne different, and_self]
      · simp only [Process.step, perform, result, openedOn, openedAfter, deliveredOn, deliveredAfter, askedOn, askedAfter,
          other, false_and, if_false, and_self]
  | read fd buf nbytes line =>
      have other : ¬ fd = (i : Int) := away
      refine ⟨(read_slots image line fd buf nbytes p.files i).2.2.2 (Ne.symm other), rfl, ?_, ?_⟩
      · simp only [Process.step, deliveredOn, deliveredAfter, if_neg other]
      · simp only [Process.step, askedOn, askedAfter, other, false_and, if_false]
  | write fd buf frequency nbytes => exact ⟨congrFun (write_fds fd buf frequency nbytes p.files) i, rfl, rfl, rfl⟩
  | elsewhere devices => exact ⟨rfl, rfl, rfl, rfl⟩

theorem inv_delivers (image : Image) (p : Process) (i : Nat) (dentry : Dentry) (inv : DeliveryInv image p)
    (opened : OpenFile image p.log i dentry) : Delivers image p i dentry.inodeNum := by
  obtain ⟨least, most, used, table⟩ := open_file_slot image p i dentry inv.table opened
  have fileSlot := inv.files i dentry opened
  have good := opened.2.2
  exact {
    content := by
      rw [fileSlot.delivered, fileContent, file_slice_take image dentry.inodeNum 0 _ _ (Nat.min_le_right _ _)]
    endOfFile := fun buf nbytes line mapped positive bounded => by
      have result := file_slot_read image _ _ _ _ nbytes good fileSlot (by omega) bounded
      rw [sys_read_file image line i buf nbytes p.files least most mapped used table]
      simp only [fileRead, result]
      constructor
      · intro zero
        have whole : min (askedOn p.log i) (fileLength image dentry.inodeNum) = fileLength image dentry.inodeNum := by omega
        rw [fileSlot.delivered, whole, fileContent]
      · intro whole
        have lengths := congrArg List.length whole
        rw [fileSlot.delivered, fileContent, file_slice_length, file_slice_length] at lengths
        omega
    frame := fun call => elsewhere_frame image p i call fun unused => by
      rw [Unused, used] at unused
      cases unused }

theorem file_descriptor_delivers (image : Image) (old : Table) (devices : Devices) (calls : List Call)
    (lengths : ∀ call ∈ calls, LengthOk call) (i : Nat) (dentry : Dentry)
    (opened : OpenFile image (Run.final (Process.step image) (start old devices) calls).log i dentry) :
    Delivers image (Run.final (Process.step image) (start old devices) calls) i dentry.inodeNum :=
  inv_delivers image _ i dentry (calls_delivery image old devices calls lengths) opened

def twoByteImage : Image := fun address =>
  if address = 0 ∨ address = 4 ∨ address = 8 then 1
  else if address = 64 then 97
  else if address = 96 ∨ address = 4096 then 2
  else if address = 8192 then 104
  else if address = 8193 then 105
  else 0

def nameA : CString := ⟨[97], by simp⟩

def twoByteCalls : List Call := [.open (some nameA), .read 2 1 1 (fun _ => 0), .read 2 1 5 (fun _ => 0)]

def twoByteProcess : Process :=
  Run.final (Process.step twoByteImage) (start (fun _ => ⟨none, 0, 0, 0⟩) ⟨0, ⟨0, 0⟩⟩) twoByteCalls

theorem two_byte_good : GoodFile twoByteImage 0 where
  inodeInRange := by decide +kernel
  lengthInRange := by decide +kernel
  blocksInRange := by decide +kernel

theorem file_descriptor_delivers_two_bytes :
    Delivers twoByteImage twoByteProcess 2 0 ∧ deliveredOn twoByteProcess.log 2 = [104, 105] := by
  have named : openedOn twoByteProcess.log 2 = some nameA := by decide +kernel
  have found : readDentryByName twoByteImage nameA = some ⟨97 :: List.replicate 31 0, 2, 0⟩ := by decide +kernel
  have lengths : ∀ call ∈ twoByteCalls, LengthOk call := by
    simp [twoByteCalls, LengthOk]
  exact ⟨file_descriptor_delivers twoByteImage _ _ twoByteCalls lengths 2 ⟨97 :: List.replicate 31 0, 2, 0⟩
    ⟨⟨nameA, named, found⟩, rfl, two_byte_good⟩, by decide +kernel⟩

end SimpleKernel.Files
