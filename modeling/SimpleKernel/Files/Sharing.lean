import SimpleKernel.Files.Table

set_option autoImplicit false

namespace SimpleKernel.Files

open FileSystem (Image directoryOpen directoryRead directory_read_entry paddedName entryName dirCount entry_name_length)

-- Any number of processes, each with its own table, over the shared devices.
-- `reads` counts the directory reads on a descriptor since its own open,
-- `together` those of all processes since any directory was last opened.
structure System (Pid : Type) where
  tables : Pid → Table
  devices : Devices
  reads : Pid → Nat → Nat
  together : Nat

inductive Event (Pid : Type) where
  | start (pid : Pid)
  | open (pid : Pid) (filename : Option CString)
  | close (pid : Pid) (fd : Int)
  | read (pid : Pid) (fd : Int) (buf : Nat) (nbytes : Int) (line : Nat → UInt8)

variable {Pid : Type} [DecidableEq Pid]

def System.seen (sys : System Pid) (pid : Pid) : State := ⟨sys.tables pid, sys.devices⟩

def System.leave (sys : System Pid) (pid : Pid) (s : State) : System Pid :=
  { sys with tables := Function.update sys.tables pid s.fds, devices := s.devices }

def System.count (sys : System Pid) (pid : Pid) (fd number : Nat) : System Pid :=
  { sys with reads := Function.update sys.reads pid (Function.update (sys.reads pid) fd number) }

def ReadsDirectory (fds : Table) (fd : Int) (buf : Nat) : Prop :=
  0 ≤ fd ∧ fd ≤ 7 ∧ buf ≠ 0 ∧ fd ≠ 1 ∧ (fds fd.toNat).flags ≠ 0 ∧ (fds fd.toNat).fopsPtr = some .directory

instance (fds : Table) (fd : Int) (buf : Nat) : Decidable (ReadsDirectory fds fd buf) :=
  inferInstanceAs (Decidable (_ ∧ _))

def System.open (image : Image) (sys : System Pid) (pid : Pid) (filename : Option CString) : System Pid :=
  let opened := sysOpen image filename (sys.seen pid)
  let next := sys.leave pid opened.2
  if opened.1 = -1 then next
  else
    let fresh := next.count pid opened.1.toNat 0
    if (opened.2.fds opened.1.toNat).fopsPtr = some .directory then { fresh with together := 0 } else fresh

def System.read (image : Image) (sys : System Pid) (pid : Pid) (fd : Int) (buf : Nat) (nbytes : Int)
    (line : Nat → UInt8) : System Pid :=
  let next := sys.leave pid (sysRead image line fd buf nbytes (sys.seen pid)).2
  if ReadsDirectory (sys.tables pid) fd buf then
    { next.count pid fd.toNat (sys.reads pid fd.toNat + 1) with together := sys.together + 1 }
  else next

def System.step (image : Image) (sys : System Pid) : Event Pid → System Pid
  | .start pid => { sys with tables := Function.update sys.tables pid (executeFds (sys.tables pid)) }
  | .open pid filename => sys.open image pid filename
  | .close pid fd => sys.leave pid (sysClose fd (sys.seen pid)).2
  | .read pid fd buf nbytes line => sys.read image pid fd buf nbytes line

def GivesOwnEntry (image : Image) (sys : System Pid) : Event Pid → Prop
  | .read pid fd buf nbytes line =>
      ReadsDirectory (sys.tables pid) fd buf → sys.reads pid fd.toNat < dirCount image →
        (sysRead image line fd buf nbytes (sys.seen pid)).1 =
          ⟨paddedName (entryName image (sys.reads pid fd.toNat)), (entryName image (sys.reads pid fd.toNat)).length⟩
  | _ => True

def OwnTurn (image : Image) (sys : System Pid) : Event Pid → Prop
  | .read pid fd buf _ _ =>
      ReadsDirectory (sys.tables pid) fd buf → sys.reads pid fd.toNat < dirCount image →
        sys.together % 256 = sys.reads pid fd.toNat ∨
          entryName image (sys.together % 256) = entryName image (sys.reads pid fd.toNat)
  | _ => True

def Counted (sys : System Pid) : Prop := sys.devices.numFilesRead.toNat = sys.together % 256

theorem sys_read_directory (image : Image) (line : Nat → UInt8) (fd : Int) (buf : Nat) (nbytes : Int) (s : State)
    (reads : ReadsDirectory s.fds fd buf) :
    sysRead image line fd buf nbytes s =
      (⟨paddedName (entryName image s.devices.numFilesRead.toNat),
          (entryName image s.devices.numFilesRead.toNat).length⟩,
        { s with devices := { s.devices with numFilesRead := s.devices.numFilesRead + 1 } }) := by
  obtain ⟨low, high, mapped, notOut, used, table⟩ := reads
  have inRange : ¬ (fd < 0 ∨ fd > 7 ∨ buf = 0 ∨ fd = 1) := by
    rintro (below | above | null | out)
    · exact Int.not_lt.mpr low below
    · exact Int.not_lt.mpr high above
    · exact mapped null
    · exact notOut out
  rw [sysRead, if_neg inRange, if_neg used, table]
  simp only [driverRead, directory_read_entry image buf _ mapped]

theorem sys_read_elsewhere (image : Image) (line : Nat → UInt8) (fd : Int) (buf : Nat) (nbytes : Int) (s : State)
    (other : ¬ ReadsDirectory s.fds fd buf) :
    (sysRead image line fd buf nbytes s).2.devices.numFilesRead = s.devices.numFilesRead := by
  unfold sysRead
  split
  · rfl
  · rename_i range
    split
    · rfl
    · rename_i used
      cases table : (s.fds fd.toNat).fopsPtr with
      | none => rfl
      | some fops =>
          cases fops with
          | files => rfl
          | directory =>
              refine absurd ⟨by omega, by omega, fun null => ?_, by omega, used, table⟩ other
              exact range (Or.inr (Or.inr (Or.inl null)))
          | rtc => rfl
          | stdin => rfl
          | stdout => rfl

theorem padded_name_inj (a b : List UInt8)
    (same : (⟨paddedName a, (a.length : Int)⟩ : ReadResult) = ⟨paddedName b, (b.length : Int)⟩) : a = b := by
  obtain ⟨stored, lengths⟩ := ReadResult.mk.inj same
  have length : a.length = b.length := Int.ofNat.inj lengths
  rw [paddedName, paddedName] at stored
  exact (List.append_inj stored length).1

omit [DecidableEq Pid] in
theorem read_own_entry (image : Image) (sys : System Pid) (event : Event Pid) (counted : Counted sys) :
    GivesOwnEntry image sys event ↔ OwnTurn image sys event := by
  cases event with
  | start pid => exact Iff.rfl
  | «open» pid filename => exact Iff.rfl
  | close pid fd => exact Iff.rfl
  | read pid fd buf nbytes line =>
      refine forall_congr' fun reads => forall_congr' fun _ => ?_
      have cursor : (sys.seen pid).devices.numFilesRead.toNat = sys.together % 256 := counted
      rw [sys_read_directory image line fd buf nbytes (sys.seen pid) reads, cursor]
      constructor
      · intro same
        exact Or.inr (padded_name_inj _ _ same)
      · rintro (turn | name)
        · rw [turn]
        · rw [name]

theorem open_counted (image : Image) (sys : System Pid) (pid : Pid) (filename : Option CString) (counted : Counted sys) :
    Counted (sys.open image pid filename) := by
  rcases open_cases image filename (sys.seen pid) with ⟨_, failed⟩ | ⟨name, dentry, fops, i, _, _, _, known, _, opened⟩
  · rw [System.open, failed, if_pos rfl]
    exact counted
  · have succeeds : ¬ ((i : Int) = -1) := by omega
    have table := (mark_open_fops dentry.filetype dentry.inodeNum fops (sys.tables pid i) known).1
    have slot : (Function.update (sys.seen pid).fds i (markOpen fops dentry.inodeNum ((sys.seen pid).fds i)) i).fopsPtr =
        some fops := by
      rw [Function.update_self]
      exact table.trans known
    rw [System.open, opened]
    simp only [succeeds, if_false, Int.toNat_natCast, slot]
    cases fops with
    | directory => rfl
    | files => exact counted
    | rtc => exact counted
    | stdin => exact counted
    | stdout => exact counted

theorem read_counted (image : Image) (sys : System Pid) (pid : Pid) (fd : Int) (buf : Nat) (nbytes : Int)
    (line : Nat → UInt8) (counted : Counted sys) : Counted (sys.read image pid fd buf nbytes line) := by
  by_cases reads : ReadsDirectory (sys.tables pid) fd buf
  · have cursor : sys.devices.numFilesRead.toNat = sys.together % 256 := counted
    rw [System.read, if_pos reads, sys_read_directory image line fd buf nbytes (sys.seen pid) reads]
    change (sys.devices.numFilesRead + 1).toNat = (sys.together + 1) % 256
    rw [UInt8.toNat_add, cursor]
    change (sys.together % 256 + 1) % 256 = (sys.together + 1) % 256
    omega
  · have same := sys_read_elsewhere image line fd buf nbytes (sys.seen pid) reads
    rw [System.read, if_neg reads, Counted, System.leave, same]
    exact counted

theorem close_devices (fd : Int) (s : State) : (sysClose fd s).2.devices = s.devices := by
  rcases close_cases fd s with ⟨_, closed⟩ | ⟨_, refused⟩
  · rw [closed]
  · rw [refused]

theorem step_counted (image : Image) (sys : System Pid) (event : Event Pid) (counted : Counted sys) :
    Counted (sys.step image event) := by
  cases event with
  | start pid => exact counted
  | «open» pid filename => exact open_counted image sys pid filename counted
  | close pid fd =>
      rw [System.step, Counted, System.leave, close_devices]
      exact counted
  | read pid fd buf nbytes line => exact read_counted image sys pid fd buf nbytes line counted

def System.boot (old : Pid → Table) (rtc : Rtc) : System Pid where
  tables := fun pid => executeFds (old pid)
  devices := ⟨directoryOpen, rtc⟩
  reads := fun _ _ => 0
  together := 0

theorem directory_reads_exact (image : Image) (old : Pid → Table) (rtc : Rtc) (events : List (Event Pid)) :
    (∀ before event after, events = before ++ event :: after →
        GivesOwnEntry image (Run.final (System.step image) (System.boot old rtc) before) event) ↔
      Run.Guarded (System.step image) (OwnTurn image) (System.boot old rtc) events := by
  rw [Run.each_iff_guarded (System.step image) (GivesOwnEntry image)]
  exact Run.guarded_congr (System.step image) (GivesOwnEntry image) (OwnTurn image) Counted
    (fun sys event counted _ => step_counted image sys event counted) (read_own_entry image) _ events rfl

def directoryImage : Image := fun address =>
  if address = 0 then 2
  else if address = 64 then 46
  else if address = 96 then 1
  else if address = 128 then 98
  else if address = 160 then 2
  else 0

def dot : CString := ⟨[46], by simp⟩

def freshTables (_ : Nat) : Table := fun _ => ⟨none, 0, 0, 0⟩

def openedTwice : List (Event Nat) := [.open 0 (some dot), .read 0 2 1 33 (fun _ => 0), .open 1 (some dot)]

theorem second_open_repeats :
    ¬ GivesOwnEntry directoryImage
      (Run.final (System.step directoryImage) (System.boot freshTables ⟨0, 0⟩) openedTwice)
      (.read 0 2 1 33 (fun _ => 0)) := by
  intro own
  have result := own (by decide +kernel) (by decide +kernel)
  revert result
  decide +kernel

end SimpleKernel.Files
