import SimpleKernel.Files.Descriptors
import SimpleKernel.Library.Run

set_option autoImplicit false

namespace SimpleKernel.Files

open FileSystem (Image Dentry readDentryByName)

def Unused (fds : Table) (i : Nat) : Prop := (fds i).flags = 0

def SmallestUnused (fds : Table) (i : Nat) : Prop :=
  2 ≤ i ∧ i ≤ 7 ∧ Unused fds i ∧ ∀ j, 2 ≤ j → j < i → ¬ Unused fds j

def OpenFails (image : Image) (filename : Option CString) (fds : Table) : Prop :=
  filename = none ∨ ∃ name, filename = some name ∧
    (name.bytes = [] ∨ readDentryByName image name = none ∨
      (∃ dentry, readDentryByName image name = some dentry ∧ 2 < dentry.filetype) ∨
      ∀ i, 2 ≤ i → i ≤ 7 → ¬ Unused fds i)

def Closable (fds : Table) (fd : Int) : Prop := 2 ≤ fd ∧ fd ≤ 7 ∧ ¬ Unused fds fd.toNat

def openedAfter (call : Call) (ret : Int) (i : Nat) (earlier : Option CString) : Option CString :=
  match call with
  | .open filename => if ret = i then filename else earlier
  | .close fd => if fd = i ∧ ret = 0 then none else earlier
  | _ => earlier

def openedOn : List (Call × ReadResult) → Nat → Option CString
  | [], _ => none
  | entry :: rest, i => openedAfter entry.1 entry.2.ret i (openedOn rest i)

theorem first_unused_spec (fds : Table) (left i : Nat) :
    i ≤ firstUnused fds left i ∧ firstUnused fds left i ≤ left + i ∧
      (∀ j, i ≤ j → j < firstUnused fds left i → ¬ Unused fds j) ∧
      (firstUnused fds left i < left + i → Unused fds (firstUnused fds left i)) := by
  induction left generalizing i with
  | zero =>
      simp only [firstUnused]
      exact ⟨Nat.le_refl i, by omega, fun j above below => by omega, fun below => by omega⟩
  | succ left ih =>
      by_cases free : (fds i).flags = 0
      · simp only [firstUnused, if_pos free]
        exact ⟨Nat.le_refl i, by omega, fun j above below => by omega, fun _ => free⟩
      · obtain ⟨above, below, used, found⟩ := ih (i + 1)
        simp only [firstUnused, if_neg free]
        refine ⟨by omega, by omega, fun j least less => ?_, fun inside => found (by omega)⟩
        by_cases here : j = i
        · subst here
          exact free
        · exact used j (by omega) less

theorem first_unused_smallest (fds : Table) (found : firstUnused fds 6 2 ≠ 8) : SmallestUnused fds (firstUnused fds 6 2) := by
  obtain ⟨above, below, used, free⟩ := first_unused_spec fds 6 2
  exact ⟨above, by omega, free (by omega), used⟩

theorem first_unused_full (fds : Table) : firstUnused fds 6 2 = 8 ↔ ∀ i, 2 ≤ i → i ≤ 7 → ¬ Unused fds i := by
  obtain ⟨above, below, used, free⟩ := first_unused_spec fds 6 2
  constructor
  · intro full i least most
    exact used i least (by omega)
  · intro all
    by_contra found
    obtain ⟨least, most, unused, _⟩ := first_unused_smallest fds found
    exact all _ least most unused

theorem fops_of_none (filetype : Nat) : fopsOf filetype = none ↔ 2 < filetype := by
  unfold fopsOf rtcFiletype dirFiletype regFiletype
  split
  · simp only [reduceCtorEq, false_iff]
    omega
  · split
    · simp only [reduceCtorEq, false_iff]
      omega
    · split
      · simp only [reduceCtorEq, false_iff]
        omega
      · simp only [true_iff]
        omega

theorem driver_open_succeeds (filetype : Nat) (fops : Fops) (devices : Devices) (known : fopsOf filetype = some fops) :
    (driverOpen fops devices).1 = 0 := by
  unfold fopsOf at known
  split at known
  · cases known
    rfl
  · split at known
    · cases known
      rfl
    · split at known
      · cases known
        rfl
      · cases known

theorem open_cases (image : Image) (filename : Option CString) (s : State) :
    (OpenFails image filename s.fds ∧ sysOpen image filename s = (-1, s)) ∨
      ∃ name dentry fops i, filename = some name ∧ name.bytes ≠ [] ∧ readDentryByName image name = some dentry ∧
        fopsOf dentry.filetype = some fops ∧ SmallestUnused s.fds i ∧
        sysOpen image filename s =
          ((i : Int), ⟨Function.update s.fds i (markOpen fops dentry.inodeNum (s.fds i)),
            (driverOpen fops s.devices).2⟩) := by
  cases filename with
  | none => exact Or.inl ⟨Or.inl rfl, rfl⟩
  | some name =>
      by_cases empty : name.bytes = []
      · exact Or.inl ⟨Or.inr ⟨name, rfl, Or.inl empty⟩, by rw [sysOpen, if_pos empty]⟩
      · cases found : readDentryByName image name with
        | none => exact Or.inl ⟨Or.inr ⟨name, rfl, Or.inr (Or.inl found)⟩, by simp only [sysOpen, if_neg empty, found]⟩
        | some dentry =>
            by_cases full : firstUnused s.fds 6 2 = 8
            · have all := (first_unused_full s.fds).mp full
              exact Or.inl ⟨Or.inr ⟨name, rfl, Or.inr (Or.inr (Or.inr all))⟩,
                by simp only [sysOpen, if_neg empty, found, if_pos full]⟩
            · cases known : fopsOf dentry.filetype with
              | none =>
                  have unknown := (fops_of_none dentry.filetype).mp known
                  exact Or.inl ⟨Or.inr ⟨name, rfl, Or.inr (Or.inr (Or.inl ⟨dentry, found, unknown⟩))⟩,
                    by simp only [sysOpen, if_neg empty, found, if_neg full, known]⟩
              | some fops =>
                  have opened := driver_open_succeeds dentry.filetype fops s.devices known
                  have succeeds : ¬ (driverOpen fops s.devices).1 = -1 := by
                    rw [opened]
                    decide
                  exact Or.inr ⟨name, dentry, fops, firstUnused s.fds 6 2, rfl, empty, found, known,
                    first_unused_smallest s.fds full,
                    by simp only [sysOpen, if_neg empty, found, if_neg full, known, if_neg succeeds]⟩

theorem open_fails_not_taken (image : Image) (name : CString) (dentry : Dentry) (fops : Fops) (i : Nat) (fds : Table)
    (nonempty : name.bytes ≠ []) (found : readDentryByName image name = some dentry)
    (known : fopsOf dentry.filetype = some fops) (smallest : SmallestUnused fds i) :
    ¬ OpenFails image (some name) fds := by
  rintro (absent | ⟨other, same, failure⟩)
  · cases absent
  · cases same
    rcases failure with empty | missing | ⟨unknown, again, large⟩ | full
    · exact nonempty empty
    · rw [found] at missing
      cases missing
    · rw [found] at again
      cases again
      rw [(fops_of_none dentry.filetype).mpr large] at known
      cases known
    · exact full i smallest.1 smallest.2.1 smallest.2.2.1

theorem close_cases (fd : Int) (s : State) :
    (Closable s.fds fd ∧ sysClose fd s =
        (0, { s with fds := Function.update s.fds fd.toNat { s.fds fd.toNat with flags := 0, filePos := 0, inode := 0 } })) ∨
      (¬ Closable s.fds fd ∧ sysClose fd s = (-1, s)) := by
  by_cases range : fd < 0 ∨ fd > 7 ∨ fd = 1 ∨ fd = 0
  · refine Or.inr ⟨fun closable => ?_, by rw [sysClose, if_pos range]⟩
    obtain ⟨low, high, _⟩ := closable
    omega
  · by_cases used : (s.fds fd.toNat).flags ≠ 0
    · exact Or.inl ⟨⟨by omega, by omega, used⟩, by rw [sysClose, if_neg range, if_pos used]⟩
    · exact Or.inr ⟨fun closable => used closable.2.2, by rw [sysClose, if_neg range, if_neg used]⟩

def Refused (fds : Table) (fd : Int) : Prop := fd < 0 ∨ fd > 7 ∨ Unused fds fd.toNat

theorem read_refused (image : Image) (line : Nat → UInt8) (fd : Int) (buf : Nat) (nbytes : Int) (s : State)
    (refused : Refused s.fds fd ∨ fd = 1) : sysRead image line fd buf nbytes s = (⟨[], -1⟩, s) := by
  unfold sysRead
  split
  · rfl
  · rename_i range
    have unused : (s.fds fd.toNat).flags = 0 := by
      rcases refused with (low | high | unused) | one
      · omega
      · omega
      · exact unused
      · omega
    rw [if_pos unused]

theorem read_slots (image : Image) (line : Nat → UInt8) (fd : Int) (buf : Nat) (nbytes : Int) (s : State) (i : Nat) :
    ((sysRead image line fd buf nbytes s).2.fds i).flags = (s.fds i).flags ∧
      ((sysRead image line fd buf nbytes s).2.fds i).fopsPtr = (s.fds i).fopsPtr ∧
      ((sysRead image line fd buf nbytes s).2.fds i).inode = (s.fds i).inode ∧
      ((i : Int) ≠ fd → (sysRead image line fd buf nbytes s).2.fds i = s.fds i) := by
  unfold sysRead
  split
  · exact ⟨rfl, rfl, rfl, fun _ => rfl⟩
  · rename_i range
    split
    · exact ⟨rfl, rfl, rfl, fun _ => rfl⟩
    · cases table : (s.fds fd.toNat).fopsPtr with
      | none => exact ⟨rfl, rfl, rfl, fun _ => rfl⟩
      | some fops =>
          cases fops with
          | files =>
              by_cases here : i = fd.toNat
              · subst here
                simp only [driverRead, fileRead, Function.update_self]
                exact ⟨trivial, trivial, trivial, fun different => by omega⟩
              · have kept : (driverRead image line .files fd.toNat buf nbytes s).2.fds i = s.fds i :=
                  Function.update_of_ne here _ _
                simp only [kept]
                exact ⟨trivial, trivial, trivial, fun _ => trivial⟩
          | directory => exact ⟨rfl, rfl, rfl, fun _ => rfl⟩
          | rtc => exact ⟨rfl, rfl, rfl, fun _ => rfl⟩
          | stdin => exact ⟨rfl, rfl, rfl, fun _ => rfl⟩
          | stdout => exact ⟨rfl, rfl, rfl, fun _ => rfl⟩

theorem write_fds (fd : Int) (buf : Nat) (frequency nbytes : Int) (s : State) :
    (sysWrite fd buf frequency nbytes s).2.fds = s.fds := by
  unfold sysWrite
  split
  · rfl
  · split
    · rfl
    · split <;> rfl

theorem write_refused (fd : Int) (buf : Nat) (frequency nbytes : Int) (s : State)
    (refused : Refused s.fds fd ∨ fd = 0 ∧ (s.fds 0).fopsPtr = some .stdin) :
    (sysWrite fd buf frequency nbytes s).1 = -1 := by
  unfold sysWrite
  split
  · rfl
  · rename_i range
    rcases refused with (low | high | unused) | ⟨zero, stdin⟩
    · omega
    · omega
    · have free : (s.fds fd.toNat).flags = 0 := unused
      rw [if_pos free]
    · subst zero
      simp only [Int.toNat_zero, stdin]
      split <;> rfl

theorem mark_open_fops (filetype inodeNum : Nat) (fops : Fops) (slot : FileDescriptor) (known : fopsOf filetype = some fops) :
    (markOpen fops inodeNum slot).fopsPtr = fopsOf filetype ∧ (markOpen fops inodeNum slot).flags = 1 := by
  rw [known]
  cases fops <;> exact ⟨rfl, rfl⟩

def SlotMatches (image : Image) (slot : FileDescriptor) : Option CString → Prop
  | none => slot.flags = 0
  | some name => ∃ dentry, readDentryByName image name = some dentry ∧ dentry.filetype ≤ 2 ∧ slot.flags = 1 ∧
      slot.fopsPtr = fopsOf dentry.filetype

structure TableInv (image : Image) (fds : Table) (log : List (Call × ReadResult)) : Prop where
  stdin : (fds 0).flags = 1 ∧ (fds 0).fopsPtr = some .stdin
  stdout : (fds 1).flags = 1 ∧ (fds 1).fopsPtr = some .stdout
  slots : ∀ i, 2 ≤ i → i ≤ 7 → SlotMatches image (fds i) (openedOn log i)
  outside : ∀ i, i < 2 ∨ 7 < i → openedOn log i = none

theorem slot_matches_congr (image : Image) (slot next : FileDescriptor) (opened : Option CString)
    (flags : next.flags = slot.flags) (fopsPtr : next.fopsPtr = slot.fopsPtr) (same : SlotMatches image slot opened) :
    SlotMatches image next opened := by
  cases opened with
  | none => exact flags.trans same
  | some name =>
      obtain ⟨dentry, found, known, used, table⟩ := same
      exact ⟨dentry, found, known, flags.trans used, fopsPtr.trans table⟩

theorem table_inv_same (image : Image) (fds next : Table) (log later : List (Call × ReadResult))
    (inv : TableInv image fds log) (flags : ∀ i, (next i).flags = (fds i).flags)
    (fopsPtr : ∀ i, (next i).fopsPtr = (fds i).fopsPtr) (opened : ∀ i, openedOn later i = openedOn log i) :
    TableInv image next later where
  stdin := by
    rw [flags, fopsPtr]
    exact inv.stdin
  stdout := by
    rw [flags, fopsPtr]
    exact inv.stdout
  slots := fun i least most => by
    rw [opened]
    exact slot_matches_congr image (fds i) (next i) _ (flags i) (fopsPtr i) (inv.slots i least most)
  outside := fun i out => by
    rw [opened]
    exact inv.outside i out

theorem table_inv_update (image : Image) (fds : Table) (log later : List (Call × ReadResult)) (k : Nat)
    (slot : FileDescriptor) (inv : TableInv image fds log) (least : 2 ≤ k) (most : k ≤ 7)
    (taken : SlotMatches image slot (openedOn later k)) (opened : ∀ i, i ≠ k → openedOn later i = openedOn log i) :
    TableInv image (Function.update fds k slot) later where
  stdin := by
    rw [Function.update_of_ne (by omega)]
    exact inv.stdin
  stdout := by
    rw [Function.update_of_ne (by omega)]
    exact inv.stdout
  slots := fun i low high => by
    by_cases here : i = k
    · subst here
      rw [Function.update_self]
      exact taken
    · rw [Function.update_of_ne here, opened i here]
      exact inv.slots i low high
  outside := fun i out => by
    rw [opened i (by omega)]
    exact inv.outside i out

theorem open_inv (image : Image) (filename : Option CString) (p : Process) (inv : TableInv image p.files.fds p.log) :
    TableInv image (p.step image (.open filename)).files.fds (p.step image (.open filename)).log := by
  rcases open_cases image filename p.files with ⟨_, result⟩ | ⟨name, dentry, fops, k, named, _, found, known,
    smallest, result⟩
  · refine table_inv_same image p.files.fds _ p.log _ inv (fun i => ?_) (fun i => ?_) fun i => ?_
    · simp only [Process.step, perform, result]
    · simp only [Process.step, perform, result]
    · have other : ¬ (-1 : Int) = (i : Int) := by omega
      simp only [Process.step, perform, result, openedOn, openedAfter, if_neg other]
  · have type : dentry.filetype ≤ 2 := by
      by_contra large
      rw [(fops_of_none dentry.filetype).mpr (by omega)] at known
      cases known
    have marked := mark_open_fops dentry.filetype dentry.inodeNum fops (p.files.fds k) known
    simp only [Process.step, perform, result]
    refine table_inv_update image p.files.fds p.log _ k _ inv smallest.1 smallest.2.1 ?_ fun i different => ?_
    · simp only [openedOn, openedAfter, if_pos, named]
      exact ⟨dentry, found, type, marked.2, marked.1⟩
    · have other : ¬ (k : Int) = (i : Int) := by omega
      simp only [openedOn, openedAfter, if_neg other]

theorem close_inv (image : Image) (fd : Int) (p : Process) (inv : TableInv image p.files.fds p.log) :
    TableInv image (p.step image (.close fd)).files.fds (p.step image (.close fd)).log := by
  rcases close_cases fd p.files with ⟨⟨low, high, _⟩, result⟩ | ⟨_, result⟩
  · simp only [Process.step, perform, result]
    refine table_inv_update image p.files.fds p.log _ fd.toNat _ inv (by omega) (by omega) ?_ fun i different => ?_
    · have here : fd = ((fd.toNat : Nat) : Int) := by omega
      simp only [openedOn, openedAfter, and_true, if_pos here]
      rfl
    · have other : ¬ fd = (i : Int) := fun same => different (by omega)
      simp only [openedOn, openedAfter, and_true, if_neg other]
  · refine table_inv_same image p.files.fds _ p.log _ inv (fun i => ?_) (fun i => ?_) fun i => ?_
    · simp only [Process.step, perform, result]
    · simp only [Process.step, perform, result]
    · have failed : ¬ (fd = (i : Int) ∧ (-1 : Int) = 0) := fun both => by omega
      simp only [Process.step, perform, result, openedOn, openedAfter, if_neg failed]

theorem step_inv (image : Image) (p : Process) (call : Call) (inv : TableInv image p.files.fds p.log) :
    TableInv image (p.step image call).files.fds (p.step image call).log := by
  cases call with
  | «open» filename => exact open_inv image filename p inv
  | close fd => exact close_inv image fd p inv
  | read fd buf nbytes line =>
      have slots := read_slots image line fd buf nbytes p.files
      exact table_inv_same image p.files.fds _ p.log _ inv (fun i => (slots i).1) (fun i => (slots i).2.1) fun _ => rfl
  | write fd buf frequency nbytes =>
      have fds := write_fds fd buf frequency nbytes p.files
      exact table_inv_same image p.files.fds _ p.log _ inv (fun i => congrArg (fun table => (table i).flags) fds)
        (fun i => congrArg (fun table => (table i).fopsPtr) fds) fun _ => rfl
  | elsewhere devices =>
      exact table_inv_same image p.files.fds _ p.log _ inv (fun _ => rfl) (fun _ => rfl) fun _ => rfl

theorem start_inv (image : Image) (old : Table) (devices : Devices) :
    TableInv image (start old devices).files.fds (start old devices).log where
  stdin := ⟨rfl, rfl⟩
  stdout := ⟨rfl, rfl⟩
  slots := fun i least most => by
    have zero : i ≠ 0 := by omega
    have one : i ≠ 1 := by omega
    simp only [start, openedOn, executeFds, if_neg zero, if_neg one, if_pos most]
    rfl
  outside := fun _ _ => rfl

theorem calls_inv (image : Image) (old : Table) (devices : Devices) (calls : List Call) :
    TableInv image (Run.final (Process.step image) (start old devices) calls).files.fds
      (Run.final (Process.step image) (start old devices) calls).log :=
  Run.invariant (Process.step image) (fun p => TableInv image p.files.fds p.log) (step_inv image) (start old devices) calls
    (start_inv image old devices)

def CallLaw (image : Image) (s : State) (call : Call) : Prop :=
  match call with
  | .open filename =>
      let result := sysOpen image filename s
      (OpenFails image filename s.fds → result.1 = -1 ∧ result.2.fds = s.fds) ∧
        (¬ OpenFails image filename s.fds → ∃ i : Nat, SmallestUnused s.fds i ∧ result.1 = i ∧
          ¬ Unused result.2.fds i ∧ ∀ other, other ≠ i → result.2.fds other = s.fds other)
  | .close fd =>
      let result := sysClose fd s
      (Closable s.fds fd → result.1 = 0 ∧ Unused result.2.fds fd.toNat ∧
          ∀ other, other ≠ fd.toNat → result.2.fds other = s.fds other) ∧
        (¬ Closable s.fds fd → result.1 = -1 ∧ result.2.fds = s.fds)
  | .read fd buf nbytes line =>
      Refused s.fds fd ∨ fd = 1 →
        (sysRead image line fd buf nbytes s).1.ret = -1 ∧ (sysRead image line fd buf nbytes s).2.fds = s.fds
  | .write fd buf frequency nbytes =>
      Refused s.fds fd ∨ fd = 0 →
        (sysWrite fd buf frequency nbytes s).1 = -1 ∧ (sysWrite fd buf frequency nbytes s).2.fds = s.fds
  | .elsewhere _ => True

structure TableLaw (image : Image) (fds : Table) (log : List (Call × ReadResult)) : Prop where
  inUse : ∀ i < 8, ¬ Unused fds i ↔ i = 0 ∨ i = 1 ∨ openedOn log i ≠ none
  standard : (fds 0).fopsPtr = some .stdin ∧ (fds 1).fopsPtr = some .stdout
  opened : ∀ i name, openedOn log i = some name → 2 ≤ i ∧ i ≤ 7 ∧ ∃ dentry, readDentryByName image name = some dentry ∧
    dentry.filetype ≤ 2 ∧ (fds i).fopsPtr = fopsOf dentry.filetype

theorem open_law (image : Image) (filename : Option CString) (s : State) : CallLaw image s (.open filename) := by
  rcases open_cases image filename s with ⟨fails, result⟩ | ⟨name, dentry, fops, i, named, nonempty, found, known,
    smallest, result⟩
  · simp only [CallLaw, result]
    exact ⟨fun _ => ⟨trivial, trivial⟩, fun succeeds => absurd fails succeeds⟩
  · have succeeds := open_fails_not_taken image name dentry fops i s.fds nonempty found known smallest
    rw [← named] at succeeds
    simp only [CallLaw, result]
    refine ⟨fun fails => absurd fails succeeds, fun _ => ⟨i, smallest, rfl, ?_, fun other different => ?_⟩⟩
    · rw [Unused, Function.update_self, (mark_open_fops dentry.filetype dentry.inodeNum fops (s.fds i) known).2]
      decide
    · exact Function.update_of_ne different _ _

theorem close_law (image : Image) (fd : Int) (s : State) : CallLaw image s (.close fd) := by
  rcases close_cases fd s with ⟨closable, result⟩ | ⟨refused, result⟩
  · simp only [CallLaw, result]
    refine ⟨fun _ => ⟨trivial, ?_, fun other different => Function.update_of_ne different _ _⟩, fun no => absurd closable no⟩
    rw [Unused, Function.update_self]
  · simp only [CallLaw, result]
    exact ⟨fun closable => absurd closable refused, fun _ => ⟨trivial, trivial⟩⟩

theorem call_law (image : Image) (s : State) (call : Call) (stdin : (s.fds 0).fopsPtr = some .stdin) :
    CallLaw image s call := by
  cases call with
  | «open» filename => exact open_law image filename s
  | close fd => exact close_law image fd s
  | read fd buf nbytes line =>
      intro refused
      rw [read_refused image line fd buf nbytes s refused]
      exact ⟨rfl, rfl⟩
  | write fd buf frequency nbytes =>
      intro refused
      exact ⟨write_refused fd buf frequency nbytes s (refused.imp_right fun zero => ⟨zero, stdin⟩),
        write_fds fd buf frequency nbytes s⟩
  | elsewhere devices => trivial

theorem inv_law (image : Image) (fds : Table) (log : List (Call × ReadResult)) (inv : TableInv image fds log) :
    TableLaw image fds log where
  inUse := fun i bound => by
    by_cases low : i < 2
    · have used : ¬ Unused fds i := by
        have either : i = 0 ∨ i = 1 := by omega
        rcases either with zero | one
        · rw [zero, Unused, inv.stdin.1]
          decide
        · rw [one, Unused, inv.stdout.1]
          decide
      exact iff_of_true used (by omega)
    · have slot := inv.slots i (by omega) (by omega)
      cases opened : openedOn log i with
      | none =>
          rw [opened] at slot
          refine iff_of_false (fun used => used slot) ?_
          rintro (zero | one | more)
          · omega
          · omega
          · exact more rfl
      | some name =>
          rw [opened] at slot
          obtain ⟨dentry, _, _, used, _⟩ := slot
          refine iff_of_true ?_ (Or.inr (Or.inr (by simp)))
          rw [Unused, used]
          decide
  standard := ⟨inv.stdin.2, inv.stdout.2⟩
  opened := fun i name opened => by
    have inside : 2 ≤ i ∧ i ≤ 7 := by
      by_contra out
      have absent := inv.outside i (by omega)
      rw [opened] at absent
      cases absent
    have slot := inv.slots i inside.1 inside.2
    rw [opened] at slot
    obtain ⟨dentry, found, known, _, table⟩ := slot
    exact ⟨inside.1, inside.2, dentry, found, known, table⟩

end SimpleKernel.Files
