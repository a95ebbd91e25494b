import SimpleKernel.Files.Sharing
import SimpleKernel.Grep.DoOneFile
import SimpleKernel.Library.Loop
import SimpleKernel.Library.Text

set_option autoImplicit false

namespace SimpleKernel.Programs

open FileSystem (Image entryName)
open Files (Table sysOpen sysWrite SmallestUnused)
open Grep (store)

-- The address of an object is not NULL.
abbrev Pointer := { address : Nat // address ≠ 0 }

structure World where
  files : Files.State
  output : List UInt8

def World.say (bytes : List UInt8) (w : World) : World := { w with output := w.output ++ bytes }

def WritesTerminal (fds : Table) (fd : Int) : Prop :=
  0 ≤ fd ∧ fd ≤ 7 ∧ (fds fd.toNat).flags ≠ 0 ∧ (fds fd.toNat).fopsPtr = some .stdout

instance (fds : Table) (fd : Int) : Decidable (WritesTerminal fds fd) := inferInstanceAs (Decidable (_ ∧ _))

def ece391Write (fd : Int) (buf : Pointer) (bytes : List UInt8) (w : World) : Int × World :=
  let written := sysWrite fd buf.val 0 bytes.length w.files
  (written.1, ⟨written.2, if WritesTerminal w.files.fds fd then w.output ++ bytes else w.output⟩)

def ece391Fdputs (fd : Int) (s : Pointer) (bytes : List UInt8) (w : World) : World := (ece391Write fd s bytes w).2

def nameAt (data : Bytes) (size : Nat) : CString where
  bytes := nameIn data size
  noNul := name_in_no_nul data size

def dot : CString := ⟨[46], List.forall_mem_singleton.mpr (by decide)⟩

structure Running where
  data : Bytes
  world : World

def Leaves (run : Option (Int × World)) (status : Int) (w : World) (bytes : List UInt8) : Prop :=
  ∃ last, run = some (status, last) ∧ last.output = w.output ++ bytes

structure Standard (fds : Table) : Prop where
  stdinUsed : (fds 0).flags = 1
  stdin : (fds 0).fopsPtr = some .stdin
  stdoutUsed : (fds 1).flags = 1
  stdout : (fds 1).fopsPtr = some .stdout

theorem execute_standard (old : Table) : Standard (Files.executeFds old) := ⟨rfl, rfl, rfl, rfl⟩

theorem standard_update (fds : Table) (i : Nat) (slot : Files.FileDescriptor) (above : 2 ≤ i) (standard : Standard fds) :
    Standard (Function.update fds i slot) := by
  have zero : Function.update fds i slot 0 = fds 0 := Function.update_of_ne (by omega) _ _
  have one : Function.update fds i slot 1 = fds 1 := Function.update_of_ne (by omega) _ _
  exact ⟨zero ▸ standard.stdinUsed, zero ▸ standard.stdin, one ▸ standard.stdoutUsed, one ▸ standard.stdout⟩

theorem write_standard (buf : Pointer) (bytes : List UInt8) (w : World) (standard : Standard w.files.fds) :
    ece391Write 1 buf bytes w = ((bytes.length : Int), w.say bytes) := by
  have used : ¬ (w.files.fds (1 : Int).toNat).flags = 0 := by
    change ¬ (w.files.fds 1).flags = 0
    rw [standard.stdoutUsed]
    decide
  have writes : WritesTerminal w.files.fds 1 := ⟨by decide, by decide, used, standard.stdout⟩
  have range : ¬ ((1 : Int) < 0 ∨ (1 : Int) > 7 ∨ buf.val = 0) := by
    rintro (low | high | null)
    · exact absurd low (by decide)
    · exact absurd high (by decide)
    · exact buf.property null
  have table : (w.files.fds (1 : Int).toNat).fopsPtr = some .stdout := standard.stdout
  have written : sysWrite 1 buf.val 0 bytes.length w.files = ((bytes.length : Int), w.files) := by
    rw [sysWrite, if_neg range, if_neg used, table]
    simp only [Files.driverWrite]
    rw [max_eq_left (Int.natCast_nonneg _)]
  rw [ece391Write, written, if_pos writes]
  rfl

theorem fdputs_standard (s : Pointer) (bytes : List UInt8) (w : World) (standard : Standard w.files.fds) :
    ece391Fdputs 1 s bytes w = w.say bytes := by
  rw [ece391Fdputs, write_standard s bytes w standard]

theorem opened_standard (image : Image) (filename : Option CString) (s : Files.State) (standard : Standard s.fds) :
    Standard (sysOpen image filename s).2.fds := by
  rcases Files.open_cases image filename s with ⟨_, same⟩ | ⟨_, _, _, i, _, _, _, _, smallest, opened⟩
  · rw [same]
    exact standard
  · rw [opened]
    exact standard_update s.fds i _ smallest.1 standard

theorem open_refused (image : Image) (filename : Option CString) (s : Files.State)
    (fails : Files.OpenFails image filename s.fds) :
    sysOpen image filename s = (-1, s) := by
  rcases Files.open_cases image filename s with ⟨_, same⟩ | ⟨name, dentry, fops, i, same, nonempty, found, known, smallest, _⟩
  · exact same
  · rw [same] at fails
    exact absurd fails (Files.open_fails_not_taken image name dentry fops i s.fds nonempty found known smallest)

theorem store_range (data : Bytes) (bytes : List UInt8) (n : Nat) (fits : n ≤ bytes.length) :
    (List.range n).map (store data 0 bytes) = bytes.take n := by
  refine List.ext_getElem ?_ ?_
  · rw [List.length_map, List.length_range, List.length_take, Nat.min_eq_left fits]
  · intro k bound _
    rw [List.length_map, List.length_range] at bound
    rw [List.getElem_map, List.getElem_range, List.getElem_take, store, if_pos (by omega), Nat.sub_zero,
      List.getD_eq_getElem _ _ (by omega)]

def World.cursor (w : World) : Nat := w.files.devices.numFilesRead.toNat

structure FirstEmpty (image : Image) (last : Nat) : Prop where
  empty : entryName image last = []
  named : ∀ i < last, entryName image i ≠ []

structure Listing (image : Image) (good : World → Prop) (emit : Nat → List UInt8)
    (round : Running → Option (Running ⊕ (Int × World))) : Prop where
  ends : ∀ r, good r.world → entryName image r.world.cursor = [] →
    ∃ last, round r = some (.inr (0, last)) ∧ last.output = r.world.output
  goes : ∀ r, good r.world → entryName image r.world.cursor ≠ [] → ∃ next, round r = some (.inl next) ∧ good next.world ∧
    next.world.files.devices.numFilesRead = r.world.files.devices.numFilesRead + 1 ∧
    next.world.output = r.world.output ++ emit r.world.cursor

section Listing

variable (image : Image) (good : World → Prop) (emit : Nat → List UInt8)
  (round : Running → Option (Running ⊕ (Int × World))) (listing : Listing image good emit round)
  (r : Running) (ready : good r.world) (rewound : r.world.files.devices.numFilesRead = 0)

include listing ready

theorem listing_round (e i : Nat) (small : e < 256) (below : i < e) (first : FirstEmpty image e) (here : r.world.cursor = i) :
    ∃ next, round r = some (.inl next) ∧ good next.world ∧ next.world.cursor = i + 1 ∧
      next.world.output = r.world.output ++ emit i := by
  obtain ⟨next, goes, still, cursor, output⟩ := listing.goes r ready (here ▸ first.named i below)
  refine ⟨next, goes, still, ?_, here ▸ output⟩
  have wrapped : next.world.cursor = (r.world.cursor + 1) % 256 := by
    rw [World.cursor, cursor, UInt8.toNat_add]
    rfl
  rw [wrapped, here]
  omega

include rewound

theorem listing_ends (e : Nat) (small : e < 256) (first : FirstEmpty image e) :
    Leaves (Loop.run round (e + 1) r) 0 r.world ((List.range e).flatMap emit) := by
  have start : r.world.cursor = 0 := by
    rw [World.cursor, rewound]
    rfl
  obtain ⟨⟨status, last⟩, ended, zero, written⟩ := Loop.ends_with round
    (fun state => good state.world ∧ state.world.cursor ≤ e ∧
      state.world.output = r.world.output ++ (List.range state.world.cursor).flatMap emit)
    (fun state => e - state.world.cursor)
    (fun result => result.1 = 0 ∧
      result.2.output = r.world.output ++ (List.range e).flatMap emit)
    (by
      rintro state ⟨still, low, output⟩
      rcases Nat.lt_or_ge state.world.cursor e with below | atEnd
      · obtain ⟨next, goes, after, cursor, wrote⟩ := listing_round image good emit round listing state still e
          state.world.cursor small below first rfl
        refine Or.inl ⟨next, goes, ⟨after, by omega, ?_⟩, by omega⟩
        rw [wrote, output, cursor, List.range_succ, List.flatMap_append, List.flatMap_singleton, List.append_assoc]
      · have same : state.world.cursor = e := Nat.le_antisymm low atEnd
        obtain ⟨last, ends, kept⟩ := listing.ends state still (same ▸ first.empty)
        refine Or.inr ⟨(0, last), ends, rfl, ?_⟩
        rw [kept, output, same])
    r ⟨ready, by omega, by rw [start, List.range_zero, List.flatMap_nil, List.append_nil]⟩
  rw [start, Nat.sub_zero] at ended
  exact ⟨last, by rw [ended, ← zero], written⟩

omit rewound in
theorem listing_endless (full : ∀ i < 256, entryName image i ≠ []) : Loop.Endless round r := by
  apply Loop.endless round (fun state => good state.world) _ r ready
  intro state still
  obtain ⟨next, goes, after, _, _⟩ := listing.goes state still (full _ state.world.files.devices.numFilesRead.toNat_lt)
  exact ⟨next, goes, after⟩

end Listing

structure OpenDirectory (fd : Nat) (w : World) : Prop where
  standard : Standard w.files.fds
  own : 2 ≤ fd ∧ fd ≤ 7
  used : (w.files.fds fd).flags ≠ 0
  table : (w.files.fds fd).fopsPtr = some .directory

theorem reads_directory (fd : Nat) (buf : Pointer) (w : World) (opened : OpenDirectory fd w) :
    Files.ReadsDirectory w.files.fds fd buf.val :=
  ⟨Int.natCast_nonneg fd, by exact_mod_cast opened.own.2, buf.property, by have own := opened.own.1; omega, opened.used,
    opened.table⟩

def World.advance (w : World) : World :=
  { w with files := { w.files with devices := { w.files.devices with numFilesRead := w.files.devices.numFilesRead + 1 } } }

theorem directory_read (image : Image) (line : Nat → UInt8) (fd : Nat) (buf : Pointer) (nbytes : Int) (w : World)
    (opened : OpenDirectory fd w) :
    Files.sysRead image line fd buf.val nbytes w.files =
      (⟨FileSystem.paddedName (entryName image w.cursor), (entryName image w.cursor).length⟩, w.advance.files) :=
  Files.sys_read_directory image line fd buf.val nbytes w.files (reads_directory fd buf w opened)

theorem opens_free (image : Image) (name : CString) (dentry : FileSystem.Dentry) (fds : Table) (i : Nat)
    (nonempty : name.bytes ≠ [])
    (found : FileSystem.readDentryByName image name = some dentry) (known : dentry.filetype ≤ 2) (low : 2 ≤ i) (high : i ≤ 7)
    (free : Files.Unused fds i) : ¬ Files.OpenFails image (some name) fds := by
  rintro (none | ⟨other, same, empty | missing | ⟨entry, again, unknown⟩ | full⟩)
  · cases none
  · cases same
    exact nonempty empty
  · cases same
    rw [found] at missing
    cases missing
  · cases same
    rw [found] at again
    cases again
    omega
  · exact full i low high free

theorem mark_open_table (fops : Files.Fops) (inode : Nat) (slot : Files.FileDescriptor) :
    (Files.markOpen fops inode slot).flags = 1 ∧ (Files.markOpen fops inode slot).fopsPtr = some fops := by
  cases fops <;> exact ⟨rfl, rfl⟩

theorem open_succeeds (image : Image) (name : CString) (s : Files.State) (dentry : FileSystem.Dentry) (fops : Files.Fops)
    (found : FileSystem.readDentryByName image name = some dentry) (known : Files.fopsOf dentry.filetype = some fops)
    (opens : ¬ Files.OpenFails image (some name) s.fds) :
    ∃ fd : Nat, SmallestUnused s.fds fd ∧ sysOpen image (some name) s = ((fd : Int),
      ⟨Function.update s.fds fd (Files.markOpen fops dentry.inodeNum (s.fds fd)), (Files.driverOpen fops s.devices).2⟩) := by
  rcases Files.open_cases image (some name) s with ⟨fails, _⟩ | ⟨other, entry, table, i, same, _, again, its,
    smallest, opened⟩
  · exact absurd fails opens
  · cases same
    rw [found] at again
    cases again
    rw [known] at its
    cases its
    exact ⟨i, smallest, opened⟩

theorem directory_opened (image : Image) (name : CString) (w : World) (dentry : FileSystem.Dentry)
    (standard : Standard w.files.fds) (found : FileSystem.readDentryByName image name = some dentry)
    (directory : dentry.filetype = Files.dirFiletype) (opens : ¬ Files.OpenFails image (some name) w.files.fds) :
    ∃ fd : Nat, (sysOpen image (some name) w.files).1 = fd ∧
      OpenDirectory fd ⟨(sysOpen image (some name) w.files).2, w.output⟩ ∧
      (sysOpen image (some name) w.files).2.devices.numFilesRead = 0 ∧
      ∀ other ≠ fd, (sysOpen image (some name) w.files).2.fds other = w.files.fds other := by
  have known : Files.fopsOf dentry.filetype = some .directory := by
    rw [directory]
    rfl
  obtain ⟨fd, smallest, opened⟩ := open_succeeds image name w.files dentry .directory found known opens
  have marked := mark_open_table .directory dentry.inodeNum (w.files.fds fd)
  rw [opened]
  refine ⟨fd, rfl, ⟨standard_update _ fd _ smallest.1 standard, ⟨smallest.1, smallest.2.1⟩, ?_, ?_⟩, rfl, ?_⟩
  · simp only [Function.update_self, marked.1]
    decide
  · simp only [Function.update_self, marked.2]
  · intro other apart
    exact Function.update_of_ne apart _ _

def noteImage : Image := fun address =>
  if address = 0 then 2 else if address = 4 then 1 else if address = 8 then 1
  else if address = 64 then 46 else if address = 96 then 1
  else if address = 128 then 97 else if address = 160 then 2
  else if address = 4096 then 3
  else if address = 8192 then 104 else if address = 8193 then 105 else if address = 8194 then 10 else 0

def noteWorld : World := ⟨⟨Files.executeFds fun _ => ⟨none, 0, 0, 0⟩, ⟨0, ⟨0, 0⟩⟩⟩, []⟩

def notePointer : Pointer := ⟨0x83FFC00, by decide⟩

theorem note_standard : Standard noteWorld.files.fds := execute_standard _

theorem note_dot : FileSystem.readDentryByName noteImage dot = some ⟨46 :: List.replicate 31 0, 1, 0⟩ := by decide +kernel

theorem note_first_empty : FirstEmpty noteImage 2 := ⟨by decide +kernel, by decide +kernel⟩

theorem note_opens (name : CString) (dentry : FileSystem.Dentry) (nonempty : name.bytes ≠ [])
    (found : FileSystem.readDentryByName noteImage name = some dentry) (known : dentry.filetype ≤ 2) :
    ¬ Files.OpenFails noteImage (some name) noteWorld.files.fds :=
  opens_free noteImage name dentry _ 2 nonempty found known (by decide) (by decide) rfl

end SimpleKernel.Programs
