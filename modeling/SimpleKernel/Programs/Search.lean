import SimpleKernel.Grep.WholeLines
import SimpleKernel.Programs.Cat

set_option autoImplicit false

namespace SimpleKernel.Programs

open FileSystem (Image Dentry GoodFile entryName fileContent fileLength fileSlice readDentryByName)
open Files (FileSlot OpenFails Table Devices bytesRead fileRead sysClose sysOpen sysRead)
open Grep (Locals Pending Short bufSize lineLoop newline printed store text)
open Text (Holds each)

structure Scanning where
  data : Bytes
  last : Nat
  world : World

section DoOneFile

variable (image : Image) (line : Nat → UInt8) (buf literal : Pointer) (s fname : CString)

def fileRound (fd : Int) (r : Scanning) : Option (Scanning ⊕ (Int × World)) :=
  let read := sysRead image line fd buf.val ((bufSize : Int) - r.last) r.world.files
  let cnt := read.1.ret
  if -1 = cnt then some (.inr (-1, ece391Fdputs 1 literal (text "file read failed\n") ⟨read.2, r.world.output⟩))
  else
    let filled : Locals := ⟨store r.data r.last read.1.stored, r.last + cnt.toNat, [], r.world.output⟩
    (lineLoop s fname cnt (bufSize + 1) 0 filled).map fun after =>
      if 0 = cnt then .inr (0, ⟨read.2, after.output⟩) else .inl ⟨after.data, after.last, ⟨read.2, after.output⟩⟩

def closeFile (fd : Int) (result : Int × World) : Int × World :=
  if result.1 = -1 then result
  else
    let closed := sysClose fd result.2.files
    let next : World := ⟨closed.2, result.2.output⟩
    if -1 = closed.1 then (-1, ece391Fdputs 1 literal (text "file close failed\n") next) else (0, next)

def doOneFile (stack : Bytes) (fuel : Nat) (w : World) : Option (Int × World) :=
  let opened := sysOpen image (some fname) w.files
  let next : World := ⟨opened.2, w.output⟩
  if -1 = opened.1 then some (-1, ece391Fdputs 1 literal (text "file open failed\n") next)
  else (Loop.run (fileRound image line buf literal s fname opened.1) fuel ⟨stack, 0, next⟩).map (closeFile literal opened.1)

end DoOneFile

theorem content_drop (image : Image) (inode pos : Nat) (within : pos ≤ fileLength image inode) :
    (fileContent image inode).drop pos = fileSlice image inode pos (fileLength image inode - pos) := by
  have joined := FileSystem.file_slice_append image inode 0 pos (fileLength image inode - pos)
  rw [Nat.zero_add, Nat.add_sub_cancel' within] at joined
  rw [fileContent, ← joined, List.drop_left' (FileSystem.file_slice_length image inode 0 pos)]

structure SearchedTo (s fname : CString) (target rest : List UInt8) (r : Scanning) (line : List UInt8) : Prop where
  last : r.last = line.length
  holds : Holds r.data 0 line
  noBreak : newline ∉ line
  noNul : (0 : UInt8) ∉ line ++ rest
  short : Short (line ++ rest)
  output : r.world.output ++ each newline (printed s fname) (line ++ rest) = target

structure Searching (image : Image) (s fname : CString) (inode fd : Nat) (fds : Table) (devices : Devices)
    (target : List UInt8) (r : Scanning) : Prop where
  standard : Standard r.world.files.fds
  used : (r.world.files.fds fd).flags = 1
  table : (r.world.files.fds fd).fopsPtr = some .files
  place : ∃ asked delivered, FileSlot image (r.world.files.fds fd) inode asked delivered
  others : ∀ other ≠ fd, r.world.files.fds other = fds other
  devices : r.world.files.devices = devices
  clear : r.data bufSize ≠ newline
  line : ∃ line, SearchedTo s fname target ((fileContent image inode).drop (r.world.files.fds fd).filePos.toNat) r line

section Search

variable (image : Image) (line : Nat → UInt8) (buf literal : Pointer) (s fname : CString) (nonempty : s.bytes ≠ [])

structure Read (rest : List UInt8) (wanted : Nat) (bytes : List UInt8) (cnt : Nat) : Prop where
  count : cnt = min wanted rest.length
  front : ∃ more, bytes = rest.take cnt ++ more
  fits : bytes.length ≤ wanted

theorem file_read_exact (inode fd : Nat) (wanted asked : Nat) (delivered : List UInt8) (w : World)
    (good : GoodFile image inode)
    (own : 2 ≤ fd ∧ fd ≤ 7) (used : (w.files.fds fd).flags = 1) (table : (w.files.fds fd).fopsPtr = some .files)
    (slot : FileSlot image (w.files.fds fd) inode asked delivered) (small : wanted < 2 ^ 31) :
    ∃ bytes cnt, sysRead image line fd buf.val wanted w.files = (⟨bytes, (cnt : Nat)⟩, (fileRead image fd wanted w.files).2) ∧
      Read ((fileContent image inode).drop (w.files.fds fd).filePos.toNat) wanted bytes cnt ∧
      ((fileRead image fd wanted w.files).2.fds fd).filePos.toNat = (w.files.fds fd).filePos.toNat + cnt ∧
      ∃ after, FileSlot image ((fileRead image fd wanted w.files).2.fds fd) inode (asked + wanted) after := by
  have small' : (wanted : Int) < 2 ^ 31 := by exact_mod_cast small
  have size : (wanted : Int).toNat = wanted := Int.toNat_natCast _
  have file := Files.sys_read_file image line fd buf.val wanted w.files own.1 own.2 buf.property used table
  have result := Files.file_slot_read image (w.files.fds fd) inode asked delivered wanted good slot
    (Int.natCast_nonneg _) small'
  have after := Files.file_read_slot image fd inode asked delivered wanted w.files good slot (Int.natCast_nonneg _) small'
  rw [size] at result after
  have within : min asked (fileLength image inode) ≤ fileLength image inode := Nat.min_le_right _ _
  have first := slot.filePos
  have second := after.filePos
  have rest := content_drop image inode (min asked (fileLength image inode)) within
  refine ⟨_, _, by rw [file]; exact Prod.ext result rfl, ⟨?_, ?_, ?_⟩, ?_, _, after⟩
  · rw [first, rest, FileSystem.file_slice_length]
  · refine ⟨(fileSlice image inode (min asked (fileLength image inode))
      (min wanted (fileLength image inode - min asked (fileLength image inode) + 1))).drop
        (min wanted (fileLength image inode - min asked (fileLength image inode))), ?_⟩
    have front (n count : Nat) (fits : n ≤ count) :=
      FileSystem.file_slice_take image inode (min asked (fileLength image inode)) count n fits
    rw [first, rest, front _ _ (Nat.min_le_right _ _),
      ← front (min wanted (fileLength image inode - min asked (fileLength image inode)))
        (min wanted (fileLength image inode - min asked (fileLength image inode) + 1)) (by omega), List.take_append_drop]
  · rw [FileSystem.file_slice_length]
    exact Nat.min_le_left _ _
  · omega

omit s fname nonempty line buf literal in
theorem file_read_keeps (fd : Nat) (nbytes : Int) (files : Files.State) :
    (∀ other ≠ fd, (fileRead image fd nbytes files).2.fds other = files.fds other) ∧
      ((fileRead image fd nbytes files).2.fds fd).flags = (files.fds fd).flags ∧
      ((fileRead image fd nbytes files).2.fds fd).fopsPtr = (files.fds fd).fopsPtr ∧
      (fileRead image fd nbytes files).2.devices = files.devices := by
  refine ⟨fun other apart => Function.update_of_ne apart _ _, ?_, ?_, rfl⟩
  · simp only [fileRead, Function.update_self]
  · simp only [fileRead, Function.update_self]

structure Searched (fd : Nat) (fds : Table) (devices : Devices) (target : List UInt8) (w : World) : Prop where
  standard : Standard w.files.fds
  used : (w.files.fds fd).flags = 1
  others : ∀ other ≠ fd, w.files.fds other = fds other
  devices : w.files.devices = devices
  output : w.output = target

include nonempty

-- A buffer is full, and holds a newline, unless it holds the end of the file.
omit nonempty in
theorem read_good (target rest bytes : List UInt8) (r : Scanning) (held : List UInt8) (cnt : Nat)
    (searched : SearchedTo s fname target rest r held) (clear : r.data bufSize ≠ newline) (room : held.length < bufSize)
    (read : Read rest (bufSize - held.length) bytes cnt) (moved : cnt ≠ 0) :
    rest.drop cnt = [] ∨ newline ∈ held ++ rest.take cnt ∧
      store r.data held.length bytes (held.length + cnt) ≠ newline ∧ (0 : Int) ≠ cnt := by
  have fits := read.fits
  have count := read.count
  have positive : (0 : Int) ≠ cnt := fun same => moved (by omega)
  by_cases full : held.length + cnt = bufSize
  · refine Or.inr ⟨?_, ?_, positive⟩
    · by_contra none
      have inside : held ++ rest.take cnt <:+: held ++ rest := by
        refine ⟨[], rest.drop cnt, ?_⟩
        rw [List.nil_append, List.append_assoc, List.take_append_drop]
      have bound := searched.short _ inside none
      rw [List.length_append, List.length_take] at bound
      omega
    · have behind : store r.data held.length bytes bufSize = r.data bufSize := if_neg (by omega)
      rw [full, behind]
      exact clear
  · exact Or.inl (List.drop_eq_nil_of_le (by omega))

omit nonempty in
theorem read_stored (target rest bytes : List UInt8) (r : Scanning) (held : List UInt8) (cnt : Nat)
    (searched : SearchedTo s fname target rest r held) (read : Read rest (bufSize - held.length) bytes cnt) :
    Holds (store r.data held.length bytes) 0 (held ++ rest.take cnt) := by
  obtain ⟨more, front⟩ := read.front
  have whole := Grep.store_holds r.data held bytes searched.holds
  rw [front, ← List.append_assoc, Text.holds_append] at whole
  rw [front]
  exact whole.1

theorem buffer_ends (target bytes : List UInt8) (r : Scanning) (held : List UInt8)
    (searched : SearchedTo s fname target [] r held) (read : Read [] (bufSize - held.length) bytes 0) :
    ∃ after, lineLoop s fname 0 (bufSize + 1) 0
        ⟨store r.data held.length bytes, held.length + 0, [], r.world.output⟩ = some after ∧ after.output = target := by
  have stored := read_stored s fname target [] bytes r held 0 searched read
  have noNul := searched.noNul
  have output := searched.output
  rw [List.take_nil, List.append_nil] at stored
  rw [List.append_nil] at noNul output
  rw [Text.each_line newline _ held searched.noBreak] at output
  exact ⟨_, Grep.buffer_of_one_line s fname 0 held _ stored rfl searched.noBreak noNul nonempty, output⟩

theorem buffer_continues (target rest bytes : List UInt8) (r : Scanning) (held : List UInt8) (cnt : Nat)
    (searched : SearchedTo s fname target rest r held) (clear : r.data bufSize ≠ newline) (room : held.length < bufSize)
    (read : Read rest (bufSize - held.length) bytes cnt) (moved : cnt ≠ 0) :
    ∃ after line', lineLoop s fname cnt (bufSize + 1) 0
        ⟨store r.data held.length bytes, held.length + cnt, [], r.world.output⟩ = some after ∧
      after.data bufSize ≠ newline ∧
      ∀ files, SearchedTo s fname target (rest.drop cnt) ⟨after.data, after.last, ⟨files, after.output⟩⟩ line' := by
  have good := read_good s fname target rest bytes r held cnt searched clear room read moved
  have stored := read_stored s fname target rest bytes r held cnt searched read
  have fits := read.fits
  have count := read.count
  have taken : (rest.take cnt).length = cnt := by
    rw [List.length_take]
    omega
  have inside : held.length + cnt ≤ bufSize := by omega
  have whole : held ++ rest.take cnt ++ rest.drop cnt = held ++ rest := by rw [List.append_assoc, List.take_append_drop]
  obtain ⟨after, line', looped, pending, _, data, suffix, wrote⟩ := Grep.buffer_keeps s fname cnt (held ++ rest.take cnt)
    (rest.drop cnt) ⟨store r.data held.length bytes, held.length + cnt, [], r.world.output⟩ stored
    (by rw [List.length_append, taken]) inside
    (fun member => searched.noNul (whole ▸ List.mem_append_left _ member)) good nonempty
  rw [whole, searched.output] at wrote
  obtain ⟨front, cut⟩ := suffix
  have tail : line' ++ rest.drop cnt <:+ held ++ rest := ⟨front, by rw [← List.append_assoc, cut, whole]⟩
  have behind : store r.data held.length bytes bufSize = r.data bufSize := if_neg (by omega)
  refine ⟨after, line', looped, ?_, fun files => ⟨pending.last, pending.holds, pending.noBreak,
    fun member => searched.noNul (tail.subset member), Grep.short_suffix _ _ tail searched.short, wrote⟩⟩
  change after.data bufSize = 0 ∨ after.data bufSize = store r.data held.length bytes bufSize at data
  cases data with
  | inl nul =>
      rw [nul]
      decide
  | inr same =>
      rw [same, behind]
      exact clear

theorem search_round (inode fd : Nat) (fds : Table) (devices : Devices) (target : List UInt8) (r : Scanning)
    (good : GoodFile image inode) (own : 2 ≤ fd ∧ fd ≤ 7)
      (searching : Searching image s fname inode fd fds devices target r) :
    (∃ next, fileRound image line buf literal s fname fd r = some (.inl next) ∧
      Searching image s fname inode fd fds devices target next ∧
      (r.world.files.fds fd).filePos.toNat < (next.world.files.fds fd).filePos.toNat) ∨
    ∃ w, fileRound image line buf literal s fname fd r = some (.inr (0, w)) ∧ Searched fd fds devices target w := by
  obtain ⟨asked, delivered, slot⟩ := searching.place
  obtain ⟨held, searched⟩ := searching.line
  have last := searched.last
  have room : held.length < bufSize := searched.short held (List.prefix_append _ _).isInfix searched.noBreak
  have wanted : (bufSize : Int) - r.last = ((bufSize - held.length : Nat) : Int) := by omega
  obtain ⟨bytes, cnt, result, read, place, after⟩ := file_read_exact image line buf inode fd
    (bufSize - held.length) asked delivered r.world good own searching.used searching.table slot
    (by have size : bufSize = 1024 := rfl; omega)
  obtain ⟨other, flags, table, devices'⟩ := file_read_keeps image fd ((bufSize - held.length : Nat) : Int) r.world.files
  have standard : Standard (fileRead image fd ((bufSize - held.length : Nat) : Int) r.world.files).2.fds :=
    standard_update _ fd _ own.1 searching.standard
  generalize (fileRead image fd ((bufSize - held.length : Nat) : Int) r.world.files).2 = files at *
  have others : ∀ i ≠ fd, files.fds i = fds i := fun i apart => (other i apart).trans (searching.others i apart)
  have succeeds : ¬ (-1 : Int) = (cnt : Int) := by omega
  have zero : (0 : Int) = (cnt : Int) ↔ cnt = 0 := by omega
  simp only [fileRound, wanted, result, if_neg succeeds, Int.toNat_natCast, zero]
  rw [last]
  by_cases nothing : cnt = 0
  · have count := read.count
    have empty : (fileContent image inode).drop (r.world.files.fds fd).filePos.toNat = [] :=
      List.length_eq_zero_iff.mp (by omega)
    rw [empty] at searched read
    subst nothing
    obtain ⟨after', looped, output⟩ := buffer_ends s fname nonempty target bytes r held searched read
    refine Or.inr ⟨⟨files, target⟩, ?_, standard, flags.trans searching.used, others, devices'.trans searching.devices, rfl⟩
    rw [Nat.cast_zero, looped, ← output]
    rfl
  · obtain ⟨after', line', looped, clear, further⟩ := buffer_continues s fname nonempty target _ bytes r held cnt searched
      searching.clear room read nothing
    refine Or.inl ⟨⟨after'.data, after'.last, ⟨files, after'.output⟩⟩, ?_, ?_, ?_⟩
    · rw [looped, Option.map_some, if_neg nothing]
    · refine ⟨standard, flags.trans searching.used, table.trans searching.table, ⟨_, after⟩, others,
        devices'.trans searching.devices, clear, line', ?_⟩
      rw [place, ← List.drop_drop]
      exact further files
    · change _ < (files.fds fd).filePos.toNat
      omega

theorem search_file (inode fd : Nat) (fds : Table) (devices : Devices) (target : List UInt8) (r : Scanning)
    (good : GoodFile image inode) (own : 2 ≤ fd ∧ fd ≤ 7)
      (searching : Searching image s fname inode fd fds devices target r) :
    ∃ w, Loop.run (fileRound image line buf literal s fname fd) (fileLength image inode + 1) r = some (0, w) ∧
      Searched fd fds devices target w := by
  obtain ⟨⟨status, w⟩, ended, zero, searched⟩ := Loop.ends_with (fileRound image line buf literal s fname fd)
    (fun state => Searching image s fname inode fd fds devices target state)
    (fun state => fileLength image inode - (state.world.files.fds fd).filePos.toNat)
    (fun result => result.1 = 0 ∧ Searched fd fds devices target result.2)
    (by
      intro state still
      rcases search_round image line buf literal s fname nonempty inode fd fds devices target state good own still with
        ⟨next, goes, after, less⟩ | ⟨w, leaves, searched⟩
      · obtain ⟨asked, delivered, slot⟩ := after.place
        have place := slot.filePos
        exact Or.inl ⟨next, goes, after, by omega⟩
      · exact Or.inr ⟨(0, w), leaves, rfl, searched⟩)
    r searching
  obtain ⟨more, enough⟩ : ∃ more, fileLength image inode + 1 =
      fileLength image inode - (r.world.files.fds fd).filePos.toNat + 1 + more :=
    ⟨(fileLength image inode + 1) - (fileLength image inode - (r.world.files.fds fd).filePos.toNat + 1), by omega⟩
  rw [enough]
  exact ⟨w, Loop.run_longer _ _ more r _ (by rw [ended, ← zero]), searched⟩

-- The clock gives nothing to search.
theorem search_clock (fd : Nat) (r : Scanning) (own : 2 ≤ fd ∧ fd ≤ 7) (used : (r.world.files.fds fd).flags = 1)
    (table : (r.world.files.fds fd).fopsPtr = some .rtc) (start : r.last = 0) (fuel : Nat) :
    Loop.run (fileRound image line buf literal s fname fd) (fuel + 1) r = some (0, r.world) := by
  have inUse : (r.world.files.fds fd).flags ≠ 0 := by
    rw [used]
    decide
  have read := Files.sys_read_driver image line fd buf.val ((bufSize : Int) - r.last) r.world.files .rtc (by omega) (by omega)
    (by omega) buf.property inUse table
  have looped := Grep.buffer_of_one_line s fname 0 [] ⟨store r.data r.last [], r.last + 0, [], r.world.output⟩ trivial
    (by rw [start]; rfl) List.not_mem_nil List.not_mem_nil nonempty
  have failed : ¬ (-1 : Int) = 0 := by decide
  apply Loop.run_leaves
  simp only [fileRound, read, Files.driverRead, readRtc, if_neg failed, Int.toNat_zero, looped, Option.map_some, if_true,
    Grep.searched, Grep.printed_nil s fname nonempty, List.append_nil]

end Search

structure Ready (fd : Nat) (w : World) : Prop where
  directory : OpenDirectory fd w
  free : ∃ i, 2 ≤ i ∧ i ≤ 7 ∧ Files.Unused w.files.fds i

def closed (fd : Nat) (s : Files.State) : Files.State :=
  { s with fds := Function.update s.fds fd { s.fds fd with flags := 0, filePos := 0, inode := 0 } }

theorem close_standard (fd : Nat) (s : Files.State) (own : 2 ≤ fd ∧ fd ≤ 7) (used : (s.fds fd).flags = 1) :
    sysClose fd s = (0, closed fd s) := by
  have range : ¬ ((fd : Int) < 0 ∨ (fd : Int) > 7 ∨ (fd : Int) = 1 ∨ (fd : Int) = 0) := by omega
  have inUse : (s.fds fd).flags ≠ 0 := by
    rw [used]
    decide
  rw [sysClose, if_neg range, Int.toNat_natCast, if_pos inUse]
  rfl

theorem close_ready (literal : Pointer) (dir fd : Nat) (fds : Table) (devices : Devices) (target : List UInt8)
    (w result : World)
    (ready : Ready dir w) (own : 2 ≤ fd ∧ fd ≤ 7) (unused : Files.Unused w.files.fds fd)
    (searched : Searched fd fds devices target result) (same : ∀ other ≠ fd, fds other = w.files.fds other)
    (cursor : devices.numFilesRead = w.files.devices.numFilesRead) :
    ∃ last, closeFile literal fd (0, result) = (0, last) ∧ Ready dir last ∧ last.output = target ∧
      last.files.devices.numFilesRead = w.files.devices.numFilesRead := by
  have closes := close_standard fd result.files own searched.used
  have zero : ¬ (0 : Int) = -1 := by decide
  have back : ¬ (-1 : Int) = 0 := by decide
  have apart : dir ≠ fd := by
    rintro rfl
    exact ready.directory.used unused
  have kept : (closed fd result.files).fds dir = w.files.fds dir :=
    (Function.update_of_ne apart _ _).trans ((searched.others dir apart).trans (same dir apart))
  refine ⟨⟨closed fd result.files, result.output⟩, ?_, ⟨⟨?_, ready.directory.own, ?_, ?_⟩, fd, own.1, own.2, ?_⟩,
    searched.output, ?_⟩
  · simp only [closeFile, if_neg zero, closes, if_neg back]
  · exact standard_update _ fd _ own.1 searched.standard
  · rw [kept]
    exact ready.directory.used
  · rw [kept]
    exact ready.directory.table
  · simp only [Files.Unused, closed, Function.update_self]
  · rw [← cursor, ← searched.devices]
    rfl

def entryString (image : Image) (i : Nat) : CString := ⟨entryName image i, FileSystem.entry_name_no_nul image i⟩

def Hidden (image : Image) (i : Nat) : Prop := (entryName image i).head? = some 46

instance (image : Image) (i : Nat) : Decidable (Hidden image i) := inferInstanceAs (Decidable (_ = _))

def searchedEntry (image : Image) (s : CString) (i : Nat) : List UInt8 :=
  if Hidden image i then []
  else
    match readDentryByName image (entryString image i) with
    | none => []
    | some dentry =>
        if dentry.filetype = Files.regFiletype then
          Grep.wanted s (entryString image i) (fileContent image dentry.inodeNum)
        else []

structure Searchable (image : Image) (dentry : Dentry) : Prop where
  good : GoodFile image dentry.inodeNum
  noNul : (0 : UInt8) ∉ fileContent image dentry.inodeNum
  short : ∀ line ∈ (fileContent image dentry.inodeNum).splitOn newline, line.length ≤ 1023

def SearchableEntry (image : Image) (i : Nat) : Prop :=
  Hidden image i ∨ ∃ dentry, readDentryByName image (entryString image i) = some dentry ∧
    (dentry.filetype = Files.rtcFiletype ∨ dentry.filetype = Files.regFiletype ∧ Searchable image dentry)

-- No file is longer, and every buffer takes at least one byte of it.
def fileFuel : Nat := 2 ^ 32

section Main

variable (image : Image) (line : Nat → UInt8) (buf literal : Pointer)

-- frames i is what do_one_file finds in its buffer when it is called for entry i.
def grepRound (s : CString) (frames : Nat → Bytes) (fd : Int) (r : Running) : Option (Running ⊕ (Int × World)) :=
  let read := sysRead image line fd buf.val (sbufsize - 1) r.world.files
  let cnt := read.1.ret
  let data := store r.data 0 read.1.stored
  let w : World := ⟨read.2, r.world.output⟩
  if cnt = 0 then some (.inr (0, w))
  else if cnt = -1 then some (.inr (3, ece391Fdputs 1 literal (text "directory entry read failed\n") w))
  else if data 0 = 46 then some (.inl ⟨data, w⟩)
  else
    let closed := Function.update data cnt.toNat 0
    (doOneFile image line buf literal s (nameAt closed sbufsize) (frames r.world.cursor) fileFuel w).map fun result =>
      if 0 ≠ result.1 then .inr (3, result.2) else .inl ⟨closed, result.2⟩

def grepMain (args search : Bytes) (stack : Bytes) (frames : Nat → Bytes) (fuel : Nat) (w : World) : Option (Int × World) :=
  let given := Process.getargs args (some search) bufSize
  if given.1 ≠ 0 then some (3, ece391Fdputs 1 literal (text "could not read argument\n") w)
  else
    let opened := sysOpen image (some dot) w.files
    let next : World := ⟨opened.2, w.output⟩
    if opened.1 = -1 then some (2, ece391Fdputs 1 literal (text "directory open failed\n") next)
    else Loop.run (grepRound image line buf literal (nameAt (given.2.getD search) bufSize) frames opened.1) fuel ⟨stack, next⟩

theorem entry_closed (s name : CString) (stack : Bytes) (dir fd : Nat) (w : World) (ready : Ready dir w)
    (slot : Files.FileDescriptor) (devices : Devices) (target : List UInt8) (smallest : Files.SmallestUnused w.files.fds fd)
    (opened : sysOpen image (some name) w.files = ((fd : Int), ⟨Function.update w.files.fds fd slot, devices⟩))
    (cursor : devices.numFilesRead = w.files.devices.numFilesRead)
    (run : ∃ result, Loop.run (fileRound image line buf literal s name fd) fileFuel
      ⟨stack, 0, ⟨⟨Function.update w.files.fds fd slot, devices⟩, w.output⟩⟩ = some (0, result) ∧
        Searched fd (Function.update w.files.fds fd slot) devices target result) :
    ∃ last, doOneFile image line buf literal s name stack fileFuel w = some (0, last) ∧ Ready dir last ∧
      last.output = target ∧
      last.files.devices.numFilesRead = w.files.devices.numFilesRead := by
  obtain ⟨result, ended, searched⟩ := run
  obtain ⟨last, closes, after, output, same⟩ := close_ready literal dir fd _ devices target w result ready
    ⟨smallest.1, smallest.2.1⟩ smallest.2.2.1 searched (fun other apart => Function.update_of_ne apart _ _) cursor
  have succeeds : ¬ (-1 : Int) = (fd : Int) := by omega
  refine ⟨last, ?_, after, output, same⟩
  simp only [doOneFile, opened, if_neg succeeds, ended, Option.map_some, closes]

omit line buf literal in
theorem ready_opens (name : CString) (dir : Nat) (w : World) (ready : Ready dir w) (dentry : Dentry)
    (found : readDentryByName image name = some dentry) (named : name.bytes ≠ []) (known : dentry.filetype ≤ 2) :
    ¬ Files.OpenFails image (some name) w.files.fds := by
  obtain ⟨free, low, high, unused⟩ := ready.free
  exact opens_free image name dentry w.files.fds free named found known low high unused

section Entry

variable (s name : CString) (nonempty : s.bytes ≠ []) (stack : Bytes) (dir : Nat) (w : World) (ready : Ready dir w)
  (dentry : Dentry) (found : readDentryByName image name = some dentry) (named : name.bytes ≠ [])

include nonempty ready found named

theorem clock_searched (clock : dentry.filetype = Files.rtcFiletype) :
    ∃ last, doOneFile image line buf literal s name stack fileFuel w = some (0, last) ∧ Ready dir last ∧
      last.output = w.output ∧ last.files.devices.numFilesRead = w.files.devices.numFilesRead := by
  have known : Files.fopsOf dentry.filetype = some .rtc := by
    rw [clock]
    rfl
  obtain ⟨fd, smallest, opened⟩ := open_succeeds image name w.files dentry .rtc found known
    (ready_opens image name dir w ready dentry found named (by rw [clock]; decide))
  have marked := mark_open_table .rtc dentry.inodeNum (w.files.fds fd)
  refine entry_closed image line buf literal s name stack dir fd w ready _ _ _ smallest opened rfl
    ⟨_, search_clock image line buf literal s name nonempty fd ⟨stack, 0, _⟩ ⟨smallest.1, smallest.2.1⟩ ?_ ?_ rfl _, ?_⟩
  · simp only [Function.update_self, marked.1]
  · simp only [Function.update_self, marked.2]
  · refine ⟨standard_update _ fd _ smallest.1 ready.directory.standard, ?_, fun _ _ => rfl, rfl, rfl⟩
    simp only [Function.update_self, marked.1]

theorem file_searched (clear : stack bufSize ≠ newline) (regular : dentry.filetype = Files.regFiletype)
    (searchable : Searchable image dentry) :
    ∃ last, doOneFile image line buf literal s name stack fileFuel w = some (0, last) ∧ Ready dir last ∧
      last.output = w.output ++ each newline (printed s name) (fileContent image dentry.inodeNum) ∧
      last.files.devices.numFilesRead = w.files.devices.numFilesRead := by
  have known : Files.fopsOf dentry.filetype = some .files := by
    rw [regular]
    rfl
  obtain ⟨fd, smallest, opened⟩ := open_succeeds image name w.files dentry .files found known
    (ready_opens image name dir w ready dentry found named (by rw [regular]; decide))
  have marked := mark_open_table .files dentry.inodeNum (w.files.fds fd)
  have slot := Files.file_slot_opened image dentry.inodeNum (w.files.fds fd) searchable.good
  let fds := Function.update w.files.fds fd (Files.markOpen .files dentry.inodeNum (w.files.fds fd))
  have start : Searching image s name dentry.inodeNum fd fds w.files.devices
      (w.output ++ each newline (printed s name) (fileContent image dentry.inodeNum))
      ⟨stack, 0, ⟨⟨fds, w.files.devices⟩, w.output⟩⟩ := by
    refine ⟨standard_update _ fd _ smallest.1 ready.directory.standard, ?_, ?_, ⟨0, [], ?_⟩, fun _ _ => rfl, rfl, clear, [],
      rfl, trivial, List.not_mem_nil, ?_, ?_, ?_⟩
    · simp only [fds, Function.update_self, marked.1]
    · simp only [fds, Function.update_self, marked.2]
    · simp only [fds, Function.update_self]
      exact slot
    · simp only [fds, Function.update_self, slot.filePos, Nat.zero_min, List.drop_zero, List.nil_append]
      exact searchable.noNul
    · simp only [fds, Function.update_self, slot.filePos, Nat.zero_min, List.drop_zero, List.nil_append]
      exact Grep.short_file _ searchable.short
    · simp only [fds, Function.update_self, slot.filePos, Nat.zero_min, List.drop_zero, List.nil_append]
  obtain ⟨result, ended, searched⟩ := search_file image line buf literal s name nonempty dentry.inodeNum fd fds
    w.files.devices _ _ searchable.good ⟨smallest.1, smallest.2.1⟩ start
  have enough : fileFuel = fileLength image dentry.inodeNum + 1 + (fileFuel - (fileLength image dentry.inodeNum + 1)) := by
    have long := searchable.good.lengthInRange
    have fuel : fileFuel = 2 ^ 32 := rfl
    omega
  refine entry_closed image line buf literal s name stack dir fd w ready _ _ _ smallest opened rfl ⟨result, ?_, searched⟩
  rw [enough]
  exact Loop.run_longer _ _ _ _ _ ended

end Entry

theorem entry_searched (s : CString) (nonempty : s.bytes ≠ []) (ascii : s.memory 0 < 128) (stack : Bytes)
    (clear : stack bufSize ≠ newline) (dir i : Nat)
    (w : World) (ready : Ready dir w) (named : entryName image i ≠ []) (shown : ¬ Hidden image i)
    (searchable : SearchableEntry image i) :
    ∃ last, doOneFile image line buf literal s (entryString image i) stack fileFuel w = some (0, last) ∧ Ready dir last ∧
      last.output = w.output ++ searchedEntry image s i ∧
      last.files.devices.numFilesRead = w.files.devices.numFilesRead := by
  obtain ⟨dentry, found, kind⟩ := searchable.resolve_left shown
  rcases kind with clock | ⟨regular, searchable⟩
  · have other : ¬ dentry.filetype = Files.regFiletype := by
      rw [clock]
      decide
    have silent : searchedEntry image s i = [] := by
      simp only [searchedEntry, if_neg shown, found, if_neg other]
    rw [silent, List.append_nil]
    exact clock_searched image line buf literal s _ nonempty stack dir w ready dentry found named clock
  · have printed : searchedEntry image s i =
        each newline (printed s (entryString image i)) (fileContent image dentry.inodeNum) := by
      simp only [searchedEntry, if_neg shown, found, if_pos regular]
      rw [Grep.wanted_each, Grep.printed_report s _ ascii]
    rw [printed]
    exact file_searched image line buf literal s _ nonempty stack dir w ready dentry found named clear regular searchable

structure Grepping (dir e : Nat) (w : World) : Prop where
  ready : Ready dir w
  inside : w.cursor ≤ e

theorem entry_string_at (i : Nat) (old : Bytes) :
    nameAt (Function.update (store old 0 (FileSystem.paddedName (entryName image i))) (entryName image i).length 0) sbufsize =
      entryString image i := by
  have length := FileSystem.entry_name_length image i
  have size : sbufsize = 33 := rfl
  have fits := padded_fits (entryName image i)
  have same : nameIn (Function.update (store old 0 (FileSystem.paddedName (entryName image i))) (entryName image i).length 0)
      sbufsize = entryName image i := by
    refine name_from_stop _ sbufsize _ 0 (FileSystem.entry_name_no_nul image i) ?_ ?_ (by omega)
    · intro k bound
      rw [Nat.zero_add, Function.update_of_ne (by omega), store, if_pos (by omega), Nat.sub_zero, FileSystem.paddedName,
        List.getD_append _ _ _ _ bound]
    · rw [Nat.zero_add, Function.update_self]
  exact (CString.mk.injEq ..).mpr same

omit image line buf literal in
theorem first_byte (image : Image) (i : Nat) (old : Bytes) (named : entryName image i ≠ []) :
    store old 0 (FileSystem.paddedName (entryName image i)) 0 = 46 ↔ Hidden image i := by
  have fits := padded_fits (entryName image i)
  have positive := List.length_pos_iff.mpr named
  rw [Hidden, store, if_pos (by omega), FileSystem.paddedName]
  generalize entryName image i = name at named
  cases name with
  | nil => exact absurd rfl named
  | cons byte rest => exact Option.some_inj.symm

theorem grep_listing (s : CString) (nonempty : s.bytes ≠ []) (ascii : s.memory 0 < 128) (frames : Nat → Bytes)
    (clear : ∀ i, frames i bufSize ≠ newline) (dir e : Nat) (small : e < 256) (first : FirstEmpty image e)
    (searchable : ∀ i < e, SearchableEntry image i) :
    Listing image (Grepping dir e) (searchedEntry image s) (grepRound image line buf literal s frames dir) := by
  constructor
  · intro r grepping empty
    refine ⟨⟨r.world.advance.files, r.world.output⟩, ?_, rfl⟩
    have read := directory_read image line dir buf (sbufsize - 1) r.world grepping.ready.directory
    rw [empty] at read
    simp only [grepRound, read, List.length_nil, Nat.cast_zero, if_true]
  · intro r grepping named
    have inside := grepping.inside
    have below : r.world.cursor < e := by
      apply Nat.lt_of_le_of_ne inside
      intro same
      exact named (same ▸ first.empty)
    have read := directory_read image line dir buf (sbufsize - 1) r.world grepping.ready.directory
    have positive : ((entryName image r.world.cursor).length : Int) ≠ 0 := by
      have length := List.length_pos_iff.mpr named
      omega
    have succeeds : ((entryName image r.world.cursor).length : Int) ≠ -1 := by omega
    have ready : Ready dir r.world.advance :=
      ⟨⟨grepping.ready.directory.standard, grepping.ready.directory.own, grepping.ready.directory.used,
        grepping.ready.directory.table⟩, grepping.ready.free⟩
    have within (next : World) (cursor : next.files.devices.numFilesRead = r.world.files.devices.numFilesRead + 1) :
        next.cursor ≤ e := by
      rw [World.cursor, cursor, UInt8.toNat_add]
      change (r.world.cursor + 1) % 256 ≤ e
      omega
    have initial := first_byte image r.world.cursor r.data named
    by_cases shown : Hidden image r.world.cursor
    · refine ⟨⟨store r.data 0 (FileSystem.paddedName (entryName image r.world.cursor)), r.world.advance⟩, ?_,
        ⟨ready, within _ rfl⟩, rfl, ?_⟩
      · simp only [grepRound, read, if_neg positive, if_neg succeeds, if_pos (initial.mpr shown)]
        rfl
      · rw [searchedEntry, if_pos shown, List.append_nil]
        rfl
    · obtain ⟨last, done, after, output, cursor⟩ := entry_searched image line buf literal s nonempty ascii
        (frames r.world.cursor) (clear _) dir r.world.cursor r.world.advance ready named shown (searchable _ below)
      have zero : ¬ (0 : Int) ≠ 0 := not_not_intro rfl
      have searched : grepRound image line buf literal s frames dir r = some (.inl
          ⟨Function.update (store r.data 0 (FileSystem.paddedName (entryName image r.world.cursor)))
            (entryName image r.world.cursor).length 0, last⟩) := by
        simp only [grepRound, read, if_neg positive, if_neg succeeds, if_neg (fun byte => shown (initial.mp byte)),
          Int.toNat_natCast, entry_string_at]
        change (doOneFile image line buf literal s _ _ fileFuel r.world.advance).map _ = _
        rw [done, Option.map_some, if_neg zero]
      exact ⟨_, searched, ⟨after, within last cursor⟩, cursor, output⟩

theorem grep_searches (search : CString) (nonempty : search.bytes ≠ []) (fits : search.bytes.length ≤ 127)
    (ascii : search.memory 0 < 128) (old buffer stack : Bytes) (frames : Nat → Bytes)
    (clear : ∀ i, frames i bufSize ≠ newline) (table : Table) (devices : Devices) (output : List UInt8)
    (dentry : Dentry) (found : readDentryByName image dot = some dentry)
    (directory : dentry.filetype = Files.dirFiletype) (e : Nat) (small : e < 256) (first : FirstEmpty image e)
    (searchable : ∀ i < e, SearchableEntry image i) :
    Leaves (grepMain image line buf literal (Process.strcpy search.bytes old) buffer stack frames (e + 1)
      ⟨⟨Files.executeFds table, devices⟩, output⟩) 0 ⟨⟨Files.executeFds table, devices⟩, output⟩
      ((List.range e).flatMap (searchedEntry image search)) := by
  have standard := execute_standard table
  have unused : ∀ i, 2 ≤ i → i ≤ 7 → Files.Unused (Files.executeFds table) i := by
    intro i low high
    rw [Files.Unused, Files.executeFds, if_neg (by omega), if_neg (by omega), if_pos high]
  have opens := opens_free image dot dentry _ 2 (by decide) found (by rw [directory]; decide) (by decide) (by decide)
    (unused 2 (by decide) (by decide))
  obtain ⟨fd, result, opened, rewound, others⟩ := directory_opened image dot ⟨⟨Files.executeFds table, devices⟩,
    output⟩ dentry
    standard found directory opens
  have free : ∃ i, 2 ≤ i ∧ i ≤ 7 ∧ Files.Unused (sysOpen image (some dot) ⟨Files.executeFds table, devices⟩).2.fds i := by
    by_cases third : fd = 3
    · refine ⟨2, by decide, by decide, ?_⟩
      rw [Files.Unused, others 2 (by omega)]
      exact unused 2 (by decide) (by decide)
    · refine ⟨3, by decide, by decide, ?_⟩
      rw [Files.Unused, others 3 (by omega)]
      exact unused 3 (by decide) (by decide)
  have start : (⟨(sysOpen image (some dot) ⟨Files.executeFds table, devices⟩).2, output⟩ : World).cursor ≤ e := by
    rw [World.cursor, rewound]
    exact Nat.zero_le e
  obtain ⟨last, ended, wrote⟩ := listing_ends image _ _ _
    (grep_listing image line buf literal search nonempty ascii frames clear fd e small first searchable)
    ⟨stack, _⟩ ⟨⟨opened, free⟩, start⟩ rewound e small first
  have room : (search.bytes.length : Int) < bufSize := by
    have size : bufSize = 1024 := rfl
    omega
  have succeeds : ¬ (fd : Int) = -1 := by omega
  refine ⟨last, ?_, wrote⟩
  have inside : search.bytes.length < catBufsize := by
    have size : catBufsize = 1024 := rfl
    omega
  have string := name_of_args search buffer inside
  simp only [grepMain, Process.getargs_text search.bytes old search.noNul fits buffer bufSize, if_pos room, ne_eq,
    not_true_eq_false, if_false, Option.getD_some, result, if_neg succeeds]
  rw [show nameAt (Process.strcpy search.bytes buffer) bufSize = search from string]
  exact ended

end Main

def letterH : CString := ⟨[104], List.forall_mem_singleton.mpr (by decide)⟩

theorem grep_searches_note :
    Leaves (grepMain noteImage (fun _ => 0) notePointer notePointer (Process.strcpy letterH.bytes fun _ => 0) (fun _ => 0)
      (fun _ => 0) (fun _ _ => 0) 3 noteWorld) 0 noteWorld [97, 58, 104, 105, 10] := by
  have lines : ∀ line ∈ (fileContent noteImage 0).splitOn newline, line.length ≤ 1023 := by decide +kernel
  have file : SearchableEntry noteImage 1 :=
    Or.inr ⟨⟨97 :: List.replicate 31 0, 2, 0⟩, by decide +kernel, Or.inr ⟨rfl, note_good, by decide +kernel, lines⟩⟩
  have listed : ∀ i < 2, SearchableEntry noteImage i := by
    intro i inside
    cases i with
    | zero => exact Or.inl (by decide +kernel)
    | succ i =>
        have one : i = 0 := by omega
        exact one ▸ file
  have found : (List.range 2).flatMap (searchedEntry noteImage letterH) = [97, 58, 104, 105, 10] := by decide +kernel
  rw [← found]
  exact grep_searches noteImage (fun _ => 0) notePointer notePointer letterH (by decide) (by decide) (by decide) (fun _ => 0)
    (fun _ => 0) (fun _ => 0) (fun _ _ => 0) (fun _ => by decide) _ _ [] _ note_dot rfl 2 (by decide) note_first_empty listed

end SimpleKernel.Programs
