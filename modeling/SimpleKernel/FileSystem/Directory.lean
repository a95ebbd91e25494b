import SimpleKernel.FileSystem.ReadData
import SimpleKernel.Library.Run

set_option autoImplicit false

namespace SimpleKernel.FileSystem

-- num_files_read, the one cursor that all directory descriptors share.
abbrev Cursor := UInt8

def directoryOpen : Cursor := 0

-- nbytes is not used: 33 bytes are stored whatever the caller asked for.
def directoryRead (image : Image) (buf : Nat) (numFilesRead : Cursor) : ReadResult × Cursor :=
  if buf = 0 then (⟨[], -1⟩, numFilesRead)
  else
    match readDentryByIndex image numFilesRead.toNat with
    | none => (⟨[], -1⟩, numFilesRead)
    | some dentry =>
        let stored := strncpy (fun i => dentry.filename.getD i 0) filenameLen ++ [0]
        (⟨stored, strlen (fun i => stored.getD i 0) 33⟩, numFilesRead + 1)

def readStep (image : Image) (numFilesRead : Cursor) (buf : Nat) : Cursor := (directoryRead image buf numFilesRead).2

def paddedName (name : List UInt8) : List UInt8 := name ++ List.replicate (33 - name.length) 0

def ListsEntries (image : Image) : Prop :=
  ∀ (before : List Nat) (buf : Nat), (∀ earlier ∈ before, earlier ≠ 0) → buf ≠ 0 →
    let result := (directoryRead image buf (Run.final (readStep image) directoryOpen before)).1
    if before.length < dirCount image then
      result = ⟨paddedName (entryName image before.length), (entryName image before.length).length⟩
    else result.ret = 0

def IndexBounded (image : Image) : Prop :=
  ∀ index < 2 ^ 32, dirCount image ≤ index → readDentryByIndex image index = none

def NamesListed (image : Image) : Prop :=
  ∀ fname : CString, fname.bytes ≠ [] →
    ((readDentryByName image fname).isSome = true ↔ ∃ j < dirCount image, entryName image j = fname.bytes)

def DirectoryLaw (image : Image) : Prop := ListsEntries image ∧ IndexBounded image ∧ NamesListed image

theorem strncpy_entry_again (image : Image) (index : Nat) :
    strncpy (fun i => (copyDentry image index).filename.getD i 0) 32 ++ [0] = paddedName (entryName image index) := by
  have short := entry_name_length image index
  have count : 33 - (entryName image index).length = (32 - (entryName image index).length) + 1 := by omega
  rw [strncpy_name, copy_dentry_name, paddedName, count, List.replicate_succ', List.append_assoc]

theorem padded_name_strlen (name : List UInt8) (short : name.length ≤ 32) (noNul : ∀ byte ∈ name, byte ≠ 0) :
    strlen (fun i => (paddedName name).getD i 0) 33 = name.length := by
  have count : 33 - name.length = (32 - name.length) + 1 := by omega
  rw [strlen_name, nameIn, name_from_list name (List.replicate (33 - name.length) 0) 33 _ 0 noNul (by omega)]
  · simp [count, List.replicate_succ]
  · intro k _
    simp [paddedName]

theorem directory_read_entry (image : Image) (buf : Nat) (numFilesRead : Cursor) (mapped : buf ≠ 0) :
    directoryRead image buf numFilesRead =
      (⟨paddedName (entryName image numFilesRead.toNat), (entryName image numFilesRead.toNat).length⟩,
        numFilesRead + 1) := by
  have stored := strncpy_entry_again image numFilesRead.toNat
  have length := padded_name_strlen (entryName image numFilesRead.toNat) (entry_name_length _ _) (entry_name_no_nul _ _)
  simp only [directoryRead, if_neg mapped, readDentryByIndex, filenameLen, stored, length]

theorem read_step_count (image : Image) (before : List Nat) (mapped : ∀ earlier ∈ before, earlier ≠ 0) :
    (Run.final (readStep image) directoryOpen before).toNat = before.length % 256 := by
  induction before using List.reverseRecOn with
  | nil => rfl
  | append_singleton done buf ih =>
      have previous := ih (fun earlier member => mapped earlier (List.mem_append_left _ member))
      rw [Run.final_concat, readStep, directory_read_entry image buf _ (mapped buf (by simp))]
      simp only [UInt8.toNat_add, previous, List.length_append, List.length_singleton]
      change (done.length % 256 + 1) % 256 = (done.length + 1) % 256
      omega

-- The cursor is eight bits wide and never compared with dir_count, so the
-- listing ends only when all 256 slots it can name look empty.
theorem lists_entries_iff (image : Image) (small : dirCount image ≤ 63) :
    ListsEntries image ↔ ∀ index < 256, entryName image index = [] := by
  constructor
  · intro lists index bound
    have mapped : ∀ earlier ∈ List.replicate (256 + index) 1, earlier ≠ 0 := by simp
    have cursor := read_step_count image (List.replicate (256 + index) 1) mapped
    have last := lists (List.replicate (256 + index) 1) 1 mapped (by decide)
    have wrapped : (256 + index) % 256 = index := by omega
    rw [List.length_replicate, wrapped] at cursor
    rw [directory_read_entry image 1 _ (by decide), cursor, List.length_replicate] at last
    have past : ¬ 256 + index < dirCount image := by omega
    simp only [if_neg past] at last
    exact List.eq_nil_of_length_eq_zero (by omega)
  · intro empty before buf mapped target
    have cursor := read_step_count image before mapped
    rw [directory_read_entry image buf _ target, cursor]
    by_cases listed : before.length < dirCount image
    · have same : before.length % 256 = before.length := by omega
      simp only [if_pos listed, same]
    · simp only [if_neg listed, empty (before.length % 256) (by omega), List.length_nil]
      rfl

theorem index_never_bounded (image : Image) (small : dirCount image ≤ 63) : ¬ IndexBounded image := by
  intro bounded
  have refused := bounded (dirCount image) (by omega) (Nat.le_refl _)
  simp [readDentryByIndex] at refused

theorem read_dentry_by_name_is_some (image : Image) (fname : CString) :
    (readDentryByName image fname).isSome = true ↔ ∃ k < numMaxDentries, entryName image k = fname.bytes := by
  rw [← not_iff_not, Bool.not_eq_true, Option.isSome_eq_false_iff, Option.isNone_iff_eq_none,
    read_dentry_by_name_none]
  constructor
  · rintro (long | apart)
    · rintro ⟨k, _, same⟩
      have short := entry_name_length image k
      rw [same] at short
      omega
    · rintro ⟨k, bound, same⟩
      exact apart k bound same
  · intro absent
    exact Or.inr fun k bound same => absent ⟨k, bound, same⟩

theorem names_listed_iff (image : Image) (small : dirCount image ≤ 63) :
    NamesListed image ↔
      ∀ k < numMaxDentries, dirCount image ≤ k →
        entryName image k = [] ∨ ∃ j < dirCount image, entryName image j = entryName image k := by
  constructor
  · intro listed k bound _
    by_cases empty : entryName image k = []
    · exact Or.inl empty
    · have law := listed ⟨entryName image k, entry_name_no_nul image k⟩ empty
      rw [read_dentry_by_name_is_some] at law
      exact Or.inr (law.mp ⟨k, bound, rfl⟩)
  · intro stale fname nonempty
    rw [read_dentry_by_name_is_some]
    constructor
    · rintro ⟨k, bound, same⟩
      by_cases counted : k < dirCount image
      · exact ⟨k, counted, same⟩
      · rcases stale k bound (by omega) with empty | ⟨j, listed, twin⟩
        · exact absurd (same.symm.trans empty) nonempty
        · exact ⟨j, listed, twin.trans same⟩
    · rintro ⟨j, listed, same⟩
      exact ⟨j, by simp only [numMaxDentries]; omega, same⟩

def staleImage : Image := fun address =>
  if address = 0 then 1 else if address = 64 then 97 else if address = 128 then 98 else 0

theorem stale_slot_listed : ¬ DirectoryLaw staleImage := by
  intro law
  have second := law.1 [1] 1 (by decide) (by decide)
  revert second
  decide

theorem directory_law_exact (image : Image) (small : dirCount image ≤ 63) :
    (ListsEntries image ↔ ∀ index < 256, entryName image index = []) ∧
      ¬ IndexBounded image ∧
      (NamesListed image ↔ ∀ k < numMaxDentries, dirCount image ≤ k →
        entryName image k = [] ∨ ∃ j < dirCount image, entryName image j = entryName image k) ∧
      ¬ DirectoryLaw image :=
  ⟨lists_entries_iff image small, index_never_bounded image small, names_listed_iff image small,
    fun law => index_never_bounded image small law.2.1⟩

theorem directory_law_exact_stale :
    dirCount staleImage ≤ 63 ∧ ¬ IndexBounded staleImage ∧ ¬ DirectoryLaw staleImage :=
  have small : dirCount staleImage ≤ 63 := by decide
  ⟨small, (directory_law_exact staleImage small).2.1, (directory_law_exact staleImage small).2.2.2⟩

end SimpleKernel.FileSystem
