import SimpleKernel.Strings

set_option autoImplicit false

namespace SimpleKernel.FileSystem

def filenameLen : Nat := 32
def numMaxDentries : Nat := 63

-- The image is memory addressed from bootblock_addr; addresses wrap at 32 bits.
abbrev Image := Nat → UInt8

def byteAt (image : Image) (address : Int) : UInt8 := image (address % 2 ^ 32).toNat

def word (image : Image) (address : Int) : Nat :=
  (byteAt image address).toNat + 2 ^ 8 * (byteAt image (address + 1)).toNat +
    2 ^ 16 * (byteAt image (address + 2)).toNat + 2 ^ 24 * (byteAt image (address + 3)).toNat

def toInt32 (value : Int) : Int := if value % 2 ^ 32 < 2 ^ 31 then value % 2 ^ 32 else value % 2 ^ 32 - 2 ^ 32

def dirCount (image : Image) : Nat := word image 0
def inodeCount (image : Image) : Nat := word image 4
def dataCount (image : Image) : Nat := word image 8

-- &bootblock_addr->direntries[index]
def dentryAddress (index : Nat) : Int := 64 + 64 * (index : Int)

def dentryFilename (image : Image) (index : Nat) : Bytes := fun i => byteAt image (dentryAddress index + i)
def dentryFiletype (image : Image) (index : Nat) : Nat := word image (dentryAddress index + 32)
def dentryInode (image : Image) (index : Nat) : Nat := word image (dentryAddress index + 36)

structure Dentry where
  filename : List UInt8
  filetype : Nat
  inodeNum : Nat
deriving DecidableEq, Repr

def copyDentry (image : Image) (index : Nat) : Dentry where
  filename := strncpy (dentryFilename image index) filenameLen
  filetype := dentryFiletype image index
  inodeNum := dentryInode image index

def scanDentries (image : Image) (fname : CString) : Nat → Nat → Option Dentry
  | 0, _ => none
  | left + 1, i =>
      if strncmp (dentryFilename image i) fname.memory 32 = 0 then some (copyDentry image i)
      else scanDentries image fname left (i + 1)

-- none is FAILURE, which leaves the caller's dentry as it was.
def readDentryByName (image : Image) (fname : CString) : Option Dentry :=
  if fname.bytes.length > 32 then none else scanDentries image fname numMaxDentries 0

-- The index is not compared with anything: every index succeeds.
def readDentryByIndex (image : Image) (index : Nat) : Option Dentry := some (copyDentry image index)

def entryName (image : Image) (index : Nat) : List UInt8 := nameIn (dentryFilename image index) filenameLen

theorem to_int32_small (value : Int) (low : -2 ^ 31 ≤ value) (high : value < 2 ^ 31) : toInt32 value = value := by
  unfold toInt32
  split <;> omega

theorem word_bound (image : Image) (address : Int) : word image address < 2 ^ 32 := by
  have b0 := (byteAt image address).toNat_lt
  have b1 := (byteAt image (address + 1)).toNat_lt
  have b2 := (byteAt image (address + 2)).toNat_lt
  have b3 := (byteAt image (address + 3)).toNat_lt
  simp only [word]
  omega

theorem entry_name_length (image : Image) (index : Nat) : (entryName image index).length ≤ 32 :=
  name_in_length _ _

theorem entry_name_no_nul (image : Image) (index : Nat) : ∀ byte ∈ entryName image index, byte ≠ 0 :=
  name_in_no_nul _ _

theorem copy_dentry_name (image : Image) (index : Nat) :
    nameIn (fun i => (copyDentry image index).filename.getD i 0) 32 = entryName image index :=
  strncpy_name_again (dentryFilename image index) 32 32 (Nat.le_refl 32)

theorem scan_dentries_none (image : Image) (fname : CString) (fits : fname.bytes.length ≤ 32) (left i : Nat) :
    scanDentries image fname left i = none ↔ ∀ k < left, entryName image (i + k) ≠ fname.bytes := by
  induction left generalizing i with
  | zero => simp [scanDentries]
  | succ left ih =>
      by_cases hit : strncmp (dentryFilename image i) fname.memory 32 = 0
      · have same : entryName image i = fname.bytes := by
          rw [strncmp_zero, c_string_name fname 32 fits] at hit
          exact hit
        simp only [scanDentries, if_pos hit, reduceCtorEq, false_iff]
        intro apart
        exact apart 0 (by omega) same
      · have different : entryName image i ≠ fname.bytes := by
          rw [strncmp_zero, c_string_name fname 32 fits] at hit
          exact hit
        rw [scanDentries, if_neg hit, ih (i + 1)]
        constructor
        · intro later k bound
          cases k with
          | zero => exact different
          | succ k => simpa [Nat.add_assoc, Nat.add_comm 1 k] using later k (by omega)
        · intro all k bound
          simpa [Nat.add_assoc, Nat.add_comm 1 k] using all (k + 1) (by omega)

theorem scan_dentries_first (image : Image) (fname : CString) (fits : fname.bytes.length ≤ 32) (left i k : Nat)
    (inside : k < left) (same : entryName image (i + k) = fname.bytes)
    (before : ∀ earlier < k, entryName image (i + earlier) ≠ fname.bytes) :
    scanDentries image fname left i = some (copyDentry image (i + k)) := by
  have compare : ∀ j, strncmp (dentryFilename image j) fname.memory 32 = 0 ↔ entryName image j = fname.bytes := by
    intro j
    rw [strncmp_zero, c_string_name fname 32 fits]
    rfl
  induction left generalizing i k with
  | zero => omega
  | succ left ih =>
      cases k with
      | zero => rw [scanDentries, if_pos ((compare i).mpr same), Nat.add_zero]
      | succ k =>
          have shift : ∀ j, i + 1 + j = i + (j + 1) := by
            intro j
            omega
          have different : entryName image i ≠ fname.bytes := before 0 (Nat.succ_pos k)
          have later := ih (i + 1) k (by omega) (shift k ▸ same) fun earlier less => shift earlier ▸ before
            (earlier + 1) (by omega)
          rw [scanDentries, if_neg (fun hit => different ((compare i).mp hit)), later, shift]

theorem read_dentry_by_name_none (image : Image) (fname : CString) :
    readDentryByName image fname = none ↔
      32 < fname.bytes.length ∨ ∀ k < numMaxDentries, entryName image k ≠ fname.bytes := by
  by_cases long : fname.bytes.length > 32
  · simp [readDentryByName, long]
  · rw [readDentryByName, if_neg long, scan_dentries_none image fname (by omega)]
    simp [Nat.not_lt.mpr (Nat.le_of_not_lt long)]

theorem read_dentry_by_name_first (image : Image) (fname : CString) (k : Nat) (inside : k < numMaxDentries)
    (same : entryName image k = fname.bytes) (before : ∀ earlier < k, entryName image earlier ≠ fname.bytes) :
    readDentryByName image fname = some (copyDentry image k) := by
  have short : fname.bytes.length ≤ 32 := by
    rw [← same]
    exact entry_name_length image k
  have found := scan_dentries_first image fname short numMaxDentries 0 k inside (by rwa [Nat.zero_add])
    (by simpa only [Nat.zero_add] using before)
  rwa [readDentryByName, if_neg (Nat.not_lt.mpr short), ← Nat.zero_add k]

end SimpleKernel.FileSystem
