import SimpleKernel.FileSystem.ReadData
import SimpleKernel.Library.Scan
import SimpleKernel.Paging.Tables

set_option autoImplicit false

namespace SimpleKernel.Process

open FileSystem (Image readDentryByName readData)
open Paging (Tables size4kb size4mb vidmapIdx present)
open BitField (get)

-- for (i = 0; i < 32; i++): the index at which the copy into cmds stops.
def wordEnd (command : Bytes) : Nat → Nat → Nat
  | 0, i => i
  | left + 1, i =>
      if command i = 0 then i
      else if command i = 32 ∨ command i = 10 then i
      else wordEnd command left (i + 1)

-- The loop over the arguments has no bound but the string's own end.
def argsEnd (args : Bytes) : Nat → Nat → Nat
  | 0, i => i
  | left + 1, i => if args i = 10 ∨ args i = 0 then i else argsEnd args left (i + 1)

def EndsWord (byte : UInt8) : Prop := byte = 0 ∨ byte = 32 ∨ byte = 10

def EndsArguments (byte : UInt8) : Prop := byte = 10 ∨ byte = 0

instance (byte : UInt8) : Decidable (EndsWord byte) := inferInstanceAs (Decidable (_ ∨ _))

instance (byte : UInt8) : Decidable (EndsArguments byte) := inferInstanceAs (Decidable (_ ∨ _))

theorem word_end_scan (command : Bytes) (left i : Nat) :
    wordEnd command left i = Scan.first (fun k => EndsWord (command k)) left i := by
  induction left generalizing i with
  | zero => rfl
  | succ left ih =>
      by_cases zero : command i = 0
      · simp [wordEnd, Scan.first, EndsWord, zero]
      · simp [wordEnd, Scan.first, EndsWord, zero, ih]

theorem args_end_scan (args : Bytes) (left i : Nat) :
    argsEnd args left i = Scan.first (fun k => EndsArguments (args k)) left i := by
  induction left generalizing i with
  | zero => rfl
  | succ left ih =>
      rw [argsEnd, Scan.first, ih]
      rfl

theorem word_end_clean (command : Bytes) (left i k : Nat) (low : i ≤ k) (high : k < wordEnd command left i) :
    ¬ EndsWord (command k) := by
  rw [word_end_scan] at high
  exact Scan.clean_before (fun k => EndsWord (command k)) left i k low high

def firstWord (command : CString) : CString where
  bytes := (List.range (wordEnd command.memory 32 0)).map command.memory
  noNul := by
    intro byte member
    obtain ⟨k, bound, rfl⟩ := List.mem_map.mp member
    intro zero
    exact word_end_clean command.memory 32 0 k (Nat.zero_le k) (List.mem_range.mp bound) (Or.inl zero)

def arguments (command : CString) : List UInt8 :=
  let i := (firstWord command).bytes.length
  let args := fun k => command.memory (k + i + 1)
  if command.memory i = 32 then (List.range (argsEnd args command.bytes.length 0)).map args else []

-- The NUL goes to cmds[32] after a word of 32 bytes, and to arg_dat[128] or
-- behind after 128 argument bytes: the stack of the kernel is overwritten.
def overruns (command : CString) : Bool :=
  32 ≤ (firstWord command).bytes.length || ((firstWord command).bytes ≠ [] && 128 ≤ (arguments command).length)

def quitCommand : CString := ⟨[113, 117, 105, 116], by simp⟩

def shellCommand : CString := ⟨[115, 104, 101, 108, 108], by simp⟩

def isQuit (command : CString) : Bool := strncmp (firstWord command).memory quitCommand.memory 4 = 0

structure Program where
  inodeNum : Nat
  entryAddress : Nat
deriving DecidableEq, Repr

def magic : List UInt8 := [0x7F, 0x45, 0x4C, 0x46]

-- exe_data after the read. The return value is not looked at: bytes that were
-- not stored are those the stack held before.
def header (image : Image) (inodeNum : Nat) (exeData : Bytes) : Bytes :=
  let read := readData image inodeNum 0 40
  fun i => read.stored.getD i (exeData i)

def hasMagic (header : Bytes) : Bool := (List.range 4).all fun i => header i == magic.getD i 0

def entryAddress (header : Bytes) : Nat :=
  2 ^ 24 * (header 27).toNat + 2 ^ 16 * (header 26).toNat + 2 ^ 8 * (header 25).toNat + (header 24).toNat

def findProgram (image : Image) (exeData : Bytes) (cmds : CString) : Option Program :=
  match readDentryByName image cmds with
  | none => none
  | some dentry =>
      if dentry.filetype ≠ 2 then none
      else
        let header := header image dentry.inodeNum exeData
        if hasMagic header then some ⟨dentry.inodeNum, entryAddress header⟩ else none

def loadOffset : Nat := 0x48000

-- The loader writes from 128MB + 0x48000 on. The page of the process ends at
-- 132MB; the 4KB behind it are mapped once a process has called vidmap.
def fitsPage (image : Image) (program : Program) (paging : Tables) : Bool :=
  loadOffset + (readData image program.inodeNum 0 (1023 * 4096)).stored.length ≤
    if get present (paging.pageDirectory vidmapIdx) = 1 then size4mb + size4kb else size4mb

theorem shell_fits : overruns shellCommand = false ∧ isQuit shellCommand = false ∧
    (firstWord shellCommand).bytes = shellCommand.bytes ∧ arguments shellCommand = [] := by
  decide

end SimpleKernel.Process
