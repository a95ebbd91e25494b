import Mathlib.Tactic.IntervalCases
import SimpleKernel.Library.Flags

set_option autoImplicit false

namespace SimpleKernel.SystemCalls

inductive KernelFunction where
  | halt
  | execute
  | read
  | write
  | open
  | close
  | getargs
  | vidmap
deriving DecidableEq, Repr

-- The words of sys_call_table; set_handler and sigreturn are commented out.
def sysCallTable : List (Option KernelFunction) :=
  [none, some .halt, some .execute, some .read, some .write, some .open, some .close, some .getargs, some .vidmap]

structure Registers where
  eax : BitVec 32
  ebx : BitVec 32
  ecx : BitVec 32
  edx : BitVec 32
  esi : BitVec 32
  edi : BitVec 32
  ebp : BitVec 32
  eflags : BitVec 32
deriving DecidableEq

-- Where the kernel image lies: the table, the functions, and whatever words
-- are found everywhere else.
structure Image where
  table : BitVec 32
  address : KernelFunction → BitVec 32
  elsewhere : BitVec 32 → BitVec 32

def Image.tableWord (image : Image) : Option KernelFunction → BitVec 32
  | none => 0
  | some function => image.address function

def Image.entry (image : Image) (i : Nat) : BitVec 32 := image.table + BitVec.ofNat 32 (4 * i)

def Image.word (image : Image) (address : BitVec 32) : BitVec 32 :=
  match (List.range sysCallTable.length).find? fun i => address = image.entry i with
  | some i => image.tableWord (sysCallTable.getD i none)
  | none => image.elsewhere address

inductive Outcome where
  -- the call instruction: the word it jumps through, its target, and the stack
  | calls (through target : BitVec 32) (stack : List (BitVec 32))
  | returns (registers : Registers)
deriving DecidableEq

def bookkeeping (registers : Registers) : List (BitVec 32) :=
  [registers.ebx, registers.ecx, registers.edx, registers.esi, registers.edi, registers.ebp, registers.eflags]

def syscallReturn (eax : BitVec 32) (stack : List (BitVec 32)) : Registers :=
  ⟨eax, stack.getD 0 0, stack.getD 1 0, stack.getD 2 0, stack.getD 3 0, stack.getD 4 0, stack.getD 5 0, stack.getD 6 0⟩

def handleSigSyscall (image : Image) (registers : Registers) : Outcome :=
  let stack := bookkeeping registers
  if Flags.lessEqual (Flags.compare registers.eax 0) then .returns (syscallReturn (-1) stack)
  else if Flags.greater (Flags.compare registers.eax 10) then .returns (syscallReturn (-1) stack)
  else
    let through := image.table + registers.eax * 4
    .calls through (image.word through) stack

-- The wrappers of the user library, with the numbers they put in eax.
inductive LibraryCall where
  | halt
  | execute
  | read
  | write
  | open
  | close
  | getargs
  | vidmap
  | setHandler
  | sigreturn
deriving DecidableEq, Repr

def LibraryCall.number : LibraryCall → BitVec 32
  | .halt => 1
  | .execute => 2
  | .read => 3
  | .write => 4
  | .open => 5
  | .close => 6
  | .getargs => 7
  | .vidmap => 8
  | .setHandler => 9
  | .sigreturn => 10

-- The kernel declares set_handler and sigreturn but defines neither.
def LibraryCall.kernelFunction : LibraryCall → Option KernelFunction
  | .halt => some .halt
  | .execute => some .execute
  | .read => some .read
  | .write => some .write
  | .open => some .open
  | .close => some .close
  | .getargs => some .getargs
  | .vidmap => some .vidmap
  | .setHandler => none
  | .sigreturn => none

def Denotes (eax : BitVec 32) (function : KernelFunction) : Prop :=
  ∃ call : LibraryCall, call.number = eax ∧ call.kernelFunction = some function

def InTable (image : Image) (address : BitVec 32) : Prop := ∃ i < sysCallTable.length, address = image.entry i

structure Lawful (image : Image) (registers : Registers) : Prop where
  called : ∀ function, Denotes registers.eax function → ∃ through, InTable image through ∧
    handleSigSyscall image registers = .calls through (image.address function) (bookkeeping registers)
  refused : (∀ function, ¬ Denotes registers.eax function) →
    handleSigSyscall image registers = .returns { registers with eax := -1 }
  inTable : ∀ through target stack, handleSigSyscall image registers = .calls through target stack → InTable image through

theorem entry_injective (image : Image) (i j : Nat) (first : i < 16) (second : j < 16)
    (same : image.entry i = image.entry j) :
    i = j := by
  have offsets := (BitVec.add_right_inj image.table).mp same
  have sizes := congrArg BitVec.toNat offsets
  rw [BitVec.toNat_ofNat, BitVec.toNat_ofNat] at sizes
  omega

theorem word_entry (image : Image) (i : Nat) (bound : i < sysCallTable.length) :
    image.word (image.entry i) = image.tableWord (sysCallTable.getD i none) := by
  have small : sysCallTable.length < 16 := by decide
  have found : (List.range sysCallTable.length).find? (fun j => image.entry i = image.entry j) = some i := by
    rw [List.find?_range_eq_some]
    refine ⟨decide_eq_true rfl, List.mem_range.mpr bound, fun j before => ?_⟩
    rw [Bool.not_eq_true', decide_eq_false_iff_not]
    intro same
    exact absurd (entry_injective image i j (by omega) (by omega) same) (by omega)
  simp only [Image.word, found]

theorem in_range_number (eax : BitVec 32) (low : 0 < eax.toInt) (high : eax.toInt ≤ 10) :
    ∃ k : Nat, 1 ≤ k ∧ k ≤ 10 ∧ eax = BitVec.ofNat 32 k := by
  have bound := eax.isLt
  rw [BitVec.toInt_eq_toNat_cond] at low high
  refine ⟨eax.toNat, ?_, ?_, BitVec.eq_of_toNat_eq ?_⟩
  · split at low <;> omega
  · split at high <;> omega
  · rw [BitVec.toNat_ofNat, Nat.mod_eq_of_lt bound]

theorem handle_refused (image : Image) (registers : Registers)
    (outside : registers.eax.toInt ≤ 0 ∨ 10 < registers.eax.toInt) :
    handleSigSyscall image registers = .returns { registers with eax := -1 } := by
  rw [handleSigSyscall]
  cases outside with
  | inl low => exact if_pos ((Flags.compare_less_equal _ _).mpr low)
  | inr high =>
      have positive : ¬ Flags.lessEqual (Flags.compare registers.eax 0) = true := by
        rw [Flags.compare_less_equal]
        change ¬ registers.eax.toInt ≤ 0
        omega
      exact (if_neg positive).trans (if_pos ((Flags.compare_greater registers.eax 10).mpr high))

theorem handle_called (image : Image) (registers : Registers) (k : Nat) (low : 1 ≤ k) (high : k ≤ 10)
    (number : registers.eax = BitVec.ofNat 32 k) :
    handleSigSyscall image registers = .calls (image.entry k) (image.word (image.entry k)) (bookkeeping registers) := by
  have value : registers.eax.toInt = k := by
    rw [number]
    interval_cases k <;> rfl
  have positive : ¬ Flags.lessEqual (Flags.compare registers.eax 0) = true := by
    rw [Flags.compare_less_equal]
    change ¬ registers.eax.toInt ≤ 0
    omega
  have small : ¬ Flags.greater (Flags.compare registers.eax 10) = true := by
    rw [Flags.compare_greater]
    change ¬ (10 : Int) < registers.eax.toInt
    omega
  have scaled : registers.eax * 4 = BitVec.ofNat 32 (4 * k) := by
    rw [number, Nat.mul_comm, BitVec.ofNat_mul]
    rfl
  rw [handleSigSyscall, if_neg positive, if_neg small, scaled]
  rfl

theorem number_range (call : LibraryCall) : 0 < call.number.toInt ∧ call.number.toInt ≤ 10 := by
  cases call <;> decide

theorem denotes_number (eax : BitVec 32) (function : KernelFunction) (denotes : Denotes eax function) :
    ∃ k : Nat, 1 ≤ k ∧ k ≤ 8 ∧ eax = BitVec.ofNat 32 k ∧ sysCallTable.getD k none = some function := by
  obtain ⟨call, number, kernel⟩ := denotes
  rw [← number]
  cases call with
  | halt => exact ⟨1, by decide, by decide, rfl, kernel⟩
  | execute => exact ⟨2, by decide, by decide, rfl, kernel⟩
  | read => exact ⟨3, by decide, by decide, rfl, kernel⟩
  | write => exact ⟨4, by decide, by decide, rfl, kernel⟩
  | «open» => exact ⟨5, by decide, by decide, rfl, kernel⟩
  | close => exact ⟨6, by decide, by decide, rfl, kernel⟩
  | getargs => exact ⟨7, by decide, by decide, rfl, kernel⟩
  | vidmap => exact ⟨8, by decide, by decide, rfl, kernel⟩
  | setHandler => cases kernel
  | sigreturn => cases kernel

theorem number_denotes (k : Nat) (low : 1 ≤ k) (high : k ≤ 8) : ∃ function, Denotes (BitVec.ofNat 32 k) function := by
  interval_cases k
  · exact ⟨.halt, .halt, rfl, rfl⟩
  · exact ⟨.execute, .execute, rfl, rfl⟩
  · exact ⟨.read, .read, rfl, rfl⟩
  · exact ⟨.write, .write, rfl, rfl⟩
  · exact ⟨.open, .open, rfl, rfl⟩
  · exact ⟨.close, .close, rfl, rfl⟩
  · exact ⟨.getargs, .getargs, rfl, rfl⟩
  · exact ⟨.vidmap, .vidmap, rfl, rfl⟩

theorem denoted_lawful (image : Image) (registers : Registers) (function : KernelFunction)
    (denotes : Denotes registers.eax function) : Lawful image registers := by
  obtain ⟨k, low, high, number, entry⟩ := denotes_number registers.eax function denotes
  have inTable : InTable image (image.entry k) := ⟨k, Nat.lt_succ_of_le high, rfl⟩
  have called := handle_called image registers k low (by omega) number
  rw [word_entry image k (Nat.lt_succ_of_le high), entry] at called
  constructor
  · intro other denotesOther
    obtain ⟨j, _, _, numberOther, entryOther⟩ := denotes_number registers.eax other denotesOther
    have same : j = k := by
      have values := congrArg BitVec.toNat (numberOther.symm.trans number)
      rw [BitVec.toNat_ofNat, BitVec.toNat_ofNat] at values
      omega
    rw [same, entry] at entryOther
    cases entryOther
    exact ⟨image.entry k, inTable, called⟩
  · intro nothing
    exact absurd denotes (nothing function)
  · intro through target stack outcome
    rw [called] at outcome
    cases outcome
    exact inTable

theorem outside_lawful (image : Image) (registers : Registers)
    (outside : registers.eax.toInt ≤ 0 ∨ 10 < registers.eax.toInt) : Lawful image registers := by
  have refused := handle_refused image registers outside
  constructor
  · intro function denotes
    obtain ⟨call, number, _⟩ := denotes
    have range := number_range call
    rw [number] at range
    omega
  · exact fun _ => refused
  · intro through target stack outcome
    rw [refused] at outcome
    cases outcome

-- The bounds check admits 9 and 10, which the table has no words for.
theorem beyond_unlawful (image : Image) (registers : Registers) (beyond : registers.eax = 9 ∨ registers.eax = 10) :
    ¬ Lawful image registers := by
  intro lawful
  obtain ⟨k, low, high, number⟩ : ∃ k : Nat, 9 ≤ k ∧ k ≤ 10 ∧ registers.eax = BitVec.ofNat 32 k := by
    cases beyond with
    | inl nine => exact ⟨9, by decide, by decide, nine⟩
    | inr ten => exact ⟨10, by decide, by decide, ten⟩
  have called := handle_called image registers k (by omega) high number
  obtain ⟨i, bound, same⟩ := lawful.inTable _ _ _ called
  change i < 9 at bound
  exact absurd (entry_injective image k i (by omega) (by omega) same) (by omega)

theorem system_calls_exact (image : Image) (registers : Registers) :
    Lawful image registers ↔ registers.eax ≠ 9 ∧ registers.eax ≠ 10 := by
  constructor
  · intro lawful
    exact ⟨fun nine => beyond_unlawful image registers (Or.inl nine) lawful,
      fun ten => beyond_unlawful image registers (Or.inr ten) lawful⟩
  · intro other
    by_cases outside : registers.eax.toInt ≤ 0 ∨ 10 < registers.eax.toInt
    · exact outside_lawful image registers outside
    · obtain ⟨k, low, high, number⟩ := in_range_number registers.eax (by omega) (by omega)
      have small : k ≤ 8 := by
        by_cases last : k ≤ 8
        · exact last
        · obtain nine | ten : k = 9 ∨ k = 10 := by omega
          · rw [nine] at number
            exact absurd number other.1
          · rw [ten] at number
            exact absurd number other.2
      obtain ⟨function, denotes⟩ := number_denotes k low small
      rw [← number] at denotes
      exact denoted_lawful image registers function denotes

-- set_handler from the user library: the handler calls whatever address lies
-- in the word behind the table.
theorem set_handler_jumps_past :
    let image : Image := ⟨0x400000, fun _ => 0x401000, fun _ => 0xDEADBEEF⟩
    let registers : Registers := ⟨LibraryCall.setHandler.number, 0, 0, 0, 0, 0, 0, 0⟩
    handleSigSyscall image registers = .calls 0x400024 0xDEADBEEF [0, 0, 0, 0, 0, 0, 0] ∧
      ¬ InTable image 0x400024 ∧ ¬ Lawful image registers := by
  intro image registers
  refine ⟨by decide +kernel, ?_, beyond_unlawful image registers (Or.inl rfl)⟩
  rintro ⟨i, bound, same⟩
  change i < 9 at bound
  exact absurd (entry_injective image 9 i (by decide) (by omega) same) (by omega)

end SimpleKernel.SystemCalls
