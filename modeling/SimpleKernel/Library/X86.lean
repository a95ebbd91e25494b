import SimpleKernel.Library.BitField
import SimpleKernel.Library.Flags
import Mathlib.Logic.Function.Basic

set_option autoImplicit false

-- A 32-bit x86 processor as far as interrupts, calls and their stacks go: the
-- gates of the interrupt table, the frames that the processor pushes, and the
-- instructions that a handler in assembly is made of.
namespace X86

open BitField (Field get put)

abbrev Word := BitVec 32

inductive Register where
  | eax
  | ecx
  | edx
  | ebx
  | ebp
  | esi
  | edi
deriving DecidableEq, Repr

inductive Mode where
  | user (esp ss : Word)
  | kernel
deriving DecidableEq

-- The kernel stack holds the words from the stack pointer up to the address in
-- the TSS; in user mode there are none. `memory` is what the user program has,
-- word by word, and `world` is everything else.
structure Cpu (World : Type) where
  gpr : Register → Word
  eflags : Word
  eip : Word
  cs : Word
  mode : Mode
  stack : List Word
  memory : Word → Word
  world : World

variable {World : Type}

def userLevel (cs : Word) : Prop := cs &&& 3 = 3

instance (cs : Word) : Decidable (userLevel cs) := inferInstanceAs (Decidable (_ = _))

structure Context where
  mode : Mode
  cs : Word
  gpr : Register → Word
  stack : List Word
  memory : Word → Word

def Cpu.context (s : Cpu World) : Context := ⟨s.mode, s.cs, s.gpr, s.stack, s.memory⟩

structure Context.Coherent (c : Context) : Prop where
  user : ∀ esp ss, c.mode = .user esp ss → userLevel c.cs ∧ c.stack = []
  kernel : c.mode = .kernel → ¬ userLevel c.cs

theorem coherent_kernel (c : Context) (kernel : c.mode = .kernel) (level : ¬ userLevel c.cs) : c.Coherent := by
  refine ⟨fun esp ss user => ?_, fun _ => level⟩
  rw [kernel] at user
  cases user

theorem coherent_user (c : Context) (esp ss : Word) (user : c.mode = .user esp ss) (level : userLevel c.cs)
    (empty : c.stack = []) :
    c.Coherent := by
  refine ⟨fun _ _ _ => ⟨level, empty⟩, fun kernel => ?_⟩
  rw [user] at kernel
  cases kernel

def interruptFlag : Field := ⟨9, 1⟩

def Cpu.enabled (s : Cpu World) : Prop := get interruptFlag s.eflags = 1

def carryFlag : Field := ⟨0, 1⟩
def parityFlag : Field := ⟨2, 1⟩
def adjustFlag : Field := ⟨4, 1⟩
def zeroFlag : Field := ⟨6, 1⟩
def signFlag : Field := ⟨7, 1⟩
def overflowFlag : Field := ⟨11, 1⟩

def status (eflags : Word) : Flags.Status where
  zero := get zeroFlag eflags == 1
  sign := get signFlag eflags == 1
  overflow := get overflowFlag eflags == 1
  carry := get carryFlag eflags == 1

def evenParity (result : Word) : Bool := (List.range 8).foldl (fun even i => even != result.getLsbD i) true

def arithmetic (flags : Flags.Status) (a b result eflags : Word) : Word :=
  BitField.putAll [(carryFlag, flags.carry.toNat), (parityFlag, (evenParity result).toNat),
    (adjustFlag, ((a ^^^ b ^^^ result).getLsbD 4).toNat), (zeroFlag, flags.zero.toNat), (signFlag, flags.sign.toNat),
    (overflowFlag, flags.overflow.toNat)] eflags

theorem status_arithmetic (flags : Flags.Status) (a b result eflags : Word) :
    status (arithmetic flags a b result eflags) = flags := by
  have bit (value : Bool) : ((BitVec.ofInt 1 (value.toNat : Int)).toNat == 1) = value := by cases value <;> rfl
  rw [status, arithmetic, BitField.get_putAll zeroFlag _ _ (by decide) rfl, BitField.get_putAll signFlag _ _ (by decide) rfl,
    BitField.get_putAll overflowFlag _ _ (by decide) rfl, BitField.get_putAll carryFlag _ _ (by decide) rfl]
  exact congr (congr (congr (congrArg Flags.Status.mk (bit flags.zero)) (bit flags.sign)) (bit flags.overflow))
    (bit flags.carry)

def sumFlags (a b : Word) : Flags.Status where
  zero := a + b == 0
  sign := (a + b).msb
  overflow := a.saddOverflow b
  carry := a.uaddOverflow b

structure Gate where
  offset : Nat
  selector : Nat
  kind : Nat
  storage : Nat
  dpl : Nat
  present : Nat
deriving DecidableEq, Repr

def Gate.read (entry : BitVec 64) : Gate where
  offset := get ⟨0, 16⟩ entry + 2 ^ 16 * get ⟨48, 16⟩ entry
  selector := get ⟨16, 16⟩ entry
  kind := get ⟨40, 4⟩ entry
  storage := get ⟨44, 1⟩ entry
  dpl := get ⟨45, 2⟩ entry
  present := get ⟨47, 1⟩ entry

def interruptGate : Nat := 14
def trapGate : Nat := 15

structure Gate.Valid (gate : Gate) : Prop where
  kind : gate.kind = interruptGate ∨ gate.kind = trapGate
  storage : gate.storage = 0
  present : gate.present = 1

instance (gate : Gate) : Decidable gate.Valid :=
  decidable_of_iff ((gate.kind = interruptGate ∨ gate.kind = trapGate) ∧ gate.storage = 0 ∧ gate.present = 1)
    ⟨fun all => ⟨all.1, all.2.1, all.2.2⟩, fun valid => ⟨valid.kind, valid.storage, valid.present⟩⟩

-- Every gate clears TF, NT, RF and VM; an interrupt gate clears IF too.
def Gate.mask (gate : Gate) (eflags : Word) : Word :=
  let cleared := eflags &&& ~~~ 0x34100
  if gate.kind = interruptGate then put interruptFlag 0 cleared else cleared

-- The frame of an interrupt; coming from user mode, the processor takes the
-- kernel stack from its top.
def frame (s : Cpu World) : List Word :=
  match s.mode with
  | .user esp ss => [s.eip, s.cs, s.eflags, esp, ss]
  | .kernel => s.eip :: s.cs :: s.eflags :: s.stack

def Gate.enter (gate : Gate) (s : Cpu World) : Cpu World :=
  { s with
    stack := frame s
    mode := .kernel
    cs := BitVec.ofNat 32 gate.selector
    eip := BitVec.ofNat 32 gate.offset
    eflags := gate.mask s.eflags }

def iret (s : Cpu World) : Option (Cpu World) :=
  match s.stack with
  | eip :: cs :: eflags :: rest =>
      if userLevel cs then
        match rest with
        | esp :: ss :: rest => some { s with eip := eip, cs := cs, eflags := eflags, mode := .user esp ss, stack := rest }
        | _ => none
      else some { s with eip := eip, cs := cs, eflags := eflags, stack := rest }
  | _ => none

theorem iret_frame (s t : Cpu World) (coherent : s.context.Coherent) (kernel : t.mode = .kernel) (stack : t.stack = frame s) :
    iret t = some { t with eip := s.eip, cs := s.cs, eflags := s.eflags, mode := s.mode, stack := s.stack } := by
  cases mode : s.mode with
  | user esp ss =>
      obtain ⟨level, empty⟩ := coherent.user esp ss mode
      change userLevel s.cs at level
      change s.stack = [] at empty
      have words : t.stack = [s.eip, s.cs, s.eflags, esp, ss] := by rw [stack, frame, mode]
      simp only [iret, words, if_pos level, empty]
  | kernel =>
      have level : ¬ userLevel s.cs := coherent.kernel mode
      have words : t.stack = s.eip :: s.cs :: s.eflags :: s.stack := by rw [stack, frame, mode]
      simp only [iret, words, if_neg level, kernel]

def Cpu.push (value : Word) (s : Cpu World) : Cpu World :=
  match s.mode with
  | .user esp ss => { s with memory := Function.update s.memory (esp - 4) value, mode := .user (esp - 4) ss }
  | .kernel => { s with stack := value :: s.stack }

def Cpu.pop (s : Cpu World) : Option (Word × Cpu World) :=
  match s.mode with
  | .user esp ss => some (s.memory esp, { s with mode := .user (esp + 4) ss })
  | .kernel =>
      match s.stack with
      | [] => none
      | word :: rest => some (word, { s with stack := rest })

theorem push_kernel (value : Word) (s : Cpu World) (kernel : s.mode = .kernel) :
    s.push value = { s with stack := value :: s.stack } := by
  rw [Cpu.push]
  split
  · rename_i user
    rw [kernel] at user
    cases user
  · rfl

theorem pop_kernel (s : Cpu World) (word : Word) (rest : List Word) (kernel : s.mode = .kernel)
    (stack : s.stack = word :: rest) : s.pop = some (word, { s with stack := rest }) := by
  simp only [Cpu.pop, kernel, stack]

def Cpu.load (offset : Nat) (s : Cpu World) : Option Word :=
  match s.mode with
  | .user esp _ => some (s.memory (esp + BitVec.ofNat 32 offset))
  | .kernel => s.stack[offset / 4]?

def Cpu.esp (top : Word) (s : Cpu World) : Word :=
  match s.mode with
  | .user esp _ => esp
  | .kernel => top - BitVec.ofNat 32 (4 * s.stack.length)

def Cpu.set (target : Register) (value : Word) (s : Cpu World) : Cpu World :=
  { s with gpr := Function.update s.gpr target value }

inductive Instr where
  | pushl (source : Register)
  | pushlImm (value : Word)
  | pushal
  | pushfl
  | popl (target : Register)
  | popal
  | popfl
  | addlEsp (bytes : Nat)
  | movlImm (value : Word) (target : Register)
  | movlStack (offset : Nat) (target : Register)
  | cmplImm (value : Word) (source : Register)
  | cli
  | sti
deriving DecidableEq, Repr

-- One instruction, but for eip; `top` is where the kernel stack begins. What
-- only the kernel may do is left out in user mode.
def exec (top : Word) : Instr → Cpu World → Option (Cpu World)
  | .pushl source, s => some (s.push (s.gpr source))
  | .pushlImm value, s => some (s.push value)
  | .pushal, s =>
      let esp := s.esp top
      some ([s.gpr .eax, s.gpr .ecx, s.gpr .edx, s.gpr .ebx, esp, s.gpr .ebp, s.gpr .esi, s.gpr .edi].foldl
        (fun cpu value => cpu.push value) s)
  | .pushfl, s => some (s.push s.eflags)
  | .popl target, s => s.pop.map fun popped => popped.2.set target popped.1
  | .popal, s =>
      match s.mode, s.stack with
      | .kernel, edi :: esi :: ebp :: _ :: ebx :: edx :: ecx :: eax :: rest =>
          some { s with
            gpr := fun
              | .eax => eax
              | .ecx => ecx
              | .edx => edx
              | .ebx => ebx
              | .ebp => ebp
              | .esi => esi
              | .edi => edi
            stack := rest }
      | _, _ => none
  | .popfl, s =>
      match s.mode, s.stack with
      | .kernel, eflags :: rest => some { s with eflags := eflags, stack := rest }
      | _, _ => none
  | .addlEsp bytes, s =>
      if s.mode = .kernel ∧ bytes % 4 = 0 ∧ bytes / 4 ≤ s.stack.length then
        let a := s.esp top
        let b := BitVec.ofNat 32 bytes
        some { s with stack := s.stack.drop (bytes / 4), eflags := arithmetic (sumFlags a b) a b (a + b) s.eflags }
      else none
  | .movlImm value target, s => some (s.set target value)
  | .movlStack offset target, s => (s.load offset).map fun value => s.set target value
  | .cmplImm value source, s =>
      let a := s.gpr source
      some { s with eflags := arithmetic (Flags.compare a value) a value (a - value) s.eflags }
  | .cli, s => if s.mode = .kernel then some { s with eflags := put interruptFlag 0 s.eflags } else none
  | .sti, s => if s.mode = .kernel then some { s with eflags := put interruptFlag 1 s.eflags } else none

-- Code as it is run from one of its instructions on. A compiled function is
-- called by its address, with the number of words that its caller passes; a part
-- is compiled code that goes over into the rest, and spin jumps to itself.
inductive Code where
  | step (instr : Instr) (rest : Code)
  | branch (condition : Flags.Status → Bool) (label : Word) (taken rest : Code)
  | jmp (label : Word) (target : Code)
  | call (function : Word) (params : Nat) (rest : Code)
  | callTable (table : Word) (index : Register) (params : Nat) (rest : Code)
  | callTo (label : Word) (body rest : Code)
  | part (function : Word) (rest : Code)
  | int (vector : BitVec 8) (rest : Code)
  | iret
  | ret
  | spin

def block (instrs : List Instr) (rest : Code) : Code := instrs.foldr Code.step rest

def savedAll (gpr : Register → Word) (esp : Word) (rest : List Word) : List Word :=
  gpr .edi :: gpr .esi :: gpr .ebp :: esp :: gpr .ebx :: gpr .edx :: gpr .ecx :: gpr .eax :: rest

theorem exec_pushal (top : Word) (s : Cpu World) (kernel : s.mode = .kernel) :
    exec top .pushal s = some { s with stack := savedAll s.gpr (s.esp top) s.stack } := by
  cases s
  change _ = Mode.kernel at kernel
  subst kernel
  rfl

theorem exec_popal (top : Word) (s : Cpu World) (gpr : Register → Word) (esp : Word) (rest : List Word)
    (kernel : s.mode = .kernel) (stack : s.stack = savedAll gpr esp rest) :
    exec top .popal s = some { s with gpr := gpr, stack := rest } := by
  simp only [exec, kernel, stack, savedAll, Option.some.injEq]
  congr 1
  funext register
  cases register <;> rfl

theorem exec_cli (top : Word) (s : Cpu World) (kernel : s.mode = .kernel) :
    exec top .cli s = some { s with eflags := put interruptFlag 0 s.eflags } := if_pos kernel

theorem exec_sti (top : Word) (s : Cpu World) (kernel : s.mode = .kernel) :
    exec top .sti s = some { s with eflags := put interruptFlag 1 s.eflags } := if_pos kernel

end X86
