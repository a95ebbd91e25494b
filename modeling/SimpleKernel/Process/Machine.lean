import Mathlib.Data.Fin.Basic
import SimpleKernel.Files.Descriptors
import SimpleKernel.Keyboard.Handler
import SimpleKernel.Paging.Tables

set_option autoImplicit false

namespace SimpleKernel.Process

open Files (Table Devices)
open Keyboard (Term terminal1)
open Paging (Tables pageSwitch)

abbrev Slot := Fin 6

def firstSlot : Slot := 0

def page8MB : Nat := 0x800000
def page8KB : Nat := 0x2000

def pcbAddress (p : Slot) : Nat := page8MB - (p.val + 1) * page8KB

def kernelStackTop (p : Slot) : Nat := page8MB - p.val * page8KB - 4

def getPcb (esp : Nat) : Nat := esp &&& 0xffffe000

def slotAt (pcb : Nat) : Slot := Fin.ofNat 6 ((page8MB - pcb) / page8KB - 1)

-- kbp names a frame of execute on the kernel stack of this same slot.
structure Pcb where
  fds : Table
  args : Bytes
  kbp : Option Nat
  pid : Slot
  parent : Option Slot

structure Terminal where
  processes : Nat → Option Slot
  terminalFlag : Bool

-- Who called the execute that waits: entry, a system call, display_switch, or
-- halt restarting a shell.
inductive Caller where
  | kernel
  | syscall
  | displaySwitch
  | halt (status : UInt8)
deriving DecidableEq, Repr

structure Frame where
  serial : Nat
  caller : Caller
deriving DecidableEq, Repr

-- Where the processor is: in user mode as some process, behind the restart in
-- halt on some kernel stack, in the hlt loop of entry, in the endless loop of
-- handle_exception, or nowhere known.
inductive Control where
  | user (p : Slot)
  | halting (q : Slot) (status : UInt8)
  | idle
  | faulted
  | lost
deriving DecidableEq, Repr

inductive Note where
  | started (slot : Slot) (creator : Option Slot) (entryAddress : Nat)
  | halted (slot : Slot)
  | resumed (child parent : Slot) (status : UInt8)
  | refused
deriving DecidableEq, Repr

-- `pending q` is the frame of execute that waits on kernel stack q for its
-- child; `history` is a record of what happened, latest first.
structure Machine where
  pcbState : Slot → Bool
  pcbs : Slot → Pcb
  terminals : Term → Terminal
  terminalShell : Term → Option Slot
  activeTerminal : Term
  runningTerminal : Term
  esp0 : Nat
  paging : Tables
  devices : Devices
  pending : Slot → Option Frame
  serial : Nat
  control : Control
  history : List Note

def emptyPcb : Pcb where
  fds := fun _ => ⟨none, 0, 0, 0⟩
  args := fun _ => 0
  kbp := none
  pid := firstSlot
  parent := none

-- After process_init. No code clears the memory of the PCBs: it is as the
-- machine delivers it, zero.
def powerOn (paging : Tables) (devices : Devices) : Machine where
  pcbState := fun _ => false
  pcbs := fun _ => emptyPcb
  terminals := fun _ => ⟨fun _ => none, true⟩
  terminalShell := fun _ => none
  activeTerminal := terminal1
  runningTerminal := terminal1
  esp0 := page8MB
  paging := paging
  devices := devices
  pending := fun _ => none
  serial := 0
  control := .idle
  history := []

def Machine.modifyPcb (p : Slot) (change : Pcb → Pcb) (m : Machine) : Machine :=
  { m with pcbs := Function.update m.pcbs p (change (m.pcbs p)) }

def Machine.note (entry : Note) (m : Machine) : Machine := { m with history := entry :: m.history }

def Machine.active (m : Machine) : Terminal := m.terminals m.activeTerminal

def Machine.current (m : Machine) : Slot := slotAt (getPcb m.esp0)

-- An entry from user mode starts at the top of the stack: the frames that
-- waited there are overwritten.
def Machine.enter (m : Machine) : Machine := { m with pending := Function.update m.pending m.current none }

def freeSlot (pcbState : Slot → Bool) : Option Slot := (List.finRange 6).find? fun j => !pcbState j

def findEntry (processes : Nat → Option Slot) (sought : Option Slot) : Nat → Nat → Option Nat
  | 0, _ => none
  | left + 1, i => if processes i = sought then some i else findEntry processes sought left (i + 1)

def replaceEntry (sought replacement : Option Slot) (processes : Nat → Option Slot) : Nat → Option Slot :=
  match findEntry processes sought 4 0 with
  | none => processes
  | some i => Function.update processes i replacement

theorem get_pcb_block (esp : Nat) (low : esp < 2 ^ 23) : getPcb esp = esp / 2 ^ 13 * 2 ^ 13 := by
  have mask : ∀ i < 23, Nat.testBit 0xffffe000 i = decide (13 ≤ i) := by decide
  refine Nat.eq_of_testBit_eq fun i => ?_
  rw [getPcb, Nat.testBit_and, Nat.testBit_mul_two_pow, Nat.testBit_div_two_pow]
  by_cases small : i < 23
  · rw [mask i small]
    by_cases high : 13 ≤ i
    · simp [high]
    · simp [high]
  · have above : 2 ^ 23 ≤ 2 ^ i := Nat.pow_le_pow_right (by decide) (by omega)
    have clear : esp.testBit i = false := Nat.testBit_lt_two_pow (Nat.lt_of_lt_of_le low above)
    by_cases high : 13 ≤ i
    · simp [high, clear]
    · omega

theorem get_pcb_in_stack (p : Slot) (esp : Nat) (above : pcbAddress p ≤ esp) (below : esp ≤ kernelStackTop p) :
    getPcb esp = pcbAddress p := by
  have bound := p.isLt
  simp only [pcbAddress, kernelStackTop, page8MB, page8KB] at above below ⊢
  rw [get_pcb_block esp (by omega)]
  omega

theorem slot_at_stack (p : Slot) : slotAt (getPcb (kernelStackTop p)) = p := by
  have address : ∀ slot : Slot, slotAt (pcbAddress slot) = slot := by decide
  have inside : pcbAddress p ≤ kernelStackTop p := by
    have bound := p.isLt
    simp only [pcbAddress, kernelStackTop, page8MB, page8KB]
    omega
  rw [get_pcb_in_stack p _ inside (Nat.le_refl _), address]

theorem free_slot_free (pcbState : Slot → Bool) (j : Slot) (found : freeSlot pcbState = some j) : pcbState j = false := by
  simpa using List.find?_some found

theorem free_slot_boot (pcbState : Slot → Bool) (unused : ∀ p, pcbState p = false) : freeSlot pcbState = some firstSlot := by
  have none : pcbState = fun _ => false := funext unused
  rw [none]
  decide

theorem free_slot_none (pcbState : Slot → Bool) : freeSlot pcbState = none ↔ ∀ p, pcbState p = true := by
  simp [freeSlot]

theorem find_entry_first (processes : Nat → Option Slot) (sought : Option Slot) (left i k : Nat)
    (found : findEntry processes sought left i = some k) : i ≤ k ∧ k < i + left ∧ processes k = sought := by
  induction left generalizing i with
  | zero => simp [findEntry] at found
  | succ left ih =>
      simp only [findEntry] at found
      split at found
      · rename_i here
        cases found
        exact ⟨Nat.le_refl _, by omega, here⟩
      · obtain ⟨low, high, same⟩ := ih (i + 1) found
        exact ⟨by omega, by omega, same⟩

theorem replace_entry_first (processes : Nat → Option Slot) (sought replacement : Option Slot) :
    replaceEntry sought replacement processes 0 = if processes 0 = sought then replacement else processes 0 := by
  by_cases here : processes 0 = sought
  · simp [replaceEntry, findEntry, here]
  · rw [if_neg here, replaceEntry]
    cases found : findEntry processes sought 4 0 with
    | none => rfl
    | some i =>
        obtain ⟨_, _, same⟩ := find_entry_first processes sought 4 0 i found
        have apart : 0 ≠ i := by
          intro zero
          subst zero
          exact here same
        exact Function.update_of_ne apart _ _

end SimpleKernel.Process
