import SimpleKernel.Library.Run
import SimpleKernel.Process.Command
import SimpleKernel.Process.Machine

set_option autoImplicit false

namespace SimpleKernel.Process

open FileSystem (Image)
open Files (Table Devices executeFds sysClose)
open Keyboard (Term terminal1)
open Paging (Tables pageSwitch)

-- A terminal without a shell gets its list's first entry, whatever was there.
-- A full list is left alone.
def Machine.register (j : Slot) (m : Machine) : Machine :=
  if m.active.terminalFlag then
    { m with
      terminalShell :=
        if m.activeTerminal = terminal1 then Function.update m.terminalShell terminal1 (some firstSlot)
        else m.terminalShell
      runningTerminal := m.activeTerminal
      terminals := Function.update m.terminals m.activeTerminal
        ⟨Function.update m.active.processes 0 (some j), false⟩ }
  else
    { m with
      terminals := Function.update m.terminals m.activeTerminal
        { m.active with processes := replaceEntry none (some j) m.active.processes } }

-- task_pcb->parent->pid = processes[0], before parent is set: the pointer is
-- the one the last process in this slot had. Through NULL it reaches address
-- 0x108 of low memory, which nothing here reads.
def Machine.storeShellPid (j : Slot) (m : Machine) : Machine :=
  match (m.pcbs j).parent, m.active.processes 0 with
  | some parent, some first => m.modifyPcb parent fun pcb => { pcb with pid := first }
  | _, _ => m

def strcpy (src : List UInt8) (dest : Bytes) : Bytes := fun i => if i ≤ src.length then src.getD i 0 else dest i

def Machine.occupy (j : Slot) (m : Machine) : Machine :=
  let occupied := { m with pcbState := Function.update m.pcbState j true }
  (occupied.modifyPcb j fun pcb => { pcb with pid := j }).register j

def Machine.start (caller : Caller) (creator : Option Slot) (q j : Slot) (args : List UInt8) (entryAddress : Nat)
    (m : Machine) : Machine :=
  let stored := (m.occupy j).storeShellPid j
  let filled := stored.modifyPcb j fun pcb =>
    { pcb with args := strcpy args pcb.args, fds := executeFds pcb.fds, parent := some q }
  let saved := filled.modifyPcb q fun pcb => { pcb with kbp := some m.serial }
  { saved with
    paging := pageSwitch j.val m.paging
    pending := Function.update m.pending q (some ⟨m.serial, caller⟩)
    serial := m.serial + 1
    esp0 := kernelStackTop j
    control := .user j
    history := .started j creator entryAddress :: m.history }

-- execute behind the parsing. The Bool says that it does not return; otherwise
-- it has returned FAILURE. A program that does not fit the mapped pages ends in a page fault.
def Machine.launch (image : Image) (exeData : Bytes) (caller : Caller) (creator : Option Slot) (q : Slot)
    (command : CString) (m : Machine) : Bool × Machine :=
  match findProgram image exeData (firstWord command) with
  | none => (false, m)
  | some program =>
      match freeSlot m.pcbState with
      | none => (false, m.note .refused)
      | some j =>
          let started := m.start caller creator q j (arguments command) program.entryAddress
          if fitsPage image program m.paging then (true, started) else (true, { started with control := .faulted })

def closeDescriptors (devices : Devices) (fds : Table) : Table :=
  (List.range 8).foldl (fun fds i => if (fds i).flags = 1 then (sysClose i ⟨fds, devices⟩).2.fds else fds) fds

def Caller.back (caller : Caller) (parent : Slot) : Control :=
  match caller with
  | .kernel => .idle
  | .syscall => .user parent
  | .displaySwitch => .user parent
  | .halt waiting => .halting parent waiting

-- The end of halt: from releasing the slot to the jump into the frame whose
-- address the parent's PCB holds. A frame that no longer stands leads nowhere.
def Machine.finishHalt (q : Slot) (status : UInt8) (m : Machine) : Machine :=
  let released := { m with pcbState := Function.update m.pcbState (m.pcbs q).pid false }
  match (m.pcbs q).parent with
  | none => { released with control := .lost }
  | some parent =>
      let up := (m.pcbs parent).pid
      let switched := { released with paging := pageSwitch up.val m.paging, esp0 := kernelStackTop up }
      match m.pending parent with
      | none => { switched with control := .lost }
      | some frame =>
          if (m.pcbs parent).kbp = some frame.serial then
            { switched with
              pending := Function.update m.pending parent none
              history := .resumed q parent status :: m.history
              control := frame.caller.back parent }
          else { switched with control := .lost }

def Machine.unlist (pid : Slot) (m : Machine) : Machine :=
  { m with
    terminals := Function.update m.terminals m.activeTerminal
      { m.active with processes := replaceEntry (some pid) none m.active.processes } }

def Machine.passShell (q : Slot) (m : Machine) : Machine :=
  match (m.pcbs q).parent with
  | none => m
  | some parent =>
      if m.terminalShell m.activeTerminal = some (m.pcbs q).pid then
        { m with terminalShell := Function.update m.terminalShell m.activeTerminal (some (m.pcbs parent).pid) }
      else m

def Machine.leave (q : Slot) (m : Machine) : Machine :=
  ((m.unlist (m.pcbs q).pid).passShell q).modifyPcb q fun pcb => { pcb with fds := closeDescriptors m.devices pcb.fds }

def Machine.firstShell (q : Slot) (m : Machine) : Prop := m.active.processes 0 = some (m.pcbs q).pid

instance (q : Slot) (m : Machine) : Decidable (m.firstShell q) := inferInstanceAs (Decidable (_ = _))

-- none is the FAILURE of a process whose slot is not in use.
def Machine.halt (image : Image) (exeData : Bytes) (status : UInt8) (p q : Slot) (m : Machine) : Option Machine :=
  if m.pcbState (m.pcbs q).pid = false then none
  else
    let left := (m.note (.halted p)).leave q
    if m.firstShell q then
      let restarted := left.launch image exeData (.halt status) (some p) q shellCommand
      if restarted.1 then some restarted.2 else some (restarted.2.finishHalt q status)
    else some (left.finishHalt q status)

def Machine.execute (image : Image) (exeData : Bytes) (command : Option CString) (p q : Slot) (m : Machine) : Machine :=
  match command with
  | none => m
  | some command =>
      if overruns command then { m with control := .lost }
      else if (firstWord command).bytes = [] then m
      else if isQuit command then
        match m.halt image exeData 0 p q with
        | some halted => halted
        | none => (m.launch image exeData .syscall (some p) q command).2
      else (m.launch image exeData .syscall (some p) q command).2

-- The frame saved is the handler's own, which no child returns to.
def Machine.switchTo (termId : Term) (q : Slot) (m : Machine) : Machine :=
  { m.modifyPcb q fun pcb => { pcb with kbp := none } with
    activeTerminal := termId
    paging := pageSwitch (m.pcbs q).pid.val m.paging }

def Machine.displaySwitch (image : Image) (exeData : Bytes) (termId : Term) (creator : Option Slot) (q : Slot) (m : Machine) :
    Machine :=
  let switched := m.switchTo termId q
  if switched.active.terminalFlag then (switched.launch image exeData .displaySwitch creator q shellCommand).2
  else switched

-- exeData is what the stack held where execute puts its buffer. `proceed` is
-- the kernel going on with a halt whose restarted shell has ended.
inductive Event where
  | execute (command : Option CString) (exeData : Bytes)
  | halt (status : UInt8) (exeData : Bytes)
  | displaySwitch (termId : Term) (exeData : Bytes)
  | proceed

-- A call needs a process that makes it; only the keyboard works without one.
def step (image : Image) (m : Machine) (event : Event) : Machine :=
  match m.control, event with
  | .user p, .execute command exeData => m.enter.execute image exeData command p m.current
  | .user p, .halt status exeData => (m.enter.halt image exeData status p m.current).getD m.enter
  | .user p, .displaySwitch termId exeData => m.enter.displaySwitch image exeData termId (some p) m.current
  | .idle, .displaySwitch termId exeData => m.displaySwitch image exeData termId none firstSlot
  | .halting q status, .proceed => m.finishHalt q status
  | _, _ => m

def boot (image : Image) (exeData : Bytes) (paging : Tables) (devices : Devices) : Machine :=
  ((powerOn paging devices).launch image exeData .kernel none firstSlot shellCommand).2

theorem step_rule (image : Image) (m : Machine) (event : Event) (law : Machine → Prop) (stays : law m)
    (execute : ∀ p command exeData, m.control = .user p → event = .execute command exeData →
      law (m.enter.execute image exeData command p m.current))
    (halt : ∀ p status exeData, m.control = .user p → event = .halt status exeData →
      law ((m.enter.halt image exeData status p m.current).getD m.enter))
    (switch : ∀ p termId exeData, m.control = .user p → event = .displaySwitch termId exeData →
      law (m.enter.displaySwitch image exeData termId (some p) m.current))
    (idle : ∀ termId exeData, m.control = .idle → event = .displaySwitch termId exeData →
      law (m.displaySwitch image exeData termId none firstSlot))
    (proceed : ∀ q status, m.control = .halting q status → event = .proceed → law (m.finishHalt q status)) :
    law (step image m event) := by
  cases control : m.control with
  | user p =>
      cases event with
      | execute command exeData => simpa only [step, control] using execute p command exeData control rfl
      | halt status exeData => simpa only [step, control] using halt p status exeData control rfl
      | displaySwitch termId exeData => simpa only [step, control] using switch p termId exeData control rfl
      | proceed => simpa only [step, control] using stays
  | halting q status =>
      cases event with
      | execute command exeData => simpa only [step, control] using stays
      | halt status' exeData => simpa only [step, control] using stays
      | displaySwitch termId exeData => simpa only [step, control] using stays
      | proceed => simpa only [step, control] using proceed q status control rfl
  | idle =>
      cases event with
      | execute command exeData => simpa only [step, control] using stays
      | halt status exeData => simpa only [step, control] using stays
      | displaySwitch termId exeData => simpa only [step, control] using idle termId exeData control rfl
      | proceed => simpa only [step, control] using stays
  | faulted => cases event <;> simpa only [step, control] using stays
  | lost => cases event <;> simpa only [step, control] using stays

theorem execute_shell (image : Image) (exeData : Bytes) (p q : Slot) (m : Machine) :
    m.execute image exeData (some shellCommand) p q = (m.launch image exeData .syscall (some p) q shellCommand).2 := by
  obtain ⟨fits, noQuit, word, _⟩ := shell_fits
  have nonempty : ¬ (firstWord shellCommand).bytes = [] := by
    rw [word]
    decide
  rw [Machine.execute]
  simp only [fits, noQuit, if_neg nonempty, Bool.false_eq_true, if_false]

def shellImage : Image := fun i =>
  if i = 0 ∨ i = 4 ∨ i = 8 then 1
  else if 64 ≤ i ∧ i < 69 then shellCommand.bytes.getD (i - 64) 0
  else if i = 96 then 2
  else if i = 4096 then 4
  else if 8192 ≤ i ∧ i < 8196 then magic.getD (i - 8192) 0
  else 0

def shellBoot : Machine :=
  boot shellImage (fun _ => 0) (Paging.initPaging default (fun _ => 0) (fun _ => 0)) ⟨FileSystem.directoryOpen, ⟨0, 0⟩⟩

def shellCall : Event := .execute (some shellCommand) fun _ => 0

def haltCall : Event := .halt 0 fun _ => 0

end SimpleKernel.Process
