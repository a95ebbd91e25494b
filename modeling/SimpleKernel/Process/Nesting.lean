import Mathlib.Data.List.Chain
import SimpleKernel.Process.Calls

set_option autoImplicit false

namespace SimpleKernel.Process

open FileSystem (Image)
open Keyboard (Term terminal1)
open Paging (pageSwitch)

def Machine.shellEntry (j : Slot) (m : Machine) : Slot :=
  if m.active.terminalFlag then j else (m.active.processes 0).getD j

structure Waits (returns : Caller → Prop) (m : Machine) (child parent : Slot) : Prop where
  parentEq : (m.pcbs child).parent = some parent
  frame : ∃ frame, m.pending parent = some frame ∧ (m.pcbs parent).kbp = some frame.serial ∧ returns frame.caller

structure Nested (returns : Caller → Prop) (m : Machine) (chain : List Slot) : Prop where
  nodup : chain.Nodup
  used : ∀ p ∈ chain, m.pcbState p = true
  waits : chain.IsChain (Waits returns m)

theorem modify_pcb_pcbs (q p : Slot) (change : Pcb → Pcb) (m : Machine) :
    (m.modifyPcb q change).pcbs p = if p = q then change (m.pcbs p) else m.pcbs p := by
  by_cases here : p = q
  · subst here
    simp [Machine.modifyPcb]
  · simp [Machine.modifyPcb, here]

@[simp] theorem modify_pcb_pcb_state (q : Slot) (change : Pcb → Pcb) (m : Machine) :
    (m.modifyPcb q change).pcbState = m.pcbState := rfl

@[simp] theorem modify_pcb_active (q : Slot) (change : Pcb → Pcb) (m : Machine) :
    (m.modifyPcb q change).active = m.active := rfl

@[simp] theorem modify_pcb_active_terminal (q : Slot) (change : Pcb → Pcb) (m : Machine) :
    (m.modifyPcb q change).activeTerminal = m.activeTerminal := rfl

@[simp] theorem register_pcbs (j : Slot) (m : Machine) : (m.register j).pcbs = m.pcbs := by
  rw [Machine.register]
  split <;> rfl

@[simp] theorem register_pcb_state (j : Slot) (m : Machine) : (m.register j).pcbState = m.pcbState := by
  rw [Machine.register]
  split <;> rfl

@[simp] theorem register_active_terminal (j : Slot) (m : Machine) : (m.register j).activeTerminal = m.activeTerminal := by
  rw [Machine.register]
  split <;> rfl

theorem register_list (j : Slot) (m : Machine) :
    (m.register j).active.terminalFlag = false ∧ (m.register j).active.processes 0 = some (m.shellEntry j) := by
  by_cases flag : m.active.terminalFlag = true
  · rw [Machine.register, if_pos flag, Machine.shellEntry, if_pos flag]
    simp [Machine.active]
  · rw [Machine.register, if_neg flag, Machine.shellEntry, if_neg flag]
    simp only [Machine.active, Function.update_self, replace_entry_first] at flag ⊢
    refine ⟨by simpa using flag, ?_⟩
    cases (m.terminals m.activeTerminal).processes 0 <;> simp

@[simp] theorem occupy_pcb_state (j : Slot) (m : Machine) : (m.occupy j).pcbState = Function.update m.pcbState j true := by
  simp [Machine.occupy]

@[simp] theorem occupy_active_terminal (j : Slot) (m : Machine) : (m.occupy j).activeTerminal = m.activeTerminal := by
  simp [Machine.occupy]

theorem occupy_pcbs (j p : Slot) (m : Machine) :
    (m.occupy j).pcbs p = if p = j then { m.pcbs p with pid := j } else m.pcbs p := by
  simp [Machine.occupy, modify_pcb_pcbs]

theorem occupy_list (j : Slot) (m : Machine) :
    (m.occupy j).active.terminalFlag = false ∧ (m.occupy j).active.processes 0 = some (m.shellEntry j) :=
  register_list j _

@[simp] theorem store_shell_pid_pcb_state (j : Slot) (m : Machine) : (m.storeShellPid j).pcbState = m.pcbState := by
  rw [Machine.storeShellPid]
  split <;> rfl

@[simp] theorem store_shell_pid_active (j : Slot) (m : Machine) : (m.storeShellPid j).active = m.active := by
  rw [Machine.storeShellPid]
  split <;> rfl

@[simp] theorem store_shell_pid_active_terminal (j : Slot) (m : Machine) :
    (m.storeShellPid j).activeTerminal = m.activeTerminal := by
  rw [Machine.storeShellPid]
  split <;> rfl

theorem store_shell_pid_pid (j first p : Slot) (m : Machine) (listed : m.active.processes 0 = some first) :
    ((m.storeShellPid j).pcbs p).pid = if (m.pcbs j).parent = some p then first else (m.pcbs p).pid := by
  rw [Machine.storeShellPid, listed]
  cases found : (m.pcbs j).parent with
  | none => simp
  | some parent =>
      by_cases here : p = parent
      · subst here
        simp [modify_pcb_pcbs]
      · simp [modify_pcb_pcbs, here, Ne.symm here]

theorem store_shell_pid_rest (j p : Slot) (m : Machine) :
    ((m.storeShellPid j).pcbs p).parent = (m.pcbs p).parent ∧ ((m.storeShellPid j).pcbs p).kbp = (m.pcbs p).kbp := by
  rw [Machine.storeShellPid]
  split
  · simp only [modify_pcb_pcbs]
    split <;> exact ⟨rfl, rfl⟩
  · exact ⟨rfl, rfl⟩

section Start

variable (caller : Caller) (creator : Option Slot) (q j : Slot) (args : List UInt8) (entryAddress : Nat) (m : Machine)

@[simp] theorem start_pcb_state :
    (m.start caller creator q j args entryAddress).pcbState = Function.update m.pcbState j true := by
  simp [Machine.start]

@[simp] theorem start_pending : (m.start caller creator q j args entryAddress).pending =
    Function.update m.pending q (some ⟨m.serial, caller⟩) := rfl

@[simp] theorem start_history : (m.start caller creator q j args entryAddress).history =
    .started j creator entryAddress :: m.history := rfl

@[simp] theorem start_control : (m.start caller creator q j args entryAddress).control = .user j := rfl

theorem start_list : (m.start caller creator q j args entryAddress).activeTerminal = m.activeTerminal ∧
    (m.start caller creator q j args entryAddress).active.terminalFlag = false ∧
    (m.start caller creator q j args entryAddress).active.processes 0 = some (m.shellEntry j) := by
  have same : (m.start caller creator q j args entryAddress).active = ((m.occupy j).storeShellPid j).active := rfl
  rw [same, store_shell_pid_active]
  exact ⟨by simp [Machine.start], occupy_list j m⟩

theorem start_pid (p : Slot) : ((m.start caller creator q j args entryAddress).pcbs p).pid =
    if (m.pcbs j).parent = some p then m.shellEntry j else if p = j then j else (m.pcbs p).pid := by
  have kept : ((m.start caller creator q j args entryAddress).pcbs p).pid = (((m.occupy j).storeShellPid j).pcbs p).pid := by
    simp only [Machine.start, modify_pcb_pcbs]
    split <;> split <;> rfl
  rw [kept, store_shell_pid_pid j (m.shellEntry j) p (m.occupy j) (occupy_list j m).2]
  simp only [occupy_pcbs, if_true]
  by_cases here : p = j <;> simp [here]

theorem start_parent (p : Slot) : ((m.start caller creator q j args entryAddress).pcbs p).parent =
    if p = j then some q else (m.pcbs p).parent := by
  have before : (((m.occupy j).storeShellPid j).pcbs p).parent = (m.pcbs p).parent := by
    rw [(store_shell_pid_rest j p _).1, occupy_pcbs]
    split <;> rfl
  simp only [Machine.start, modify_pcb_pcbs]
  split <;> split
  · rfl
  · exact before
  · rfl
  · exact before

theorem start_kbp (p : Slot) : ((m.start caller creator q j args entryAddress).pcbs p).kbp =
    if p = q then some m.serial else (m.pcbs p).kbp := by
  have before : (((m.occupy j).storeShellPid j).pcbs p).kbp = (m.pcbs p).kbp := by
    rw [(store_shell_pid_rest j p _).2, occupy_pcbs]
    split <;> rfl
  simp only [Machine.start, modify_pcb_pcbs]
  split
  · rfl
  · split <;> exact before

end Start

structure Untouched (m m' : Machine) : Prop where
  pcbState : m'.pcbState = m.pcbState
  pid : ∀ p, (m'.pcbs p).pid = (m.pcbs p).pid
  parent : ∀ p, (m'.pcbs p).parent = (m.pcbs p).parent
  kbp : ∀ p, (m'.pcbs p).kbp = (m.pcbs p).kbp
  pending : m'.pending = m.pending
  history : m'.history = m.history
  activeTerminal : m'.activeTerminal = m.activeTerminal

theorem pass_shell_changes (q : Slot) (m : Machine) : ∃ shells, m.passShell q = { m with terminalShell := shells } := by
  rw [Machine.passShell]
  split
  · exact ⟨m.terminalShell, rfl⟩
  · split
    · exact ⟨_, rfl⟩
    · exact ⟨m.terminalShell, rfl⟩

theorem pass_shell_untouched (q : Slot) (m : Machine) : Untouched m (m.passShell q) := by
  obtain ⟨shells, same⟩ := pass_shell_changes q m
  rw [same]
  exact ⟨rfl, fun _ => rfl, fun _ => rfl, fun _ => rfl, rfl, rfl, rfl⟩

theorem leave_untouched (q : Slot) (m : Machine) : Untouched m (m.leave q) := by
  obtain ⟨pcbState, pid, parent, kbp, pending, history, activeTerminal⟩ :=
    pass_shell_untouched q (m.unlist (m.pcbs q).pid)
  refine ⟨pcbState, fun p => (Eq.trans ?_ (pid p)), fun p => (Eq.trans ?_ (parent p)), fun p => (Eq.trans ?_ (kbp p)),
    pending,
    history, activeTerminal⟩ <;> (rw [Machine.leave, modify_pcb_pcbs]; split <;> rfl)

theorem leave_list (q : Slot) (m : Machine) : (m.leave q).active.terminalFlag = m.active.terminalFlag ∧
    (m.leave q).active.processes = replaceEntry (some (m.pcbs q).pid) none m.active.processes := by
  have kept : (m.leave q).active = (m.unlist (m.pcbs q).pid).active := by
    obtain ⟨shells, same⟩ := pass_shell_changes q (m.unlist (m.pcbs q).pid)
    rw [Machine.leave, modify_pcb_active, same]
    rfl
  rw [kept]
  simp only [Machine.unlist, Machine.active, Function.update_self, and_self]

theorem nested_transfer (returns : Caller → Prop) (m m' : Machine) (chain : List Slot) (nested : Nested returns m chain)
    (used : ∀ p ∈ chain, m'.pcbState p = true) (parents : ∀ p ∈ chain, (m'.pcbs p).parent = (m.pcbs p).parent)
    (frames : ∀ p ∈ chain.tail, m'.pending p = m.pending p ∧ (m'.pcbs p).kbp = (m.pcbs p).kbp) :
    Nested returns m' chain := by
  refine ⟨nested.nodup, used, List.IsChain.imp_of_mem_tail_imp ?_ nested.waits⟩
  intro child parent member waiting link
  obtain ⟨frame, standing, saved, returning⟩ := link.frame
  obtain ⟨pendingEq, kbpEq⟩ := frames parent waiting
  exact ⟨(parents child member).trans link.parentEq, frame, pendingEq.trans standing, kbpEq.trans saved, returning⟩

theorem nested_enter (returns : Caller → Prop) (m : Machine) (p : Slot) (rest : List Slot)
    (nested : Nested returns m (p :: rest)) (here : m.current = p) : Nested returns m.enter (p :: rest) := by
  refine nested_transfer returns m m.enter (p :: rest) nested nested.used (fun _ _ => rfl) ?_
  intro waiting member
  have apart : waiting ≠ m.current := by
    rintro rfl
    exact (List.nodup_cons.mp nested.nodup).1 (here ▸ member)
  exact ⟨Function.update_of_ne apart _ _, rfl⟩

theorem nested_untouched (returns : Caller → Prop) (m m' : Machine) (chain : List Slot) (nested : Nested returns m chain)
    (same : Untouched m m') : Nested returns m' chain :=
  nested_transfer returns m m' chain nested (fun p member => same.pcbState ▸ nested.used p member) (fun p _ => same.parent p)
    (fun p _ => ⟨congrFun same.pending p, same.kbp p⟩)

theorem nested_start (returns : Caller → Prop) (m : Machine) (caller : Caller) (creator : Option Slot) (q j : Slot)
    (args : List UInt8) (entryAddress : Nat) (rest : List Slot) (nested : Nested returns m (q :: rest))
    (returning : returns caller) (free : m.pcbState j = false) :
    Nested returns (m.start caller creator q j args entryAddress) (j :: q :: rest) := by
  have fresh : ∀ p ∈ q :: rest, p ≠ j := by
    rintro p member rfl
    rw [nested.used p member] at free
    cases free
  have older : Nested returns (m.start caller creator q j args entryAddress) (q :: rest) := by
    refine nested_transfer returns m _ (q :: rest) nested ?_ ?_ ?_
    · intro p member
      rw [start_pcb_state, Function.update_of_ne (fresh p member)]
      exact nested.used p member
    · intro p member
      rw [start_parent, if_neg (fresh p member)]
    · intro p member
      have apart : p ≠ q := by
        rintro rfl
        exact (List.nodup_cons.mp nested.nodup).1 member
      rw [start_pending, start_kbp, if_neg apart, Function.update_of_ne apart]
      exact ⟨rfl, rfl⟩
  refine ⟨List.nodup_cons.mpr ⟨fun member => fresh j member rfl, nested.nodup⟩, ?_, ?_⟩
  · intro p member
    cases member with
    | head => simp
    | tail _ later => exact older.used p later
  · refine List.isChain_cons_cons.mpr ⟨⟨?_, ⟨m.serial, caller⟩, ?_, ?_, returning⟩, older.waits⟩
    · rw [start_parent, if_pos rfl]
    · rw [start_pending, Function.update_self]
    · rw [start_kbp, if_pos rfl]

theorem finish_halt_returns (returns : Caller → Prop) (q parent : Slot) (rest : List Slot) (status : UInt8) (m : Machine)
    (nested : Nested returns m (q :: parent :: rest)) :
    ∃ caller, returns caller ∧ m.finishHalt q status = { m with
      pcbState := Function.update m.pcbState (m.pcbs q).pid false
      paging := pageSwitch (m.pcbs parent).pid.val m.paging
      esp0 := kernelStackTop (m.pcbs parent).pid
      pending := Function.update m.pending parent none
      history := .resumed q parent status :: m.history
      control := caller.back parent } := by
  obtain ⟨parentEq, frame, standing, saved, returning⟩ := (List.isChain_cons_cons.mp nested.waits).1
  refine ⟨frame.caller, returning, ?_⟩
  simp only [Machine.finishHalt, parentEq, standing, saved, if_true]

theorem nested_finish (returns : Caller → Prop) (q parent : Slot) (rest : List Slot) (status : UInt8) (m : Machine)
    (nested : Nested returns m (q :: parent :: rest)) (own : (m.pcbs q).pid = q) :
    Nested returns (m.finishHalt q status) (parent :: rest) := by
  obtain ⟨caller, _, finished⟩ := finish_halt_returns returns q parent rest status m nested
  obtain ⟨outside, inner⟩ := List.nodup_cons.mp nested.nodup
  have waiting : Nested returns m (parent :: rest) :=
    ⟨inner, fun p member => nested.used p (List.mem_cons_of_mem _ member), (List.isChain_cons_cons.mp nested.waits).2⟩
  rw [finished]
  refine nested_transfer returns m _ (parent :: rest) waiting ?_ (fun _ _ => rfl) ?_
  · intro p member
    have apart : p ≠ q := by
      rintro rfl
      exact outside member
    simpa only [own, Function.update_of_ne apart] using waiting.used p member
  · intro p member
    have apart : p ≠ parent := by
      rintro rfl
      exact (List.nodup_cons.mp inner).1 member
    exact ⟨Function.update_of_ne apart _ _, rfl⟩

theorem launch_cases (image : Image) (exeData : Bytes) (caller : Caller) (creator : Option Slot) (q : Slot)
    (command : CString) (m : Machine) :
    ((findProgram image exeData (firstWord command) = none ∨ freeSlot m.pcbState = none) ∧
      ∃ refusal, m.launch image exeData caller creator q command = (false, refusal) ∧
        (refusal = m ∨ (refusal = m.note .refused ∧ ∀ p, m.pcbState p = true))) ∨
    ∃ program j, findProgram image exeData (firstWord command) = some program ∧ freeSlot m.pcbState = some j ∧
      ∃ control, (control = .user j ∨ control = .faulted) ∧ m.launch image exeData caller creator q command =
        (true, { m.start caller creator q j (arguments command) program.entryAddress with control := control }) := by
  rw [Machine.launch]
  cases found : findProgram image exeData (firstWord command) with
  | none => exact Or.inl ⟨Or.inl rfl, m, rfl, Or.inl rfl⟩
  | some program =>
      cases free : freeSlot m.pcbState with
      | none => exact Or.inl ⟨Or.inr rfl, _, rfl, Or.inr ⟨rfl, (free_slot_none m.pcbState).mp free⟩⟩
      | some j =>
          refine Or.inr ⟨program, j, rfl, rfl, ?_⟩
          by_cases fits : fitsPage image program m.paging = true
          · exact ⟨.user j, Or.inl rfl, if_pos fits⟩
          · exact ⟨.faulted, Or.inr rfl, if_neg fits⟩

theorem halt_returns (image : Image) (exeData : Bytes) (status : UInt8) (p q : Slot) (m : Machine)
    (inUse : m.pcbState (m.pcbs q).pid = true) (notFirst : ¬ m.firstShell q) :
    m.halt image exeData status p q = some (((m.note (.halted p)).leave q).finishHalt q status) := by
  rw [Machine.halt, if_neg (by simp [inUse]), if_neg notFirst]

theorem halt_restarts (image : Image) (exeData : Bytes) (status : UInt8) (p q : Slot) (m : Machine)
    (inUse : m.pcbState (m.pcbs q).pid = true) (first : m.firstShell q) :
    let restarted := ((m.note (.halted p)).leave q).launch image exeData (.halt status) (some p) q shellCommand
    m.halt image exeData status p q = some (if restarted.1 then restarted.2 else restarted.2.finishHalt q status) := by
  intro restarted
  rw [Machine.halt, if_neg (by simp [inUse]), if_pos first, apply_ite some]

theorem halt_cases (image : Image) (exeData : Bytes) (status : UInt8) (p q : Slot) (m halted : Machine)
    (done : m.halt image exeData status p q = some halted) :
    (∃ base, (base = (m.note (.halted p)).leave q ∨ base = ((m.note (.halted p)).leave q).note .refused) ∧
      halted = base.finishHalt q status) ∨
    m.firstShell q ∧ ∃ (program : Program) (j : Slot) (control : Control), freeSlot m.pcbState = some j ∧
      (control = .user j ∨ control = .faulted) ∧
      halted = { ((m.note (.halted p)).leave q).start (.halt status) (some p) q j (arguments shellCommand)
        program.entryAddress with control := control } := by
  have slots := (leave_untouched q (m.note (.halted p))).pcbState
  rw [Machine.halt] at done
  split at done
  · cases done
  · dsimp only at done
    split at done
    · rename_i first
      rcases launch_cases image exeData (.halt status) (some p) q shellCommand ((m.note (.halted p)).leave q) with
        ⟨_, refusal, refused, same⟩ | ⟨program, j, _, free, control, outcome, started⟩
      · rw [refused] at done
        cases done
        rcases same with same | ⟨same, _⟩
        · exact Or.inl ⟨_, Or.inl same, rfl⟩
        · exact Or.inl ⟨_, Or.inr same, rfl⟩
      · rw [started] at done
        cases done
        rw [slots] at free
        exact Or.inr ⟨first, program, j, control, free, outcome, rfl⟩
    · cases done
      exact Or.inl ⟨_, Or.inl rfl, rfl⟩

end SimpleKernel.Process
