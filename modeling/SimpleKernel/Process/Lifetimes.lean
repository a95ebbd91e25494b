import SimpleKernel.Process.Resumption
import SimpleKernel.Process.Slots

set_option autoImplicit false

namespace SimpleKernel.Process

open FileSystem (Image)
open Files (Devices)
open Keyboard (Term)
open Paging (Tables pageSwitch)

def Machine.alive (m : Machine) (p : Slot) : Prop := live m.history p = true

structure Lifetimes (m : Machine) : Prop where
  used : ∀ p, m.alive p → m.pcbState p = true
  free : ∀ p, m.pcbState p = false → m.pending p = none
  ended : ∀ p frame status, m.pending p = some frame → frame.caller = .halt status → ¬ m.alive p
  halting : ∀ q status, m.control = .halting q status → m.pending q = none ∧ ¬ m.alive q

theorem free_slot_fresh (m : Machine) (j : Slot) (lives : Lifetimes m) (free : freeSlot m.pcbState = some j) :
    ¬ m.alive j := by
  intro here
  have used := lives.used j here
  rw [free_slot_free _ j free] at used
  cases used

theorem cleared_frame (pending : Slot → Option Frame) (q p : Slot) :
    Function.update pending q none p = pending p ∨ Function.update pending q none p = none := by
  by_cases here : p = q
  · exact Or.inr (by rw [here, Function.update_self])
  · exact Or.inl (Function.update_of_ne here _ _)

@[simp] theorem leave_control (q : Slot) (m : Machine) : (m.leave q).control = m.control := by
  obtain ⟨shells, same⟩ := pass_shell_changes q (m.unlist (m.pcbs q).pid)
  rw [Machine.leave, same]
  rfl

theorem leave_alive (q p : Slot) (m : Machine) : ((m.note (.halted q)).leave q).alive p ↔ q ≠ p ∧ m.alive p := by
  rw [Machine.alive, (leave_untouched q (m.note (.halted q))).history]
  simp [Machine.note, live, Machine.alive]

theorem start_alive (caller : Caller) (creator : Option Slot) (q j p : Slot) (args : List UInt8) (entryAddress : Nat)
    (m : Machine) : (m.start caller creator q j args entryAddress).alive p ↔ j = p ∨ m.alive p := by
  simp [Machine.alive, live]

theorem lifetimes_transfer (m m' : Machine) (lives : Lifetimes m) (alive : ∀ p, m'.alive p → m.alive p)
    (pending : ∀ p, m'.pending p = m.pending p ∨ m'.pending p = none)
    (slots : ∀ p, m'.pcbState p = m.pcbState p ∨ m'.pending p = none ∧ ¬ m.alive p)
    (halting : ∀ q status, m'.control = .halting q status → m'.pending q = none ∧ ¬ m.alive q) : Lifetimes m' := by
  refine ⟨?_, ?_, ?_, ?_⟩
  · intro p here
    have old := alive p here
    rcases slots p with same | ⟨_, gone⟩
    · exact same.trans (lives.used p old)
    · exact absurd old gone
  · intro p vacant
    rcases slots p with same | ⟨none, _⟩
    · rcases pending p with standing | none
      · exact standing.trans (lives.free p (same.symm.trans vacant))
      · exact none
    · exact none
  · intro p frame status standing restarting here
    rcases pending p with same | none
    · exact lives.ended p frame status (same ▸ standing) restarting (alive p here)
    · rw [none] at standing
      cases standing
  · intro q status inside
    obtain ⟨none, gone⟩ := halting q status inside
    exact ⟨none, fun here => gone (alive q here)⟩

theorem lifetimes_start (caller : Caller) (creator : Option Slot) (q j : Slot) (args : List UInt8) (entryAddress : Nat)
    (m : Machine) (control : Control) (lives : Lifetimes m) (free : m.pcbState j = false)
    (waiting : q = j ∨ m.pcbState q = true) (dying : ∀ status, caller = .halt status → q ≠ j ∧ ¬ m.alive q)
    (calm : ∀ slot status, control ≠ .halting slot status) :
    Lifetimes { m.start caller creator q j args entryAddress with control := control } := by
  have alive := fun p => (start_alive caller creator q j p args entryAddress m).mp
  refine ⟨?_, ?_, ?_, fun slot status inside => absurd inside (calm slot status)⟩
  · intro p here
    dsimp only
    rw [start_pcb_state]
    by_cases new : p = j
    · rw [new, Function.update_self]
    · rw [Function.update_of_ne new]
      exact lives.used p ((alive p here).resolve_left (Ne.symm new))
  · intro p unused
    dsimp only at unused ⊢
    rw [start_pcb_state] at unused
    have other : p ≠ j := by
      rintro rfl
      simp at unused
    rw [Function.update_of_ne other] at unused
    have apart : p ≠ q := by
      rintro rfl
      rw [waiting.resolve_left other] at unused
      cases unused
    rw [start_pending, Function.update_of_ne apart]
    exact lives.free p unused
  · intro p frame status standing restarting here
    dsimp only at standing
    rw [start_pending] at standing
    by_cases parent : p = q
    · subst parent
      rw [Function.update_self] at standing
      cases standing
      obtain ⟨other, gone⟩ := dying status restarting
      exact gone ((alive p here).resolve_left (Ne.symm other))
    · rw [Function.update_of_ne parent] at standing
      rcases alive p here with new | old
      · subst new
        rw [lives.free j free] at standing
        cases standing
      · exact lives.ended p frame status standing restarting old

theorem calm_started (j : Slot) (control : Control) (outcome : control = .user j ∨ control = .faulted) :
    ∀ slot status, control ≠ .halting slot status := by
  rintro slot status rfl
  rcases outcome with user | faulted
  · cases user
  · cases faulted

theorem lifetimes_launch (image : Image) (exeData : Bytes) (caller : Caller) (creator : Option Slot) (q : Slot)
    (command : CString) (m : Machine) (lives : Lifetimes m) (calm : ∀ slot status, m.control ≠ .halting slot status)
    (waiting : ∀ j, freeSlot m.pcbState = some j → q = j ∨ m.pcbState q = true)
    (dying : ∀ j status, freeSlot m.pcbState = some j → caller = .halt status → q ≠ j ∧ ¬ m.alive q) :
    Lifetimes (m.launch image exeData caller creator q command).2 := by
  rcases launch_cases image exeData caller creator q command m with
    ⟨_, refusal, refused, same | ⟨same, _⟩⟩ | ⟨program, j, found, free, control, outcome, started⟩
  · rw [refused, same]
    exact lives
  · rw [refused, same]
    exact lifetimes_transfer m _ lives (fun _ here => here) (fun _ => Or.inl rfl) (fun _ => Or.inl rfl)
      fun slot status inside => absurd inside (calm slot status)
  · rw [started]
    exact lifetimes_start caller creator q j _ _ m control lives (free_slot_free _ j free) (waiting j free)
      (fun status => dying j status free) (calm_started j control outcome)

theorem finish_halt_cases (q : Slot) (status : UInt8) (m : Machine) : ∃ paging esp0,
    m.finishHalt q status = { m with
      pcbState := Function.update m.pcbState (m.pcbs q).pid false
      paging := paging
      esp0 := esp0
      control := .lost } ∨
    ∃ parent frame, m.pending parent = some frame ∧ m.finishHalt q status = { m with
      pcbState := Function.update m.pcbState (m.pcbs q).pid false
      paging := paging
      esp0 := esp0
      pending := Function.update m.pending parent none
      history := .resumed q parent status :: m.history
      control := frame.caller.back parent } := by
  cases parentEq : (m.pcbs q).parent with
  | none =>
      refine ⟨m.paging, m.esp0, Or.inl ?_⟩
      simp only [Machine.finishHalt, parentEq]
  | some parent =>
      refine ⟨pageSwitch (m.pcbs parent).pid.val m.paging, kernelStackTop (m.pcbs parent).pid, ?_⟩
      cases standing : m.pending parent with
      | none =>
          refine Or.inl ?_
          simp only [Machine.finishHalt, parentEq, standing]
      | some frame =>
          by_cases saved : (m.pcbs parent).kbp = some frame.serial
          · refine Or.inr ⟨parent, frame, standing, ?_⟩
            simp only [Machine.finishHalt, parentEq, standing, saved, if_true]
          · refine Or.inl ?_
            simp only [Machine.finishHalt, parentEq, standing, saved, if_false]

theorem back_halting (caller : Caller) (parent q : Slot) (status : UInt8) (inside : caller.back parent = .halting q status) :
    parent = q ∧ caller = .halt status := by
  cases caller with
  | kernel => cases inside
  | syscall => cases inside
  | displaySwitch => cases inside
  | halt waiting =>
      cases inside
      exact ⟨rfl, rfl⟩

-- The process whose frame halt jumps to has ended itself if it waits for the
-- shell that took its place.
theorem lifetimes_finish (q : Slot) (status : UInt8) (m : Machine) (own : (m.pcbs q).pid = q) (lives : Lifetimes m)
    (gone : m.pending q = none ∧ ¬ m.alive q) : Lifetimes (m.finishHalt q status) := by
  have released : ∀ p, Function.update m.pcbState q false p = m.pcbState p ∨ m.pending p = none ∧ ¬ m.alive p := by
    intro p
    by_cases here : p = q
    · exact Or.inr (here ▸ gone)
    · exact Or.inl (Function.update_of_ne here _ _)
  obtain ⟨paging, esp0, lost | ⟨parent, frame, standing, returned⟩⟩ := finish_halt_cases q status m
  · rw [lost, own]
    exact lifetimes_transfer m _ lives (fun _ here => here) (fun _ => Or.inl rfl) released (by simp)
  · have pending := cleared_frame m.pending parent
    rw [returned, own]
    refine lifetimes_transfer m _ lives (fun _ here => here) pending ?_ ?_
    · intro p
      rcases released p with same | ⟨none, dead⟩
      · exact Or.inl same
      · refine Or.inr ⟨?_, dead⟩
        rcases pending p with same | cleared
        · exact same.trans none
        · exact cleared
    · intro slot waiting inside
      obtain ⟨same, caller⟩ := back_halting frame.caller parent slot waiting inside
      subst same
      exact ⟨Function.update_self .., lives.ended parent frame waiting standing caller⟩

theorem lifetimes_leave (p : Slot) (m : Machine) (lives : Lifetimes m) (calm : ∀ slot status,
    m.control ≠ .halting slot status) :
    Lifetimes ((m.note (.halted p)).leave p) := by
  have untouched := leave_untouched p (m.note (.halted p))
  refine lifetimes_transfer m _ lives (fun slot here => ((leave_alive p slot m).mp here).2) ?_ ?_ ?_
  · intro slot
    exact Or.inl (by rw [untouched.pending]; rfl)
  · intro slot
    exact Or.inl (by rw [untouched.pcbState]; rfl)
  · intro slot status inside
    rw [leave_control] at inside
    exact absurd inside (calm slot status)

theorem lifetimes_halt (image : Image) (exeData : Bytes) (status : UInt8) (p : Slot) (m halted : Machine)
    (lives : Lifetimes m) (calm : ∀ slot status, m.control ≠ .halting slot status) (own : (m.pcbs p).pid = p)
    (used : m.pcbState p = true) (vacant : m.pending p = none) (done : m.halt image exeData status p p = some halted) :
    Lifetimes halted := by
  have untouched := leave_untouched p (m.note (.halted p))
  have slots : ((m.note (.halted p)).leave p).pcbState = m.pcbState := untouched.pcbState
  have pid : (((m.note (.halted p)).leave p).pcbs p).pid = p := (untouched.pid p).trans own
  have left := lifetimes_leave p m lives calm
  have gone : ((m.note (.halted p)).leave p).pending p = none ∧ ¬ ((m.note (.halted p)).leave p).alive p := by
    refine ⟨?_, fun here => ((leave_alive p p m).mp here).1 rfl⟩
    rw [untouched.pending]
    exact vacant
  rcases halt_cases image exeData status p p m halted done with
    ⟨base, same | refused, rfl⟩ | ⟨_, program, j, control, free, outcome, rfl⟩
  · rw [same]
    exact lifetimes_finish p status _ pid left gone
  · rw [refused]
    refine lifetimes_finish p status _ pid ?_ gone
    refine lifetimes_transfer _ _ left (fun _ here => here) (fun _ => Or.inl rfl) (fun _ => Or.inl rfl) ?_
    intro slot status' inside
    exact absurd ((leave_control p (m.note (.halted p))).symm.trans inside) (calm slot status')
  · have vacantSlot : m.pcbState j = false := free_slot_free _ j free
    refine lifetimes_start (.halt status) (some p) p j _ _ _ control left (slots ▸ vacantSlot) (Or.inr (slots ▸ used)) ?_
      (calm_started j control outcome)
    intro _ _
    refine ⟨?_, gone.2⟩
    rintro rfl
    rw [used] at vacantSlot
    cases vacantSlot

theorem lifetimes_execute (image : Image) (exeData : Bytes) (command : Option CString) (p : Slot) (m : Machine)
    (lives : Lifetimes m) (calm : ∀ slot status, m.control ≠ .halting slot status) (own : (m.pcbs p).pid = p)
    (used : m.pcbState p = true) (vacant : m.pending p = none) : Lifetimes (m.execute image exeData command p p) := by
  have launched : ∀ command, Lifetimes (m.launch image exeData .syscall (some p) p command).2 := by
    intro command
    exact lifetimes_launch image exeData .syscall (some p) p command m lives calm (fun _ _ => Or.inr used) (by simp)
  cases command with
  | none => exact lives
  | some command =>
      rw [Machine.execute]
      split
      · exact lifetimes_transfer m _ lives (fun _ here => here) (fun _ => Or.inl rfl) (fun _ => Or.inl rfl) (by simp)
      · split
        · exact lives
        · split
          · cases done : m.halt image exeData 0 p p with
            | none => exact launched command
            | some halted => exact lifetimes_halt image exeData 0 p m halted lives calm own used vacant done
          · exact launched command

theorem lifetimes_enter (p : Slot) (m : Machine) (lives : Lifetimes m) (running : m.control = .user p) : Lifetimes m.enter :=
  lifetimes_transfer m _ lives (fun _ here => here) (cleared_frame m.pending m.current) (fun _ => Or.inl rfl)
    fun _ _ inside => absurd (running.symm.trans inside) (by simp)

theorem lifetimes_switch_to (termId : Term) (q : Slot) (m : Machine) (lives : Lifetimes m)
    (calm : ∀ slot status, m.control ≠ .halting slot status) : Lifetimes (m.switchTo termId q) :=
  lifetimes_transfer m _ lives (fun _ here => here) (fun _ => Or.inl rfl) (fun _ => Or.inl rfl)
    fun slot status inside => absurd inside (calm slot status)

theorem lifetimes_switch (image : Image) (exeData : Bytes) (termId : Term) (creator : Option Slot) (q : Slot) (m : Machine)
    (lives : Lifetimes m) (calm : ∀ slot status, m.control ≠ .halting slot status)
    (waiting : ∀ j, freeSlot m.pcbState = some j → q = j ∨ m.pcbState q = true) :
    Lifetimes (m.displaySwitch image exeData termId creator q) := by
  have switched := lifetimes_switch_to termId q m lives calm
  rw [Machine.displaySwitch]
  split
  · exact lifetimes_launch image exeData .displaySwitch creator q shellCommand _ switched calm waiting (by simp)
  · exact switched

theorem settled_caller (p : Slot) (m : Machine) (settled : Settled m) (running : m.control = .user p) :
    m.current = p ∧ (m.pcbs p).pid = p ∧ m.pcbState p = true ∧ m.enter.pending p = none ∧
      ∀ slot status, m.enter.control ≠ .halting slot status := by
  have placed := settled.placed
  simp only [Placed, running] at placed
  obtain ⟨inPlace, rest, own⟩ := placed
  have here := in_place_current p m inPlace
  refine ⟨here, inPlace.pid, own.nested.used p List.mem_cons_self, ?_, ?_⟩
  · rw [Machine.enter, here]
    exact Function.update_self ..
  · intro slot status inside
    exact absurd (running.symm.trans inside) (by simp)

theorem lifetimes_step (image : Image) (m : Machine) (event : Event) (settled : Settled m) (lives : Lifetimes m) :
    Lifetimes (step image m event) := by
  apply step_rule image m event Lifetimes lives
  case execute =>
    intro p command exeData control _
    obtain ⟨here, pid, used, vacant, calm⟩ := settled_caller p m settled control
    rw [here]
    exact lifetimes_execute image exeData command p m.enter (lifetimes_enter p m lives control) calm pid used vacant
  case halt =>
    intro p status exeData control _
    obtain ⟨here, pid, used, vacant, calm⟩ := settled_caller p m settled control
    have entered := lifetimes_enter p m lives control
    rw [here]
    cases done : m.enter.halt image exeData status p p with
    | none => exact entered
    | some halted => exact lifetimes_halt image exeData status p m.enter halted entered calm pid used vacant done
  case switch =>
    intro p termId exeData control _
    obtain ⟨here, _, used, _, calm⟩ := settled_caller p m settled control
    rw [here]
    exact lifetimes_switch image exeData termId (some p) p m.enter (lifetimes_enter p m lives control) calm
      fun _ _ => Or.inr used
  case idle =>
    intro termId exeData control _
    have placed := settled.placed
    simp only [Placed, control] at placed
    refine lifetimes_switch image exeData termId none firstSlot m lives ?_ ?_
    · intro slot status inside
      exact absurd (control.symm.trans inside) (by simp)
    · intro j free
      exact Or.inl (Option.some.inj ((free_slot_boot m.pcbState placed).symm.trans free))
  case proceed =>
    intro q status control _
    have placed := settled.placed
    simp only [Placed, control] at placed
    obtain ⟨rest, own⟩ := placed
    exact lifetimes_finish q status m (own.pid q List.mem_cons_self) lives (lives.halting q status control)

theorem power_on_lifetimes (paging : Tables) (devices : Devices) : Lifetimes (powerOn paging devices) := by
  refine ⟨?_, fun _ _ => rfl, ?_, ?_⟩
  · intro p here
    cases here
  · intro p frame status standing
    cases standing
  · intro q status inside
    cases inside

theorem boot_lifetimes (image : Image) (exeData : Bytes) (paging : Tables) (devices : Devices) :
    Lifetimes (boot image exeData paging devices) :=
  lifetimes_launch image exeData .kernel none firstSlot shellCommand _ (power_on_lifetimes paging devices)
    (fun _ _ inside => by cases inside) (fun j free => Or.inl (Option.some.inj free)) (by simp)

end SimpleKernel.Process
