import SimpleKernel.Console.Switching
import SimpleKernel.Paging.Mapped
import SimpleKernel.Process.Lists

set_option autoImplicit false

namespace SimpleKernel.Process

open BitField (get)
open Console (Display byte backing terminalSize memcpy placeCursor)
open FileSystem (Image)
open Keyboard (Term)
open Paging (Tables Word pageSwitch pageSwitchEntry userIdx present pageSize userSupervisor bit10Addr)

inductive Register where
  | eax
  | ebx
  | ecx
  | edx
  | esi
  | edi
deriving DecidableEq, Repr

-- The registers when a timer interrupt has reached context_switch on the
-- kernel stack of `slot`. get_pcb masks a stack pointer of its own, which lies
-- on the same stack.
structure Tick where
  slot : Slot
  esp : Word
  ebp : Word
  general : Register → Word
  exeData : Bytes
  onStack : pcbAddress slot ≤ esp.toNat ∧ esp.toNat ≤ kernelStackTop slot

-- What the compiler adds to the two asm statements of context_switch: the
-- registers it picks for their outputs, which neither statement writes, and
-- its own instructions between them.
structure Compiled where
  currKsp : Register
  currKbp : Register
  nextKsp : Register
  nextKbp : Register
  between : (Register → Word) → Register → Word

structure Saved where
  ksp : Word
  kbp : Word
deriving DecidableEq

-- `saved` is the ksp and kbp of each PCB as words; `esp` and `ebp` are the
-- registers that a tick has left.
structure System where
  machine : Machine
  display : Display
  nextTerm : Term
  saved : Slot → Saved
  esp : Word
  ebp : Word

def Tick.pcb (tick : Tick) : Slot := slotAt (getPcb tick.esp.toNat)

-- movl %esp, %ebx; movl %ebp, %ecx
def Tick.afterFirst (tick : Tick) : Register → Word :=
  Function.update (Function.update tick.general .ebx tick.esp) .ecx tick.ebp

def Tick.beforeSecond (tick : Tick) (compiled : Compiled) : Register → Word := compiled.between tick.afterFirst

def contextSwitch (compiled : Compiled) (tick : Tick) (s : System) : System :=
  let currPcb := tick.pcb
  let running := { s.machine with runningTerminal := s.nextTerm }
  let nextPcb := tick.pcb
  let pid := (running.pcbs nextPcb).pid
  let switched := { running with paging := pageSwitch pid.val running.paging, esp0 := kernelStackTop pid }
  let first := tick.afterFirst
  let stored := Function.update s.saved currPcb ⟨first compiled.currKsp, first compiled.currKbp⟩
  let second := tick.beforeSecond compiled
  -- movl %ebx, %esp; movl %ecx, %ebp
  { s with
    machine := switched.modifyPcb nextPcb fun pcb => { pcb with kbp := none }
    saved := Function.update stored nextPcb ⟨second compiled.nextKsp, second compiled.nextKbp⟩
    esp := second .ebx
    ebp := second .ecx }

def startScreen (next : Term) (display : Display) : Display :=
  let saved := { display with
    savedX := Function.update display.savedX display.activeTerminal (byte display.screen.screenX).toNat
    savedY := Function.update display.savedY display.activeTerminal (byte display.screen.screenY).toNat }
  let stored := memcpy (backing saved.activeTerminal) Console.videoMemory terminalSize saved.screen
  let cursor := { Console.clear stored with
    screenX := (byte (saved.savedX next)).toNat, screenY := (byte (saved.savedY next)).toNat }
  let placed := placeCursor (byte (saved.savedX next)) (byte (saved.savedY next)) cursor
  { saved with screen := memcpy Console.videoMemory (backing next) terminalSize placed, activeTerminal := next }

-- The shell is started from an interrupt handler, as display_switch starts one.
def startTerminal (image : Image) (tick : Tick) (s : System) : System :=
  let prevPcb := tick.pcb
  let active := { s.machine.modifyPcb prevPcb fun pcb => { pcb with kbp := none } with activeTerminal := s.nextTerm }
  { s with
    display := startScreen s.nextTerm s.display
    saved := Function.update s.saved prevPcb ⟨tick.esp, tick.ebp⟩
    machine := (active.launch image tick.exeData .displaySwitch (some tick.slot) prevPcb shellCommand).2
    esp := tick.esp
    ebp := tick.ebp }

def termAfter (t : Term) : Term := ⟨(t.val + 1) % 3, Nat.mod_lt _ (Nat.succ_pos 2)⟩

def scheduler (compiled : Compiled) (image : Image) (tick : Tick) (s : System) : System :=
  let chosen := { s with nextTerm := termAfter s.machine.runningTerminal }
  if chosen.nextTerm ≠ s.machine.runningTerminal ∧ (s.machine.terminals chosen.nextTerm).terminalFlag = false then
    contextSwitch compiled tick chosen
  else startTerminal image tick chosen

def pitHandler (compiled : Compiled) (image : Image) (tick : Tick) (s : System) : System :=
  if (List.finRange 3).any fun t => !(s.machine.terminals t).terminalFlag then scheduler compiled image tick s
  else s

-- Between two ticks the processes and the rest of the kernel do whatever they do.
inductive SchedulerEvent where
  | tick (tick : Tick)
  | elsewhere (change : System → System)

def System.step (compiled : Compiled) (image : Image) (s : System) : SchedulerEvent → System
  | .tick tick => pitHandler compiled image tick s
  | .elsewhere change => change s

def foreground (terminal : Terminal) : Option Slot := ((List.range 4).filterMap terminal.processes).getLast?

def MapsProcess (paging : Tables) (p : Slot) : Prop :=
  get present (paging.pageDirectory userIdx) = 1 ∧ get pageSize (paging.pageDirectory userIdx) = 1 ∧
    get userSupervisor (paging.pageDirectory userIdx) = 1 ∧ get bit10Addr (paging.pageDirectory userIdx) = 2 + p.val

def OnKernelStack (esp0 : Nat) (p : Slot) : Prop := pcbAddress p ≤ esp0 ∧ esp0 ≤ kernelStackTop p

def System.next (s : System) : Term := termAfter s.machine.runningTerminal

def System.nextStarted (s : System) : Prop := (s.machine.terminals s.next).terminalFlag = false

structure Gives (s after : System) (tick : Tick) : Prop where
  running : after.machine.runningTerminal = s.next
  process : ∃ p, foreground (s.machine.terminals s.next) = some p ∧ MapsProcess after.machine.paging p ∧
    OnKernelStack after.machine.esp0 p
  saved : after.saved tick.slot = ⟨tick.esp, tick.ebp⟩

-- The interrupted process is itself the one to be switched to, and the output
-- registers happen to hold esp and ebp.
structure OwnTurn (compiled : Compiled) (tick : Tick) (s : System) : Prop where
  process : foreground (s.machine.terminals s.next) = some (s.machine.pcbs tick.slot).pid
  ksp : tick.beforeSecond compiled compiled.nextKsp = tick.esp
  kbp : tick.beforeSecond compiled compiled.nextKbp = tick.ebp

theorem slot_at_pcb (p : Slot) : slotAt (pcbAddress p) = p := by
  revert p
  decide

theorem tick_pcb (tick : Tick) : tick.pcb = tick.slot := by
  rw [Tick.pcb, get_pcb_in_stack tick.slot _ tick.onStack.1 tick.onStack.2, slot_at_pcb]

theorem next_differs (s : System) : s.next ≠ s.machine.runningTerminal := by
  have moves : ∀ t : Term, termAfter t ≠ t := by decide
  exact moves _

theorem tick_started (compiled : Compiled) (image : Image) (tick : Tick) (s : System) (started : s.nextStarted) :
    s.step compiled image (.tick tick) = contextSwitch compiled tick { s with nextTerm := s.next } := by
  have some : ((List.finRange 3).any fun t => !(s.machine.terminals t).terminalFlag) = true := by
    rw [List.any_eq_true]
    refine ⟨s.next, List.mem_finRange _, ?_⟩
    rw [started]
    rfl
  have chosen : scheduler compiled image tick s = contextSwitch compiled tick { s with nextTerm := s.next } :=
    if_pos ⟨next_differs s, started⟩
  rw [System.step, pitHandler, if_pos some, chosen]

-- What context_switch does: both PCBs are the one the stack pointer lies over.
structure Stays (compiled : Compiled) (tick : Tick) (s after : System) : Prop where
  running : after.machine.runningTerminal = s.nextTerm
  terminals : after.machine.terminals = s.machine.terminals
  paging : after.machine.paging = pageSwitch (s.machine.pcbs tick.slot).pid.val s.machine.paging
  esp0 : after.machine.esp0 = kernelStackTop (s.machine.pcbs tick.slot).pid
  saved : after.saved tick.slot = ⟨tick.beforeSecond compiled compiled.nextKsp, tick.beforeSecond compiled compiled.nextKbp⟩
  stack : after.esp = tick.beforeSecond compiled .ebx ∧ after.ebp = tick.beforeSecond compiled .ecx

theorem context_switch_stays (compiled : Compiled) (tick : Tick) (s : System) :
    Stays compiled tick s (contextSwitch compiled tick s) := by
  refine ⟨rfl, rfl, ?_, ?_, ?_, rfl, rfl⟩
  · rw [← tick_pcb tick]
    rfl
  · rw [← tick_pcb tick]
    rfl
  · simp only [contextSwitch, tick_pcb, Function.update_self]

theorem context_switch_returns (compiled : Compiled) (tick : Tick) (s : System)
    (keeps : ∀ general, compiled.between general .ebx = general .ebx ∧ compiled.between general .ecx = general .ecx) :
    (contextSwitch compiled tick s).esp = tick.esp ∧ (contextSwitch compiled tick s).ebp = tick.ebp := by
  obtain ⟨esp, ebp⟩ := (context_switch_stays compiled tick s).stack
  rw [esp, ebp, Tick.beforeSecond, (keeps _).1, (keeps _).2, Tick.afterFirst]
  refine ⟨?_, Function.update_self _ _ _⟩
  rw [Function.update_of_ne (by decide), Function.update_self]

theorem maps_switched (paging : Tables) (pid p : Slot) : MapsProcess (pageSwitch pid.val paging) p ↔ p = pid := by
  have bound := pid.isLt
  have fields := Paging.page_switch_entry_fields pid.val (paging.pageDirectory userIdx) (by omega) (by omega)
  have entry : (pageSwitch pid.val paging).pageDirectory userIdx = pageSwitchEntry pid.val (paging.pageDirectory userIdx) :=
    Paging.page_switch_user pid.val paging (by omega) (by omega)
  rw [MapsProcess, entry]
  obtain ⟨isPresent, big, user, address⟩ := fields
  constructor
  · intro maps
    have same := address.symm.trans maps.2.2.2
    exact Fin.ext (by omega)
  · intro same
    rw [same]
    exact ⟨isPresent, big, user, address.trans (by rw [Int.toNat_natCast])⟩

theorem on_own_stack (p : Slot) : OnKernelStack (kernelStackTop p) p := by
  have bound := p.isLt
  simp only [OnKernelStack, pcbAddress, kernelStackTop, page8MB, page8KB]
  omega

theorem gives_iff_own_turn (compiled : Compiled) (image : Image) (tick : Tick) (s : System) (started : s.nextStarted) :
    Gives s (s.step compiled image (.tick tick)) tick ↔ OwnTurn compiled tick s := by
  have stays := context_switch_stays compiled tick { s with nextTerm := s.next }
  rw [tick_started compiled image tick s started]
  constructor
  · intro gives
    obtain ⟨p, last, maps, _⟩ := gives.process
    rw [stays.paging, maps_switched] at maps
    have stored := stays.saved.symm.trans gives.saved
    exact ⟨last.trans (congrArg some maps), congrArg Saved.ksp stored, congrArg Saved.kbp stored⟩
  · intro own
    refine ⟨stays.running, ⟨_, own.process, ?_, ?_⟩, ?_⟩
    · rw [stays.paging, maps_switched]
    · rw [stays.esp0]
      exact on_own_stack _
    · rw [stays.saved, own.ksp, own.kbp]

def Given (compiled : Compiled) (image : Image) (s : System) : SchedulerEvent → Prop
  | .tick tick => s.nextStarted → Gives s (s.step compiled image (.tick tick)) tick
  | .elsewhere _ => True

def Admits (compiled : Compiled) (s : System) : SchedulerEvent → Prop
  | .tick tick => s.nextStarted → OwnTurn compiled tick s
  | .elsewhere _ => True

theorem given_iff_admits (compiled : Compiled) (image : Image) (s : System) (event : SchedulerEvent) :
    Given compiled image s event ↔ Admits compiled s event := by
  cases event with
  | tick tick => exact forall_congr' fun started => gives_iff_own_turn compiled image tick s started
  | elsewhere change => exact Iff.rfl

def System.allStarted (s : System) : Prop := ∀ t, (s.machine.terminals t).terminalFlag = false

theorem ticks_rotate (compiled : Compiled) (image : Image) (ticks : List Tick) (s : System) (started : s.allStarted) :
    (Run.final (System.step compiled image) s (ticks.map SchedulerEvent.tick)).machine.terminals = s.machine.terminals ∧
      (Run.final (System.step compiled image) s (ticks.map SchedulerEvent.tick)).machine.runningTerminal.val =
        (s.machine.runningTerminal.val + ticks.length) % 3 := by
  induction ticks generalizing s with
  | nil =>
      have bound := s.machine.runningTerminal.isLt
      refine ⟨rfl, ?_⟩
      change s.machine.runningTerminal.val = (s.machine.runningTerminal.val + 0) % 3
      omega
  | cons tick rest ih =>
      have stays := context_switch_stays compiled tick { s with nextTerm := s.next }
      rw [← tick_started compiled image tick s (started s.next)] at stays
      have later : (s.step compiled image (.tick tick)).allStarted := by
        intro t
        rw [stays.terminals]
        exact started t
      obtain ⟨terminals, running⟩ := ih _ later
      rw [stays.terminals] at terminals
      rw [stays.running] at running
      refine ⟨terminals, ?_⟩
      change (Run.final (System.step compiled image) (s.step compiled image (.tick tick))
        (rest.map SchedulerEvent.tick)).machine.runningTerminal.val = _
      rw [running, List.length_cons]
      change ((s.machine.runningTerminal.val + 1) % 3 + rest.length) % 3 = _
      omega

def RoundRobin (compiled : Compiled) (image : Image) (s : System) (ticks : List Tick) : Prop :=
  ∀ before tick after, ticks = before ++ tick :: after →
    let reached := Run.final (System.step compiled image) s ((before ++ [tick]).map SchedulerEvent.tick)
    reached.machine.runningTerminal.val = (s.machine.runningTerminal.val + (before.length + 1)) % 3 ∧
      ∃ p, foreground (s.machine.terminals reached.machine.runningTerminal) = some p ∧
        MapsProcess reached.machine.paging p ∧ OnKernelStack reached.machine.esp0 p

theorem given_round_robin (compiled : Compiled) (image : Image) (s : System) (ticks : List Tick) (started : s.allStarted)
    (given : ∀ before event after, ticks.map SchedulerEvent.tick = before ++ event :: after →
      Given compiled image (Run.final (System.step compiled image) s before) event) :
    RoundRobin compiled image s ticks := by
  intro before tick after split reached
  have rotated := ticks_rotate compiled image (before ++ [tick]) s started
  have earlier := ticks_rotate compiled image before s started
  have next : (Run.final (System.step compiled image) s (before.map SchedulerEvent.tick)).nextStarted := by
    rw [System.nextStarted, earlier.1]
    exact started _
  have gives := given (before.map SchedulerEvent.tick) (.tick tick) (after.map SchedulerEvent.tick)
    (by rw [split, List.map_append, List.map_cons]) next
  have last : reached = System.step compiled image (Run.final (System.step compiled image) s
    (before.map SchedulerEvent.tick)) (.tick tick) := by
    change Run.final _ s ((before ++ [tick]).map SchedulerEvent.tick) = _
    rw [List.map_append]
    exact Run.final_concat _ _ _ _
  refine ⟨?_, ?_⟩
  · rw [← List.length_singleton (a := tick), ← List.length_append]
    exact rotated.2
  · obtain ⟨p, listed, maps, onStack⟩ := gives.process
    rw [earlier.1, ← gives.running, ← last] at listed
    exact ⟨p, listed, last ▸ maps, last ▸ onStack⟩

theorem scheduler_exact (compiled : Compiled) (image : Image) (s : System) (events : List SchedulerEvent) :
    ((∀ before event after, events = before ++ event :: after →
        Given compiled image (Run.final (System.step compiled image) s before) event) ↔
      Run.Guarded (System.step compiled image) (Admits compiled) s events) ∧
    ∀ ticks : List Tick, s.allStarted → Run.Guarded (System.step compiled image) (Admits compiled) s
      (ticks.map SchedulerEvent.tick) →
      RoundRobin compiled image s ticks := by
  have exact_run (run : List SchedulerEvent) : (∀ before event after, run = before ++ event :: after →
        Given compiled image (Run.final (System.step compiled image) s before) event) ↔
      Run.Guarded (System.step compiled image) (Admits compiled) s run := by
    rw [Run.each_iff_guarded]
    exact Run.guarded_congr (System.step compiled image) _ _ (fun _ => True) (fun _ _ _ _ => trivial)
      (fun current event _ => given_iff_admits compiled image current event) s run trivial
  refine ⟨exact_run events, fun ticks started guarded => ?_⟩
  exact given_round_robin compiled image s ticks started ((exact_run (ticks.map SchedulerEvent.tick)).mpr guarded)

-- A start that has not come off: the screen and the keyboard are the new
-- terminal's all the same.
structure NotStarted (s after : System) : Prop where
  pcbState : after.machine.pcbState = s.machine.pcbState
  terminals : after.machine.terminals = s.machine.terminals
  running : after.machine.runningTerminal = s.machine.runningTerminal
  shown : after.machine.activeTerminal = s.nextTerm ∧ after.display = startScreen s.nextTerm s.display

theorem start_terminal_refused (image : Image) (tick : Tick) (s : System)
    (refused : findProgram image tick.exeData (firstWord shellCommand) = none ∨ ∀ p, s.machine.pcbState p = true) :
    NotStarted s (startTerminal image tick s) := by
  let active := { s.machine.modifyPcb tick.pcb fun pcb => { pcb with kbp := none } with activeTerminal := s.nextTerm }
  rcases launch_cases image tick.exeData .displaySwitch (some tick.slot) tick.pcb shellCommand active with
    ⟨_, refusal, launched, same | ⟨same, _⟩⟩ | ⟨program, j, found, free, _⟩
  · simp only [startTerminal]
    rw [launched, same]
    exact ⟨rfl, rfl, rfl, rfl, rfl⟩
  · simp only [startTerminal]
    rw [launched, same]
    exact ⟨rfl, rfl, rfl, rfl, rfl⟩
  · rcases refused with none | full
    · rw [found] at none
      cases none
    · rw [(free_slot_none active.pcbState).mpr full] at free
      cases free

theorem start_running (caller : Caller) (creator : Option Slot) (q j : Slot) (args : List UInt8) (entryAddress : Nat)
    (m : Machine) (unstarted : m.active.terminalFlag = true) :
    (m.start caller creator q j args entryAddress).runningTerminal = m.activeTerminal := by
  have stored (state : Machine) : (state.storeShellPid j).runningTerminal = state.runningTerminal := by
    rw [Machine.storeShellPid]
    split <;> rfl
  calc (m.start caller creator q j args entryAddress).runningTerminal
      = ((m.occupy j).storeShellPid j).runningTerminal := rfl
    _ = (m.occupy j).runningTerminal := stored _
    _ = m.activeTerminal := by
      rw [Machine.occupy, Machine.register, if_pos (by exact unstarted)]
      rfl

theorem start_terminal_starts (image : Image) (tick : Tick) (s : System) (program : Program) (j : Slot)
    (found : findProgram image tick.exeData (firstWord shellCommand) = some program)
    (free : freeSlot s.machine.pcbState = some j) (unstarted : (s.machine.terminals s.nextTerm).terminalFlag = true) :
    let after := (startTerminal image tick s).machine
    after.runningTerminal = s.nextTerm ∧ (after.terminals s.nextTerm).terminalFlag = false ∧
      (after.terminals s.nextTerm).processes 0 = some j ∧ MapsProcess after.paging j ∧ OnKernelStack after.esp0 j := by
  let active := { s.machine.modifyPcb tick.pcb fun pcb => { pcb with kbp := none } with activeTerminal := s.nextTerm }
  rcases launch_cases image tick.exeData .displaySwitch (some tick.slot) tick.pcb shellCommand active with
    ⟨none | none, _⟩ | ⟨program', j', found', free', control, _, launched⟩
  · rw [found] at none
    cases none
  · rw [show active.pcbState = s.machine.pcbState from rfl, free] at none
    cases none
  · obtain rfl : j = j' := Option.some.inj (free.symm.trans free')
    have terminals := start_terminals .displaySwitch (some tick.slot) tick.pcb j
      (arguments shellCommand) program'.entryAddress
      active
    have running := start_running .displaySwitch (some tick.slot) tick.pcb j (arguments shellCommand) program'.entryAddress
      active unstarted
    have listed : (active.register j).terminals s.nextTerm =
        ⟨Function.update active.active.processes 0 (some j), false⟩ := by
      have flag : active.active.terminalFlag = true := unstarted
      rw [register_terminals, if_pos flag]
      exact Function.update_self _ _ _
    simp only [startTerminal]
    rw [launched]
    refine ⟨running, ?_, ?_, (maps_switched _ j j).mpr rfl, on_own_stack j⟩
    · rw [terminals, listed]
    · rw [terminals, listed]
      exact Function.update_self (0 : Nat) (some j) active.active.processes

structure Stuck (s : System) : Prop where
  full : ∀ p, s.machine.pcbState p = true
  unstarted : (s.machine.terminals s.next).terminalFlag = true

def KeepsFull (s : System) : SchedulerEvent → Prop
  | .tick _ => True
  | .elsewhere change => (change s).machine.pcbState = s.machine.pcbState ∧
      (∀ t, ((change s).machine.terminals t).terminalFlag = (s.machine.terminals t).terminalFlag) ∧
        (change s).machine.runningTerminal = s.machine.runningTerminal

theorem tick_stuck (compiled : Compiled) (image : Image) (tick : Tick) (s : System) (stuck : Stuck s) :
    Stuck (s.step compiled image (.tick tick)) ∧
      (s.step compiled image (.tick tick)).machine.runningTerminal = s.machine.runningTerminal := by
  rw [System.step, pitHandler]
  split
  · have refused := start_terminal_refused image tick { s with nextTerm := s.next } (Or.inr stuck.full)
    have taken : scheduler compiled image tick s = startTerminal image tick { s with nextTerm := s.next } := by
      refine if_neg fun started => ?_
      have lowered : (s.machine.terminals s.next).terminalFlag = false := started.2
      rw [stuck.unstarted] at lowered
      cases lowered
    rw [taken]
    refine ⟨⟨fun p => ?_, ?_⟩, refused.running⟩
    · rw [refused.pcbState]
      exact stuck.full p
    · have next : (startTerminal image tick { s with nextTerm := s.next }).next = s.next := congrArg termAfter refused.running
      rw [next, refused.terminals]
      exact stuck.unstarted
  · exact ⟨stuck, rfl⟩

-- While the table stays full, no tick moves the CPU past the terminal that
-- could not be started.
theorem refused_start_stays (compiled : Compiled) (image : Image) (s : System) (events : List SchedulerEvent)
    (stuck : Stuck s)
    (kept : Run.Guarded (System.step compiled image) KeepsFull s events) :
    Stuck (Run.final (System.step compiled image) s events) ∧
      (Run.final (System.step compiled image) s events).machine.runningTerminal = s.machine.runningTerminal := by
  refine Run.guarded_invariant (System.step compiled image) KeepsFull
    (fun state => Stuck state ∧ state.machine.runningTerminal = s.machine.runningTerminal) ?_ s events ⟨stuck, rfl⟩ kept
  rintro state event ⟨still, running⟩ admitted
  cases event with
  | tick tick =>
      obtain ⟨after, same⟩ := tick_stuck compiled image tick state still
      exact ⟨after, same.trans running⟩
  | elsewhere change =>
      obtain ⟨slots, flags, unmoved⟩ := admitted
      refine ⟨⟨fun p => ?_, ?_⟩, unmoved.trans running⟩
      · exact (congrFun slots p).trans (still.full p)
      · rw [System.step, System.next, flags, unmoved]
        exact still.unstarted

def lastSlot : Slot := Fin.last 5

def twoShells : System where
  machine :=
    { powerOn ⟨fun _ => 0, fun _ => 0, fun _ => 0⟩ ⟨FileSystem.directoryOpen, ⟨0, 0⟩⟩ with
      pcbs := fun p => { emptyPcb with pid := p }
      terminals := fun t => if t = Keyboard.terminal1 then ⟨fun i => if i = 0 then some firstSlot else none, false⟩
        else if t = Keyboard.terminal2 then ⟨fun i => if i = 0 then some lastSlot else none, false⟩
        else ⟨fun _ => none, true⟩
      control := .user firstSlot }
  display := ⟨Console.powerOn fun _ => 0, fun _ => 0, fun _ => 0, Keyboard.terminal1⟩
  nextTerm := Keyboard.terminal1
  saved := fun _ => ⟨0, 0⟩
  esp := 0
  ebp := 0

def crowdedShells : System :=
  { twoShells with machine := { twoShells.machine with pcbState := fun _ => true, runningTerminal := Keyboard.terminal2 } }

example : Stuck crowdedShells := ⟨fun _ => rfl, rfl⟩

def secondSlot : Slot := ⟨1, by decide⟩

def threeShells : System := { twoShells with
  machine := { twoShells.machine with
    terminals := fun t => if t = Keyboard.terminal1 then ⟨fun i => if i = 0 then some firstSlot else none, false⟩
      else if t = Keyboard.terminal2 then ⟨fun i => if i = 0 then some lastSlot else none, false⟩
      else ⟨fun i => if i = 0 then some secondSlot else none, false⟩ } }

def firstShellTick : Tick := ⟨firstSlot, 0x7FFF00, 0x7FFF20, fun _ => 0, fun _ => 0, by decide⟩

def obliging : Compiled := ⟨.ebx, .ecx, .ebx, .ecx, id⟩

def secondSlotTick : Tick := ⟨secondSlot, 0x7FDF00, 0x7FDF20, fun _ => 0, fun _ => 0, by decide⟩
def lastShellTick : Tick := ⟨lastSlot, 0x7F5F00, 0x7F5F20, fun _ => 0, fun _ => 0, by decide⟩

theorem scheduler_exact_three_shells :
    RoundRobin obliging (fun _ => 0) threeShells [lastShellTick, secondSlotTick, firstShellTick] := by
  have started : threeShells.allStarted := by
    change ∀ t : Fin 3, _
    decide +kernel
  refine (scheduler_exact obliging (fun _ => 0) threeShells []).2 _ started ⟨fun _ => ⟨?_, rfl, rfl⟩, fun _ => ⟨?_, rfl, rfl⟩,
    fun _ => ⟨?_, rfl, rfl⟩, trivial⟩ <;> decide +kernel

theorem tick_keeps_first_shell :
    let after := twoShells.step obliging (fun _ => 0) (.tick firstShellTick)
    twoShells.nextStarted ∧ after.machine.runningTerminal = 1 ∧ MapsProcess after.machine.paging firstSlot ∧
      foreground (twoShells.machine.terminals 1) = some lastSlot ∧ ¬ Given obliging (fun _ => 0) twoShells
        (.tick firstShellTick) := by
  intro after
  have started : twoShells.nextStarted := rfl
  have stays := context_switch_stays obliging firstShellTick { twoShells with nextTerm := twoShells.next }
  rw [← tick_started obliging (fun _ => 0) firstShellTick twoShells started] at stays
  have maps : MapsProcess after.machine.paging firstSlot := by
    rw [stays.paging, maps_switched]
    rfl
  refine ⟨started, stays.running, maps, rfl, fun given => ?_⟩
  have own := (gives_iff_own_turn obliging (fun _ => 0) firstShellTick twoShells started).mp (given started)
  have process := own.process
  change some lastSlot = some firstSlot at process
  exact absurd process (by decide)

end SimpleKernel.Process
