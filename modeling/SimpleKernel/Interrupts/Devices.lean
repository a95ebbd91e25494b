import SimpleKernel.Interrupts.Delivery
import SimpleKernel.Library.Handlers

set_option autoImplicit false

namespace SimpleKernel.Interrupts

open X86 (Word Gate Code Instr Cpu Setting Activity CameBack Interrupt Transparent Runs block)

-- The addresses that the linker gives to what interrupt.S names.
structure Symbols where
  isr : Handler → Word
  handleException : Word
  rtcHandler : Word
  keyboardHandler : Word
  pitHandler : Word
  sysCallTable : Word
  syscallError : Word
  syscallReturn : Word

def Exception.number (cause : Exception) : Word := cause.vector.setWidth 32

-- handle_exception: the switch with its calls of printf, then while(1).
def handleExceptionCode (symbols : Symbols) : Code := .part symbols.handleException .spin

-- The handlers for exceptions are one but for the vector, and for what two of
-- them save or drop besides.
def exceptionIsr (symbols : Symbols) : Exception → Code
  | .sigGp =>
      block [.pushal, .pushfl, .pushlImm (Exception.number .sigGp)]
        (.callTo symbols.handleException (handleExceptionCode symbols) (block [.addlEsp 4, .popfl, .popal] .iret))
  | .sigPf =>
      block [.pushal, .pushlImm (Exception.number .sigPf)]
        (.callTo symbols.handleException (handleExceptionCode symbols) (block [.addlEsp 4, .popal, .popl .eax] .iret))
  | cause =>
      block [.pushal, .pushlImm cause.number] (.callTo symbols.handleException (handleExceptionCode symbols)
        (block [.addlEsp 4, .popal] .iret))

def syscallReturn : Code := block [.popl .ebx, .popl .ecx, .popl .edx, .popl .esi, .popl .edi, .popl .ebp, .popfl] .iret

-- Falls through to syscall_return.
def syscallError : Code := .step (.movlImm (-1) .eax) syscallReturn

def Handler.code (symbols : Symbols) : Handler → Code
  | .exception cause => exceptionIsr symbols cause
  | .rtc => block [.pushal] (.call symbols.rtcHandler 0 (block [.popal] .iret))
  | .kbd => block [.cli, .pushal] (.call symbols.keyboardHandler 0 (block [.popal, .sti] .iret))
  | .pit => block [.cli, .pushal] (.call symbols.pitHandler 0 (block [.popal, .sti] .iret))
  | .idk =>
      block [.pushfl, .pushal, .pushlImm (sigIdk.setWidth 32)]
        (.callTo symbols.handleException (handleExceptionCode symbols) (block [.addlEsp 4, .popal, .popfl] .iret))
  | .syscall =>
      block [.pushfl, .pushl .ebp, .pushl .edi, .pushl .esi, .pushl .edx, .pushl .ecx, .pushl .ebx]
        (.step (.cmplImm 0 .eax) (.branch Flags.lessEqual symbols.syscallError syscallError
          (.step (.cmplImm 10 .eax) (.branch Flags.greater symbols.syscallError syscallError
            (.callTable symbols.sysCallTable .eax 3 (.jmp symbols.syscallReturn syscallReturn))))))

structure Installed {World : Type} (symbols : Symbols) (setting : Setting World) : Prop where
  idt : ∃ old, setting.idt = initIdt symbols.isr old
  text : ∀ handler : Handler, setting.text (symbols.isr handler) = some (handler.code symbols)

inductive Device where
  | rtc
  | kbd
  | pit
deriving DecidableEq, Repr

def Device.handler : Device → Handler
  | .rtc => .rtc
  | .kbd => .kbd
  | .pit => .pit

def Device.function (symbols : Symbols) : Device → Word
  | .rtc => symbols.rtcHandler
  | .kbd => symbols.keyboardHandler
  | .pit => symbols.pitHandler

def devices : List (BitVec 8) := [sigRtc, sigKbd, sigPit]

section Returning

variable {World : Type} (setting : Setting World) (intr : Cpu World → Cpu World → Prop) (transparent : Transparent intr)
  (symbols : Symbols)

def openedGate (handler : Handler) (s : Cpu World) : Cpu World := (gateOf symbols.isr handler).enter s

theorem level_kernel : ¬ X86.userLevel 0x10 := by decide

def flagged (value : Int) (s : Cpu World) : Cpu World :=
  { s with eflags := BitField.put X86.interruptFlag value s.eflags, eip := setting.next s.eip }

include transparent

theorem continues_cli (rest : Code) (s : Cpu World) (kernel : s.mode = .kernel) (level : ¬ X86.userLevel s.cs) :
    X86.Continues setting intr (block [.cli] rest) s rest (flagged setting 0 s) :=
  X86.continues_block setting intr transparent [.cli] rest s _ (X86.coherent_kernel s.context kernel level)
    (congrArg (Option.bind · _) (X86.exec_cli setting.top s kernel))

theorem continues_sti (rest : Code) (s : Cpu World) (kernel : s.mode = .kernel) (level : ¬ X86.userLevel s.cs) :
    X86.Continues setting intr (block [.sti] rest) s rest (flagged setting 1 s) :=
  X86.continues_block setting intr transparent [.sti] rest s _ (X86.coherent_kernel s.context kernel level)
    (congrArg (Option.bind · _) (X86.exec_sti setting.top s kernel))

section Function

variable (function : Word) (s : Cpu World) (coherent : s.context.Coherent) (handler : Handler)

include coherent

theorem saved_iret (t : Cpu World)
    (runs : Runs setting intr (block [.pushal] (.call function 0 (block [.popal] .iret))) (openedGate symbols handler s) t) :
    ∃ memory world, t = { s with memory := memory, world := world } := by
  obtain ⟨eflags, eip, memory, world, returns⟩ := X86.runs_saved setting intr transparent function .iret _ rfl level_kernel t
    runs
  have back := X86.runs_iret setting intr transparent s _ t coherent returns rfl level_kernel rfl
  exact ⟨memory, back⟩

theorem closed_iret (t : Cpu World)
    (runs : Runs setting intr (block [.cli, .pushal] (.call function 0 (block [.popal, .sti] .iret)))
      (openedGate symbols handler s) t) :
    ∃ memory world, t = { s with memory := memory, world := world } := by
  obtain ⟨before, saves⟩ := (continues_cli setting intr transparent _ (openedGate symbols handler s) rfl
    level_kernel).safe t runs
  obtain ⟨eflags, eip, memory, world, opens⟩ := X86.runs_saved setting intr transparent function (block [.sti] .iret) _ rfl
    level_kernel t saves
  obtain ⟨after, returns⟩ := (continues_sti setting intr transparent _ _ rfl level_kernel).safe t opens
  have back := X86.runs_iret setting intr transparent s _ t coherent returns rfl level_kernel rfl
  exact ⟨memory, back⟩

theorem iret_saved (last : Cpu World)
    (activity : Activity setting intr function (setting.saving function (openedGate symbols handler s)) last)
    (finished : setting.finished function last)
    (came : CameBack 0 (setting.saving function (openedGate symbols handler s)) last) :
    Runs setting intr (block [.pushal] (.call function 0 (block [.popal] .iret))) (openedGate symbols handler s)
      { s with memory := last.memory, world := last.world } :=
  X86.saved_completes setting intr transparent function .iret _ rfl level_kernel last _ activity finished came
    fun _ _ => X86.iret_runs setting intr s _ coherent rfl rfl

theorem iret_closed (last : Cpu World)
    (activity : Activity setting intr function
      (setting.saving function (flagged setting 0 (openedGate symbols handler s))) last)
    (finished : setting.finished function last)
    (came : CameBack 0 (setting.saving function (flagged setting 0 (openedGate symbols handler s))) last) :
    Runs setting intr (block [.cli, .pushal] (.call function 0 (block [.popal, .sti] .iret))) (openedGate symbols handler s)
      { s with memory := last.memory, world := last.world } := by
  refine (continues_cli setting intr transparent _ (openedGate symbols handler s) rfl level_kernel).live _ ?_
  refine X86.saved_completes setting intr transparent function (block [.sti] .iret) _ rfl level_kernel last _ activity
    finished
    came fun _ _ => ?_
  exact (continues_sti setting intr transparent _ _ rfl level_kernel).live _ (X86.iret_runs setting intr s _ coherent rfl rfl)

end Function

omit transparent

def Device.called (device : Device) (s : Cpu World) : Cpu World :=
  match device with
  | .rtc => setting.saving symbols.rtcHandler (openedGate symbols .rtc s)
  | .kbd => setting.saving symbols.keyboardHandler (flagged setting 0 (openedGate symbols .kbd s))
  | .pit => setting.saving symbols.pitHandler (flagged setting 0 (openedGate symbols .pit s))

include transparent

theorem device_safe (device : Device) (s t : Cpu World) (coherent : s.context.Coherent)
    (runs : Runs setting intr (device.handler.code symbols) (openedGate symbols device.handler s) t) :
    ∃ memory world, t = { s with memory := memory, world := world } := by
  cases device with
  | rtc => exact saved_iret setting intr transparent symbols _ s coherent .rtc t runs
  | kbd => exact closed_iret setting intr transparent symbols _ s coherent .kbd t runs
  | pit => exact closed_iret setting intr transparent symbols _ s coherent .pit t runs

theorem device_completes (device : Device) (s last : Cpu World) (coherent : s.context.Coherent)
    (activity : Activity setting intr (device.function symbols) (device.called setting symbols s) last)
    (finished : setting.finished (device.function symbols) last) (came : CameBack 0 (device.called setting symbols s) last) :
    Runs setting intr (device.handler.code symbols) (openedGate symbols device.handler s)
      { s with memory := last.memory, world := last.world } := by
  cases device with
  | rtc => exact iret_saved setting intr transparent symbols _ s coherent .rtc last activity finished came
  | kbd => exact iret_closed setting intr transparent symbols _ s coherent .kbd last activity finished came
  | pit => exact iret_closed setting intr transparent symbols _ s coherent .pit last activity finished came

end Returning

theorem gate_address (symbols : Symbols) (handler : Handler) :
    BitVec.ofNat 32 (gateOf symbols.isr handler).offset = symbols.isr handler :=
  (BitVec.ofNat_toNat ..).trans (BitVec.setWidth_eq _)

section Installed

variable {World : Type} (symbols : Symbols) (setting : Setting World) (installed : Installed symbols setting)

include installed

theorem gate_known (handler : Handler) : setting.gate handler.vector = gateOf symbols.isr handler := by
  obtain ⟨old, table⟩ := installed.idt
  rw [Setting.gate, table]
  exact init_idt_known symbols.isr old handler

theorem handler_placed (handler : Handler) : setting.handler handler.vector = some (handler.code symbols) := by
  rw [Setting.handler, gate_known symbols setting installed handler, gate_address]
  exact installed.text handler

-- Who is interrupted goes on with all that it had: the induction is on how many
-- handlers lie on top of each other.
theorem devices_transparent (depth : Nat) : Transparent (Interrupt setting devices depth) := by
  induction depth with
  | zero => exact fun s t _ never => False.elim never
  | succ depth ih =>
      rintro s t coherent ⟨vector, member, code, _, placed, runs, memory⟩
      have known : ∃ device : Device, device.handler.vector = vector := by
        simp only [devices, List.mem_cons, List.not_mem_nil, or_false] at member
        rcases member with rfl | rfl | rfl
        · exact ⟨.rtc, rfl⟩
        · exact ⟨.kbd, rfl⟩
        · exact ⟨.pit, rfl⟩
      obtain ⟨device, rfl⟩ := known
      rw [handler_placed symbols setting installed device.handler] at placed
      cases placed
      rw [gate_known symbols setting installed device.handler] at runs
      obtain ⟨after, world, rfl⟩ := device_safe setting _ ih symbols device s t coherent runs
      change after = s.memory at memory
      exact ⟨world, by rw [memory]⟩

theorem device_interrupts (depth : Nat) (s : Cpu World) (coherent : s.context.Coherent) :
    (∀ t, Interrupt setting devices depth s t → ∃ world, t = { s with world := world }) ∧
      ∀ device : Device, ∀ last,
        Activity setting (Interrupt setting devices depth) (device.function symbols) (device.called setting symbols s) last →
          setting.finished (device.function symbols) last → CameBack 0 (device.called setting symbols s) last →
            last.memory = s.memory → Interrupt setting devices (depth + 1) s { s with world := last.world } := by
  have transparent := devices_transparent symbols setting installed
  refine ⟨fun t arrives => transparent depth s t coherent arrives, fun device last activity finished came memory => ?_⟩
  refine ⟨device.handler.vector, ?_, _, ?_, handler_placed symbols setting installed device.handler, ?_, rfl⟩
  · cases device <;> decide
  · rw [gate_known symbols setting installed]
    exact gate_of_valid symbols.isr device.handler
  · rw [gate_known symbols setting installed, ← memory]
    exact device_completes setting _ (transparent depth) symbols device s last coherent activity finished came

end Installed

def handlers : List Handler := exceptions.map Handler.exception ++ [.kbd, .rtc, .pit, .syscall, .idk]

def somewhere : Symbols where
  isr handler := 0x400000 + handler.vector.setWidth 32
  handleException := 0x401000
  rtcHandler := 0x402000
  keyboardHandler := 0x403000
  pitHandler := 0x404000
  sysCallTable := 0x405000
  syscallError := 0x406000
  syscallReturn := 0x407000

def placedAt (address : Word) : Option Code :=
  (handlers.find? fun handler => somewhere.isr handler = address).map fun handler => handler.code somewhere

theorem placed_at_isr (handler : Handler) : placedAt (somewhere.isr handler) = some (handler.code somewhere) := by
  cases handler with
  | exception cause => cases cause <;> rfl
  | _ => rfl

-- Its compiled functions, and the words of its table, are left open.
def placedKernel {World : Type} (kernel : Word → Word) (own : Word → Cpu World → Cpu World → Prop)
    (finished : Word → Cpu World → Prop) : Setting World where
  top := 0x7FFFFC
  next address := address + 1
  text := placedAt
  kernel := kernel
  idt := initIdt somewhere.isr fun _ => 0
  own := own
  finished := finished

theorem placed_installed {World : Type} (kernel : Word → Word) (own : Word → Cpu World → Cpu World → Prop)
    (finished : Word → Cpu World → Prop) : Installed somewhere (placedKernel kernel own finished) :=
  ⟨⟨_, rfl⟩, placed_at_isr⟩

-- The devices' functions take the steps of their handlers over the two 8259s,
-- the encoder and the clock.
def boardKernel : Setting System :=
  placedKernel (fun _ => 0)
    (fun function s t => (∃ device : Device, function = device.function somewhere) ∧
      (∃ action rest, s.world.doing = some (action :: rest)) ∧
        t = { s with gpr := Function.update s.gpr .eax 0, world := s.world.step .work })
    fun _ s => s.world.doing = some []

def keyPressed : System := Run.final System.step (boot powerOnChips 0 false) [.key 0x1E, .flags true, .accept]

def program {World : Type} (world : World) : Cpu World :=
  ⟨fun _ => 7, 0x202, 0x8048000, 0x23, .user 0x83FFFFC 0x2B, [], fun _ => 2, world⟩

theorem program_level : X86.userLevel 0x23 := by decide

theorem program_coherent {World : Type} (world : World) : (program world).context.Coherent :=
  X86.coherent_user _ _ _ rfl program_level rfl

def keyServed : System := (keyPressed.step .work).step .work

theorem device_interrupts_key :
    Interrupt boardKernel devices 1 (program keyPressed) (program keyServed) ∧ keyServed.reads = [0x1E] ∧
      ∀ t, Interrupt boardKernel devices 1 (program keyPressed) t → ∃ world, t = program world := by
  have asked : keyPressed.doing = some [.readEncoder] := by decide +kernel
  have read : (keyPressed.step .work).doing = some [.eoi 1] := by decide +kernel
  have done : keyServed.doing = some [] := by decide +kernel
  refine ⟨?_, by decide +kernel,
    (device_interrupts somewhere boardKernel (placed_installed _ _ _) 1 (program keyPressed) (program_coherent keyPressed)).1⟩
  let called := Device.called boardKernel somewhere .kbd (program keyPressed)
  let last : Cpu System := { called with gpr := Function.update called.gpr .eax 0, world := keyServed }
  have steps : Activity boardKernel (Interrupt boardKernel devices 0) somewhere.keyboardHandler called last := by
    refine X86.Activity.own _ _ _ ⟨⟨.kbd, rfl⟩, ⟨_, _, asked⟩, rfl⟩
      (X86.Activity.own _ _ _ ⟨⟨.kbd, rfl⟩, ⟨_, _, read⟩, rfl⟩ ?_)
    rw [Function.update_idem]
    exact X86.Activity.refl _
  exact (device_interrupts somewhere boardKernel (placed_installed _ _ _) 0 (program keyPressed)
    (program_coherent keyPressed)).2 .kbd last steps done (X86.came_back_same 0 called last rfl rfl rfl) rfl

end SimpleKernel.Interrupts
