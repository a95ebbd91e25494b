import SimpleKernel.Interrupts.Devices
import SimpleKernel.Files.Table
import SimpleKernel.SystemCalls

set_option autoImplicit false

namespace SimpleKernel.Interrupts

open SystemCalls (LibraryCall KernelFunction)
open X86 (Word Register Code Cpu Setting Activity CameBack Interrupt Transparent Runs block Continues)

def doCall (call : LibraryCall) : Code :=
  block [.pushl .ebx, .movlImm call.number .eax, .movlStack 8 .ebx, .movlStack 12 .ecx, .movlStack 16 .edx]
    (.int sigSyscall (block [.popl .ebx] .ret))

section Kernel

variable {World : Type} (setting : Setting World) (intr : Cpu World → Cpu World → Prop) (transparent : Transparent intr)
  (symbols : Symbols)

def syscallWords (s : Cpu World) : List Word :=
  [s.gpr .ebx, s.gpr .ecx, s.gpr .edx, s.gpr .esi, s.gpr .edi, s.gpr .ebp, s.eflags]

def Passes (eax : Word) : Prop :=
  Flags.lessEqual (Flags.compare eax 0) = false ∧ Flags.greater (Flags.compare eax 10) = false

def compared (value : Word) (s : Cpu World) : Cpu World :=
  let a := s.gpr .eax
  { s with
    eflags := X86.arithmetic (Flags.compare a value) a value (a - value) s.eflags
    eip := setting.next (setting.next s.eip) }

include transparent

theorem continues_compared (value : Word) (condition : Flags.Status → Bool) (label : Word) (taken rest : Code) (s : Cpu World)
    (coherent : s.context.Coherent) (fails : condition (Flags.compare (s.gpr .eax) value) = false) :
    Continues setting intr (block [.cmplImm value .eax] (.branch condition label taken rest)) s rest
      (compared setting value s) := by
  have first (world : World) := X86.continues_block setting intr transparent [.cmplImm value .eax]
    (.branch condition label taken rest) { s with world := world } _ coherent rfl
  refine X86.continues_trans setting intr _ _ rest s _ _ (first s.world) (fun world => ?_) rfl
  exact X86.continues_passed setting intr transparent condition label taken rest _ (by exact coherent)
    ((congrArg condition (X86.status_arithmetic ..)).trans fails)

theorem syscall_reaches (s : Cpu World) (kernel : s.mode = .kernel) (level : ¬ X86.userLevel s.cs)
    (passes : Passes (s.gpr .eax)) :
    ∃ eip eflags, Continues setting intr (Handler.code symbols .syscall) s
      (.callTable symbols.sysCallTable .eax 3 (.jmp symbols.syscallReturn syscallReturn))
      { s with stack := syscallWords s ++ s.stack, eip := eip, eflags := eflags } := by
  let next := setting.next
  let saved : Cpu World := { s with
    stack := syscallWords s ++ s.stack, eip := next (next (next (next (next (next (next s.eip)))))) }
  have stored : X86.execAll setting [.pushfl, .pushl .ebp, .pushl .edi, .pushl .esi, .pushl .edx, .pushl .ecx,
    .pushl .ebx] s =
      some saved := by
    cases s
    change _ = X86.Mode.kernel at kernel
    subst kernel
    rfl
  have pushes := X86.continues_block setting intr transparent _ (block [.cmplImm 0 .eax] (.branch Flags.lessEqual
    symbols.syscallError syscallError (block [.cmplImm 10 .eax] (.branch Flags.greater symbols.syscallError syscallError
      (.callTable symbols.sysCallTable .eax 3 (.jmp symbols.syscallReturn syscallReturn)))))) s saved
    (X86.coherent_kernel s.context kernel level) stored
  have coherent : saved.context.Coherent := X86.coherent_kernel saved.context kernel level
  refine ⟨_, _, X86.continues_trans setting intr _ _ _ s saved (compared setting 10 (compared setting 0 saved)) pushes
    (fun world => ?_) rfl⟩
  refine X86.continues_trans setting intr _ _ _ _ _ _ (continues_compared setting intr transparent 0 Flags.lessEqual
    symbols.syscallError syscallError _ { saved with world := world } coherent passes.1) (fun world => ?_) rfl
  exact continues_compared setting intr transparent 10 Flags.greater symbols.syscallError syscallError _
    { compared setting 0 saved with world := world } coherent passes.2

def restored (gpr : Register → Word) (args saved : List Word) : Register → Word
  | .eax => gpr .eax
  | .ebx => args.getD 0 0
  | .ecx => args.getD 1 0
  | .edx => args.getD 2 0
  | .esi => saved.getD 0 0
  | .edi => saved.getD 1 0
  | .ebp => saved.getD 2 0

-- syscall_return; the parameters are in whatever state the function left them.
theorem continues_return (s : Cpu World) (kernel : s.mode = .kernel) (level : ¬ X86.userLevel s.cs) (args : List Word)
    (esi edi ebp eflags : Word) (above : List Word) (three : args.length = 3)
    (stack : s.stack = args ++ esi :: edi :: ebp :: eflags :: above) :
    ∃ eip, Continues setting intr (.jmp symbols.syscallReturn syscallReturn) s .iret
      { s with gpr := restored s.gpr args [esi, edi, ebp], stack := above, eip := eip, eflags := eflags } := by
  obtain ⟨a, b, c, rfl⟩ := List.length_eq_three.mp three
  have jumps := X86.continues_jmp setting intr transparent symbols.syscallReturn syscallReturn s
    (X86.coherent_kernel s.context kernel level)
  have popped (world : World) : X86.execAll setting
      [.popl .ebx, .popl .ecx, .popl .edx, .popl .esi, .popl .edi, .popl .ebp, .popfl]
      { s with eip := symbols.syscallReturn, world := world } =
        some { s with
          gpr := restored s.gpr [a, b, c] [esi, edi, ebp]
          stack := above
          eip := (setting.next^[7]) symbols.syscallReturn
          eflags := eflags
          world := world } := by
    cases s
    change _ = X86.Mode.kernel at kernel
    subst kernel
    change _ = [a, b, c] ++ esi :: edi :: ebp :: eflags :: above at stack
    subst stack
    simp only [X86.execAll, X86.exec, Cpu.pop, Cpu.set, Option.map_some, Option.bind_some, List.cons_append, List.nil_append]
    congr 2
    funext register
    cases register <;> rfl
  refine ⟨(setting.next^[7]) symbols.syscallReturn, X86.continues_trans setting intr _ _ _ s _ _ jumps (fun world => ?_) rfl⟩
  exact X86.continues_block setting intr transparent _ .iret _ _ (X86.coherent_kernel s.context kernel level) (popped world)

structure Entered (function : Word) (s entering : Cpu World) : Prop where
  eip : entering.eip = function
  mode : entering.mode = .kernel
  gpr : entering.gpr = s.gpr
  args : ∃ address above, entering.stack = address :: s.gpr .ebx :: s.gpr .ecx :: s.gpr .edx :: above
  memory : entering.memory = s.memory

structure Served (s last t : Cpu World) : Prop where
  eax : t.gpr .eax = last.gpr .eax
  kept : ∀ register ∈ [Register.esi, .edi, .ebp], t.gpr register = s.gpr register
  same : t = { s with gpr := t.gpr, memory := last.memory, world := t.world }

variable (function : Word) (s : Cpu World) (coherent : s.context.Coherent)
  (passes : Passes (s.gpr .eax)) (target : setting.kernel (symbols.sysCallTable + s.gpr .eax * 4) = function)

def syscallCalls (eip eflags : Word) (world : World) : Cpu World :=
  { openedGate symbols .syscall s with
    stack := syscallWords (openedGate symbols .syscall s) ++ X86.frame s
    eip := eip
    eflags := eflags
    world := world }

omit transparent in
theorem syscall_entered (eip eflags : Word) (world : World) :
    Entered function s ((syscallCalls symbols s eip eflags world).entering function (setting.next eip)) :=
  ⟨rfl, rfl, rfl, ⟨_, _, rfl⟩, rfl⟩

include coherent passes target

theorem syscall_safe (t : Cpu World)
    (runs : Runs setting intr (Handler.code symbols .syscall) (openedGate symbols .syscall s) t) :
    ∃ entering last, Entered function s entering ∧ Activity setting intr function entering last ∧
      setting.finished function last ∧ Served s last t := by
  obtain ⟨eip, eflags, reaches⟩ := syscall_reaches setting intr transparent symbols (openedGate symbols .syscall s) rfl
    level_kernel passes
  obtain ⟨before, calls⟩ := reaches.safe t runs
  obtain ⟨world, back, returns, later⟩ := X86.runs_goes setting intr transparent _
    (syscallCalls symbols s eip eflags before) t
    (X86.coherent_kernel _ rfl level_kernel) calls
  obtain ⟨last, args, three, activity, finished, rfl⟩ := X86.returns_called setting intr
    (setting.kernel (symbols.sysCallTable + s.gpr .eax * 4)) [s.gpr .ebx, s.gpr .ecx, s.gpr .edx] _
    (syscallCalls symbols s eip eflags world) rfl rfl back returns
  rw [target] at activity finished
  let back : Cpu World := { last with
    mode := .kernel
    cs := 0x10
    eip := setting.next eip
    stack := args ++ s.gpr .esi :: s.gpr .edi :: s.gpr .ebp :: (openedGate symbols .syscall s).eflags :: X86.frame s }
  obtain ⟨_, ends⟩ := continues_return setting intr transparent symbols back rfl level_kernel args _ _ _ _ _ three rfl
  obtain ⟨after, irets⟩ := ends.safe t later
  have same := X86.runs_iret setting intr transparent s _ t coherent irets rfl level_kernel rfl
  obtain ⟨final, rfl⟩ := same
  refine ⟨_, last, syscall_entered setting symbols function s eip eflags world, activity, finished, rfl, ?_, rfl⟩
  intro register member
  simp only [List.mem_cons, List.not_mem_nil, or_false] at member
  rcases member with rfl | rfl | rfl <;> rfl

theorem syscall_live :
    ∃ entering, Entered function s entering ∧ entering.world = s.world ∧
      ∀ last, Activity setting intr function entering last → setting.finished function last → CameBack 3 entering last →
        ∃ t, Served s last t ∧ t.world = last.world ∧
          Runs setting intr (Handler.code symbols .syscall) (openedGate symbols .syscall s) t := by
  obtain ⟨eip, eflags, reaches⟩ := syscall_reaches setting intr transparent symbols (openedGate symbols .syscall s) rfl
    level_kernel passes
  refine ⟨_, syscall_entered setting symbols function s eip eflags s.world, rfl,
    fun last activity finished came => ?_⟩
  obtain ⟨args, three, returns⟩ := X86.called_returns setting intr function [s.gpr .ebx, s.gpr .ecx, s.gpr .edx] _
    (syscallCalls symbols s eip eflags s.world) rfl rfl last activity finished came
  let back : Cpu World := { last with
    mode := .kernel
    cs := 0x10
    eip := setting.next eip
    stack := args ++ s.gpr .esi :: s.gpr .edi :: s.gpr .ebp :: (openedGate symbols .syscall s).eflags :: X86.frame s }
  obtain ⟨eip', ends⟩ := continues_return setting intr transparent symbols back rfl level_kernel args _ _ _ _ _ three rfl
  let before : Cpu World := { back with
    gpr := restored last.gpr args [s.gpr .esi, s.gpr .edi, s.gpr .ebp]
    stack := X86.frame s
    eip := eip'
    eflags := (openedGate symbols .syscall s).eflags }
  have irets := X86.iret_runs setting intr s before coherent rfl rfl
  refine ⟨{ s with gpr := before.gpr, memory := last.memory, world := last.world }, ⟨rfl, ?_, rfl⟩, rfl, reaches.live _ ?_⟩
  · intro register member
    simp only [List.mem_cons, List.not_mem_nil, or_false] at member
    rcases member with rfl | rfl | rfl <;> rfl
  · rw [← target] at returns
    exact Runs.callTable _ _ _ _ _ back _ returns (ends.live _ irets)

end Kernel

section Program

variable {World : Type} (setting : Setting World) (intr : Cpu World → Cpu World → Prop) (transparent : Transparent intr)
  (symbols : Symbols) (installed : Installed symbols setting)

def prepared (call : LibraryCall) (esp ss : Word) (s : Cpu World) : Cpu World :=
  { s with
    memory := Function.update s.memory (esp - 4) (s.gpr .ebx)
    mode := .user (esp - 4) ss
    eip := (setting.next^[5]) s.eip
    gpr := fun
      | .eax => call.number
      | .ebx => s.memory (esp + 4)
      | .ecx => s.memory (esp + 8)
      | .edx => s.memory (esp + 12)
      | register => s.gpr register }

theorem prepares (call : LibraryCall) (esp ss : Word) (s : Cpu World) (user : s.mode = .user esp ss) :
    X86.execAll setting
      [.pushl .ebx, .movlImm call.number .eax, .movlStack 8 .ebx, .movlStack 12 .ecx, .movlStack 16 .edx] s =
        some (prepared setting call esp ss s) := by
  have first : esp - 4 + 8 = esp + 4 := by bv_omega
  have second : esp - 4 + 12 = esp + 8 := by bv_omega
  have third : esp - 4 + 16 = esp + 12 := by bv_omega
  have apart : esp + 4 ≠ esp - 4 ∧ esp + 8 ≠ esp - 4 ∧ esp + 12 ≠ esp - 4 := by
    refine ⟨?_, ?_, ?_⟩ <;> bv_omega
  have args : Function.update s.memory (esp - 4) (s.gpr .ebx) (esp - 4 + 8) = s.memory (esp + 4) ∧
      Function.update s.memory (esp - 4) (s.gpr .ebx) (esp - 4 + 12) = s.memory (esp + 8) ∧
        Function.update s.memory (esp - 4) (s.gpr .ebx) (esp - 4 + 16) = s.memory (esp + 12) := by
    rw [first, second, third]
    exact ⟨Function.update_of_ne apart.1 _ _, Function.update_of_ne apart.2.1 _ _, Function.update_of_ne apart.2.2 _ _⟩
  cases s
  change _ = X86.Mode.user esp ss at user
  subst user
  simp only [X86.execAll, X86.exec, Cpu.push, Cpu.load, Cpu.set, Option.map_some, Option.bind_some, prepared]
  congr 2
  funext register
  cases register with
  | ebx => exact args.1
  | ecx => exact args.2.1
  | edx => exact args.2.2
  | _ => rfl

structure LibraryEntered (function esp : Word) (s entering : Cpu World) : Prop where
  eip : entering.eip = function
  mode : entering.mode = .kernel
  args : ∃ address above,
    entering.stack = address :: s.memory (esp + 4) :: s.memory (esp + 8) :: s.memory (esp + 12) :: above
  memory : entering.memory = Function.update s.memory (esp - 4) (s.gpr .ebx)

structure LibraryReturned (esp ss : Word) (s last t : Cpu World) : Prop where
  value : t.gpr .eax = last.gpr .eax
  kept : ∀ register ∈ [Register.esi, .edi, .ebp], t.gpr register = s.gpr register
  ebx : t.gpr .ebx = last.memory (esp - 4)
  same : t = { s with
    gpr := t.gpr
    eip := last.memory esp
    mode := .user (esp + 4) ss
    memory := last.memory
    world := t.world }

section Wrapper

variable (call : LibraryCall) (esp ss : Word) (s : Cpu World) (user : s.mode = .user esp ss) (level : X86.userLevel s.cs)
  (empty : s.stack = [])

def trapped (world : World) : Cpu World :=
  { prepared setting call esp ss s with eip := (setting.next^[6]) s.eip, world := world }

include level empty

theorem trapped_coherent (world : World) : (trapped setting call esp ss s world).context.Coherent :=
  ⟨fun _ _ _ => ⟨level, empty⟩, fun kernel => by cases kernel⟩

omit level empty in
include installed in
theorem trap_opens (world : World) :
    setting.trap sigSyscall { prepared setting call esp ss s with world := world } =
      some (sigSyscall, openedGate symbols .syscall (trapped setting call esp ss s world)) := by
  have gate : setting.gate sigSyscall = gateOf symbols.isr .syscall := gate_known symbols setting installed .syscall
  have allowed : ¬ (X86.userLevel (prepared setting call esp ss s).cs ∧ (setting.gate sigSyscall).dpl ≠ 3) := by
    rw [gate]
    exact fun refused => refused.2 rfl
  have valid : (setting.gate sigSyscall).Valid := gate ▸ gate_of_valid symbols.isr .syscall
  rw [Setting.trap, if_neg allowed, if_pos valid, gate]
  rfl

omit level empty in
def unwound (gpr : Register → Word) (memory : Word → Word) (world : World) : Cpu World :=
  { s with
    gpr := Function.update gpr .ebx (memory (esp - 4))
    eip := setting.next ((setting.next^[6]) s.eip)
    mode := .user esp ss
    memory := memory
    world := world }

include transparent

theorem continues_popl (gpr : Register → Word) (memory : Word → Word) (world : World) :
    Continues setting intr (block [.popl .ebx] .ret)
      { trapped setting call esp ss s world with gpr := gpr, memory := memory } .ret
      (unwound setting esp ss s gpr memory world) := by
  have back : esp - 4 + 4 = esp := BitVec.sub_add_cancel esp 4
  refine X86.continues_block setting intr transparent [.popl .ebx] .ret
    { trapped setting call esp ss s world with gpr := gpr, memory := memory } _
    (X86.coherent_user _ (esp - 4) ss rfl level empty) ?_
  simp only [X86.execAll, X86.exec, Cpu.pop, trapped, prepared, Cpu.set, Option.map_some, Option.bind_some, back, unwound]

theorem wrapper_ends (gpr : Register → Word) (memory : Word → Word) (world : World) (t : Cpu World)
    (runs : Runs setting intr (block [.popl .ebx] .ret)
      { trapped setting call esp ss s world with gpr := gpr, memory := memory } t) :
    ∃ after, t = { s with
      gpr := Function.update gpr .ebx (memory (esp - 4))
      eip := memory esp
      mode := .user (esp + 4) ss
      memory := memory
      world := after } := by
  obtain ⟨between, returns⟩ :=
    (continues_popl setting intr transparent call esp ss s level empty gpr memory world).safe t runs
  obtain ⟨after, address, u, popped, rfl⟩ := X86.runs_goes setting intr transparent .ret
    (unwound setting esp ss s gpr memory between) t (X86.coherent_user _ esp ss rfl level empty) returns
  cases popped
  exact ⟨after, rfl⟩

theorem wrapper_returns (gpr : Register → Word) (memory : Word → Word) (world : World) :
    Runs setting intr (block [.popl .ebx] .ret) { trapped setting call esp ss s world with gpr := gpr, memory := memory }
      { s with
        gpr := Function.update gpr .ebx (memory (esp - 4))
        eip := memory esp
        mode := .user (esp + 4) ss
        memory := memory
        world := world } :=
  (continues_popl setting intr transparent call esp ss s level empty gpr memory world).live _
    (Runs.ret (unwound setting esp ss s gpr memory world) _ (memory esp) rfl)

end Wrapper

end Program

structure Kernel {World : Type} (image : SystemCalls.Image) (symbols : Symbols) (setting : Setting World) : Prop extends
    Installed symbols setting where
  table : symbols.sysCallTable = image.table
  words : setting.kernel = image.word

theorem number_passes (call : LibraryCall) : Passes call.number := by
  cases call <;> exact ⟨by decide, by decide⟩

theorem table_word (image : SystemCalls.Image) (call : LibraryCall) (function : KernelFunction)
    (known : call.kernelFunction = some function) : image.word (image.table + call.number * 4) = image.address function := by
  obtain ⟨k, low, high, number, entry⟩ := SystemCalls.denotes_number call.number function ⟨call, rfl, known⟩
  have scaled : call.number * 4 = BitVec.ofNat 32 (4 * k) := by
    rw [number, Nat.mul_comm, BitVec.ofNat_mul]
    rfl
  have word := SystemCalls.word_entry image k (Nat.lt_succ_of_le high)
  rw [entry] at word
  rw [scaled]
  exact word

section Calls

variable {World : Type} (image : SystemCalls.Image) (symbols : Symbols) (setting : Setting World)
  (kernel : Kernel image symbols setting) (depth : Nat) (call : LibraryCall) (function : KernelFunction)
  (known : call.kernelFunction = some function) (esp ss : Word) (s : Cpu World) (user : s.mode = .user esp ss)
  (level : X86.userLevel s.cs) (empty : s.stack = [])

include kernel

theorem kernel_transparent : Transparent (Interrupt setting devices depth) :=
  devices_transparent symbols setting kernel.toInstalled depth

include known in
theorem kernel_target : setting.kernel (symbols.sysCallTable + call.number * 4) = image.address function := by
  rw [kernel.words, kernel.table]
  exact table_word image call function known

include user level empty in
theorem continues_prepared : Continues setting (Interrupt setting devices depth) (doCall call) s
    (.int sigSyscall (block [.popl .ebx] .ret)) (prepared setting call esp ss s) :=
  X86.continues_block setting _ (kernel_transparent image symbols setting kernel depth) _ _ s _
    (X86.coherent_user s.context esp ss user level empty) (prepares setting call esp ss s user)

include known user level empty

theorem library_safe (t : Cpu World) (runs : Runs setting (Interrupt setting devices depth) (doCall call) s t) :
    ∃ entering last, LibraryEntered (image.address function) esp s entering ∧
      Activity setting (Interrupt setting devices depth) (image.address function) entering last ∧
        setting.finished (image.address function) last ∧ LibraryReturned esp ss s last t := by
  have transparent := kernel_transparent image symbols setting kernel depth
  obtain ⟨first, traps⟩ := (continues_prepared image symbols setting kernel depth call esp ss s user level empty).safe t runs
  obtain ⟨world, taken, code, inside, u, opens, placed, handled, _, later⟩ := X86.runs_goes setting _ transparent _
    { prepared setting call esp ss s with world := first } t (X86.coherent_user _ (esp - 4) ss rfl level empty) traps
  have opened := trap_opens setting symbols kernel.toInstalled call esp ss s world
  cases opens.symm.trans opened
  cases placed.symm.trans (handler_placed symbols setting kernel.toInstalled .syscall)
  obtain ⟨entering, last, entered, activity, finished, served⟩ := syscall_safe setting _ transparent symbols
    (image.address function) (trapped setting call esp ss s world)
    (trapped_coherent setting call esp ss s level empty world) (number_passes call)
    (kernel_target image symbols setting kernel call function known) u handled
  rw [served.same] at later
  obtain ⟨after, rfl⟩ := wrapper_ends setting _ transparent call esp ss s level empty u.gpr last.memory u.world t later
  refine ⟨entering, last, ⟨entered.eip, entered.mode, entered.args, entered.memory⟩, activity, finished, ?_, ?_, rfl, rfl⟩
  · exact served.eax
  · intro register member
    have kept := served.kept register member
    simp only [List.mem_cons, List.not_mem_nil, or_false] at member
    rcases member with rfl | rfl | rfl <;> exact kept

theorem library_live :
    ∃ entering, LibraryEntered (image.address function) esp s entering ∧ entering.world = s.world ∧
      ∀ last, Activity setting (Interrupt setting devices depth) (image.address function) entering last →
        setting.finished (image.address function) last → CameBack 3 entering last →
          ∃ t, LibraryReturned esp ss s last t ∧ t.world = last.world ∧
            Runs setting (Interrupt setting devices depth) (doCall call) s t := by
  have transparent := kernel_transparent image symbols setting kernel depth
  obtain ⟨entering, entered, same, lives⟩ := syscall_live setting _ transparent symbols
    (image.address function) (trapped setting call esp ss s s.world)
    (trapped_coherent setting call esp ss s level empty s.world) (number_passes call)
    (kernel_target image symbols setting kernel call function known)
  refine ⟨entering, ⟨entered.eip, entered.mode, entered.args, entered.memory⟩, same,
    fun last activity finished came => ?_⟩
  obtain ⟨u, served, world, handled⟩ := lives last activity finished came
  have returns := wrapper_returns setting _ transparent call esp ss s level empty u.gpr last.memory u.world
  let back : Cpu World := { s with
    gpr := Function.update u.gpr .ebx (last.memory (esp - 4))
    eip := last.memory esp
    mode := .user (esp + 4) ss
    memory := last.memory
    world := u.world }
  refine ⟨back, ⟨?_, ?_, rfl, rfl⟩, world, (continues_prepared image symbols setting kernel depth call esp ss s user level
    empty).live _ (Runs.int _ _ _ _ _ _ u _ (trap_opens setting symbols kernel.toInstalled call esp ss s s.world)
      (handler_placed symbols setting kernel.toInstalled .syscall) handled ?_ ?_)⟩
  · exact served.eax
  · intro register member
    have kept := served.kept register member
    simp only [List.mem_cons, List.not_mem_nil, or_false] at member
    rcases member with rfl | rfl | rfl <;> exact kept
  · rw [served.same]
    rfl
  · rw [served.same]
    exact returns

-- A call of the library, with any interrupts in between: the kernel's function
-- runs on the caller's words. Once it has come back, so has the call, with its
-- result, esi, edi and ebp as they were, and ebx and the return address from the
-- caller's stack as the function has left it.
theorem library_calls :
    (∀ t, Runs setting (Interrupt setting devices depth) (doCall call) s t →
      ∃ entering last, LibraryEntered (image.address function) esp s entering ∧
        Activity setting (Interrupt setting devices depth) (image.address function) entering last ∧
          setting.finished (image.address function) last ∧ LibraryReturned esp ss s last t) ∧
      ∃ entering, LibraryEntered (image.address function) esp s entering ∧ entering.world = s.world ∧
        ∀ last, Activity setting (Interrupt setting devices depth) (image.address function) entering last →
          setting.finished (image.address function) last → CameBack 3 entering last →
            ∃ t, LibraryReturned esp ss s last t ∧ t.world = last.world ∧
              Runs setting (Interrupt setting devices depth) (doCall call) s t :=
  ⟨library_safe image symbols setting kernel depth call function known esp ss s user level empty,
    library_live image symbols setting kernel depth call function known esp ss s user level empty⟩

end Calls

def someImage : SystemCalls.Image where
  table := somewhere.sysCallTable
  address function := 0x500000 + 0x1000 * BitVec.ofNat 32 (SystemCalls.sysCallTable.idxOf (some function))
  elsewhere := fun _ => 0

-- A kernel whose close is the file system's, with the word that it is passed; the
-- flag says that it has come to its return.
def closingKernel : Setting (Files.State × Bool) :=
  placedKernel someImage.word
    (fun function s t => function = someImage.address .close ∧ s.world.2 = false ∧ ∃ address fd above,
      s.stack = address :: fd :: above ∧
        t = { s with
          gpr := Function.update s.gpr .eax (BitVec.ofInt 32 (Files.sysClose fd.toInt s.world.1).1)
          world := ((Files.sysClose fd.toInt s.world.1).2, true) })
    fun _ s => s.world.2 = true

theorem closing_kernel : Kernel someImage somewhere closingKernel := ⟨placed_installed _ _ _, rfl, rfl⟩

def openedClock : Files.State where
  fds := fun i => if i ≤ 2 then ⟨some .rtc, 0, 0, 1⟩ else ⟨none, 0, 0, 0⟩
  devices := ⟨FileSystem.directoryOpen, ⟨0, 0⟩⟩

theorem library_calls_close :
    ∃ t, Runs closingKernel (Interrupt closingKernel devices 1) (doCall .close) (program (openedClock, false)) t ∧
      t.gpr .eax = 0 ∧ t.gpr .ebx = 7 ∧ t.mode = .user 0x8400000 0x2B ∧ Files.Unused t.world.1.fds 2 := by
  obtain ⟨_, entering, entered, world, lives⟩ := library_calls someImage somewhere closingKernel closing_kernel 1
    .close .close rfl
    0x83FFFFC 0x2B (program (openedClock, false)) rfl program_level rfl
  obtain ⟨address, above, stack⟩ := entered.args
  let closed := Files.sysClose 2 openedClock
  let last := { entering with gpr := Function.update entering.gpr .eax (BitVec.ofInt 32 closed.1), world := (closed.2, true) }
  have step : closingKernel.own (someImage.address .close) entering last := by
    refine ⟨rfl, congrArg Prod.snd world, address, _, _, stack, ?_⟩
    rw [world]
    rfl
  obtain ⟨t, returned, after, runs⟩ := lives last (Activity.own _ _ _ step (Activity.refl _)) rfl
    (X86.came_back_same 3 entering last rfl rfl rfl)
  refine ⟨t, runs, returned.value, ?_, congrArg Cpu.mode returned.same, ?_⟩
  · rw [returned.ebx]
    exact congrFun entered.memory _
  · rw [after]
    rfl

end SimpleKernel.Interrupts
