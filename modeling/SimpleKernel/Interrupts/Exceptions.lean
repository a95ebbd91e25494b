import SimpleKernel.Interrupts.Devices
import SimpleKernel.Output.Printf

set_option autoImplicit false

namespace SimpleKernel.Interrupts

open Output (Environment Item printf)
open X86 (Word Code Instr Cpu Setting Activity Interrupt Transparent Runs block execAll)

def ascii (text : String) : List UInt8 := text.toList.map fun c => UInt8.ofNat c.toNat

def message : Exception → List UInt8
  | .sigDe => ascii "[EXCEPTION] Division Error\n"
  | .sigDb => ascii "[EXCEPTION] Debug Exception\n"
  | .sigNmi => ascii "[EXCEPTION] Non-maskable Interrupt\n"
  | .sigBp => ascii "[EXCEPTION] Breakpoint Exception\n"
  | .sigOf => ascii "[EXCEPTION] Overflow Exception\n"
  | .sigBr => ascii "[EXCEPTION] Bound Range Exceeded\n"
  | .sigUd => ascii "[EXCEPTION] Invalid Opcode\n"
  | .sigNm => ascii "[EXCEPTION] Device not available\n"
  | .sigDf => ascii "[EXCEPTION] Double Fault\n"
  | .sigSo => ascii "[EXCEPTION] Coprocessor Segment Overrun\n"
  | .sigTs => ascii "[EXCEPTION] Invalid TSS\n"
  | .sigNp => ascii "[EXCEPTION] Segment not present\n"
  | .sigSs => ascii "[EXCEPTION] Stack Fault Error\n"
  | .sigGp => ascii "[EXCEPTION] General Protection Error\n"
  | .sigPf => ascii "Page fault occur at %#x\n"
  | .sigMf => ascii "[EXCEPTION] Floating Point Error\n"
  | .sigAc => ascii "[EXCEPTION] Alignment Check Error\n"
  | .sigMc => ascii "[EXCEPTION] Machine-Check Error\n"
  | .sigXf => ascii "[EXCEPTION] SIMD Floating point\n"

def unknownMessage : List UInt8 := ascii "[EXCEPTION] Unknown Interrupt %d\n"

theorem message_text (cause : Exception) : ∀ byte ∈ message cause, byte ≠ 0 :=
  List.forall_mem_ne'.mpr (by cases cause <;> decide)

def messageFormat (cause : Exception) : CString := ⟨message cause, message_text cause⟩
def unknownFormat : CString := ⟨unknownMessage, List.forall_mem_ne'.mpr (by decide)⟩

-- The calls of printf, each with the word behind its format. The first case has
-- no break; the loop behind the switch has no end.
def handleException (intVector cr2 : Word) : List (CString × Word) :=
  match exceptions.find? fun cause => cause.number = intVector with
  | some .sigDe => [(messageFormat .sigDe, intVector), (messageFormat .sigDb, intVector)]
  | some .sigPf => [(messageFormat .sigPf, cr2)]
  | some cause => [(messageFormat cause, intVector)]
  | none => [(unknownFormat, intVector)]

-- What appears on the screen; `none` when a call reads past its format.
def shown (env : Environment) : List (CString × Word) → Option (List UInt8)
  | [] => some []
  | (format, argument) :: calls =>
      match printf { env with word := Function.update env.word 0 argument } format with
      | .returned output _ _ => (shown env calls).map (output ++ ·)
      | .astray _ _ => none

section Printing

def literals : (text : List UInt8) → (∀ c ∈ text, c ≠ Output.percent) → List Item
  | [], _ => []
  | c :: rest, plain =>
      .literal c (plain c List.mem_cons_self) :: literals rest fun d member => plain d (List.mem_cons_of_mem c member)

theorem literals_spell (text : List UInt8) (plain : ∀ c ∈ text, c ≠ Output.percent) :
    Output.spell (literals text plain) = text := by
  induction text with
  | nil => rfl
  | cons c rest ih => exact congrArg (c :: ·) (ih _)

theorem literals_expand (env : Environment) (esp : Nat) (text : List UInt8) (plain : ∀ c ∈ text, c ≠ Output.percent)
    (rest : List Item) : Output.expand env esp (literals text plain ++ rest) = text ++ Output.expand env esp rest := by
  induction text with
  | nil => rfl
  | cons c text ih => exact congrArg (c :: ·) (ih _)

theorem plain_shown (env : Environment) (format : CString) (argument : Word) (plain : ∀ c ∈ format.bytes, c ≠ Output.percent)
    (calls : List (CString × Word)) :
    shown env ((format, argument) :: calls) = (shown env calls).map (format.bytes ++ ·) := by
  have spelled := literals_spell format.bytes plain
  have expanded := literals_expand { env with word := Function.update env.word 0 argument } 0 format.bytes plain []
  rw [List.append_nil, Output.expand, List.append_nil] at expanded
  rw [shown, Output.printf_complete _ format _ spelled.symm, expanded]

theorem value_shown (env : Environment) (format : CString) (argument : Word) (before after : List UInt8) (flags : Nat)
    (spec : UInt8) (ended : spec ≠ Output.hash) (first : ∀ c ∈ before, c ≠ Output.percent)
    (second : ∀ c ∈ after, c ≠ Output.percent)
    (spelled : format.bytes = before ++ (Item.conversion flags spec ended).spell ++ after) :
    shown env [(format, argument)] = some (before ++
      (Item.conversion flags spec ended).expand { env with word := Function.update env.word 0 argument } 0 ++ after) := by
  have items : format.bytes =
      Output.spell (literals before first ++ (Item.conversion flags spec ended :: literals after second)) := by
    rw [spelled, Output.spell, List.flatMap_append, List.flatMap_cons, List.append_assoc]
    exact congrArg₂ (· ++ ·) (literals_spell before first).symm
      (congrArg ((Item.conversion flags spec ended).spell ++ ·) (literals_spell after second).symm)
  have behind := literals_expand { env with word := Function.update env.word 0 argument }
    (0 + (Item.conversion flags spec ended).words) after second []
  rw [List.append_nil, Output.expand, List.append_nil] at behind
  rw [shown, Output.printf_complete _ format _ items, literals_expand, Output.expand, behind, List.append_assoc]
  exact congrArg some (List.append_nil _)

end Printing

def report (v : BitVec 8) (cr2 : Word) : List UInt8 :=
  match exceptions.find? fun cause => cause.vector = v with
  | some .sigDe => message .sigDe ++ message .sigDb
  | some .sigPf => ascii "Page fault occur at " ++ Output.padded cr2.toNat ++ ascii "\n"
  | some cause => message cause
  | none => ascii "[EXCEPTION] Unknown Interrupt 255\n"

def reported (v : BitVec 8) : Word :=
  match exceptions.find? fun cause => cause.vector = v with
  | some cause => cause.number
  | none => sigIdk.setWidth 32

theorem message_plain (cause : Exception) (other : cause ≠ .sigPf) : ∀ c ∈ message cause, c ≠ Output.percent := by
  cases cause with
  | sigPf => exact absurd rfl other
  | _ => exact List.forall_mem_ne'.mpr (by decide)

theorem fault_shown (env : Environment) (cr2 : Word) :
    shown env [(messageFormat .sigPf, cr2)] = some (ascii "Page fault occur at " ++ Output.padded cr2.toNat ++
      ascii "\n") := by
  have text := value_shown env (messageFormat .sigPf) cr2 (ascii "Page fault occur at ") (ascii "\n") 1 Output.letterX
    (by decide)
    (List.forall_mem_ne'.mpr (by decide)) (List.forall_mem_ne'.mpr (by decide)) (by decide)
  rw [text]
  rfl

theorem unknown_shown (env : Environment) :
    shown env [(unknownFormat, 255)] = some (ascii "[EXCEPTION] Unknown Interrupt 255\n") := by
  have text := value_shown env unknownFormat 255 (ascii "[EXCEPTION] Unknown Interrupt ") (ascii "\n") 0 Output.letterD
    (by decide) (List.forall_mem_ne'.mpr (by decide)) (List.forall_mem_ne'.mpr (by decide)) (by decide)
  have digits : Nat.digits 10 255 = [5, 5, 2] := by norm_num
  have number : Output.numeral 10 255 = ascii "255" := by
    rw [Output.numeral, if_neg (by decide), digits]
    decide
  have expanded : (Item.conversion 0 Output.letterD (by decide)).expand
      { env with word := Function.update env.word 0 255 } 0 =
      ascii "255" := number
  rw [text, expanded]
  decide

theorem handle_exception_shows (env : Environment) (v : BitVec 8) (cr2 : Word) :
    shown env (handleException (reported v) cr2) = some (report v cr2) := by
  have plain (cause : Exception) (other : cause ≠ .sigPf) (argument : Word) :
      shown env [(messageFormat cause, argument)] = some (message cause) := by
    rw [plain_shown env (messageFormat cause) argument (message_plain cause other) []]
    exact congrArg some (List.append_nil _)
  cases found : exceptions.find? fun cause => cause.vector = v with
  | some cause =>
      have holds := List.find?_some found
      obtain rfl : cause.vector = v := of_decide_eq_true holds
      cases cause with
      | sigDe =>
          refine (plain_shown env (messageFormat .sigDe) _ (message_plain .sigDe (by decide)) _).trans ?_
          exact congrArg (Option.map _) (plain .sigDb (by decide) _)
      | sigPf => exact fault_shown env cr2
      | _ => exact plain _ (by decide) _
  | none =>
      rw [reported, report, found]
      exact unknown_shown env

-- The processor pushes an error code on top of the frame of some exceptions.
def raised {World : Type} (gate : X86.Gate) (error : Option Word) (s : Cpu World) : Cpu World :=
  match error with
  | none => gate.enter s
  | some code => (gate.enter s).push code

def Handler.argument : Handler → Word
  | .exception cause => cause.number
  | _ => sigIdk.setWidth 32

def Handler.preamble : Handler → List Instr
  | .exception .sigGp => [.pushal, .pushfl, .pushlImm (Exception.number .sigGp)]
  | .exception cause => [.pushal, .pushlImm cause.number]
  | _ => [.pushfl, .pushal, .pushlImm (sigIdk.setWidth 32)]

inductive Handler.Reports : Handler → Prop
  | exception (cause : Exception) : Reports (.exception cause)
  | idk : Reports .idk

theorem reports_code (symbols : Symbols) (handler : Handler) (reports : handler.Reports) :
    ∃ rest, handler.code symbols =
      block handler.preamble (.callTo symbols.handleException (handleExceptionCode symbols) rest) := by
  cases reports with
  | exception cause => cases cause <;> exact ⟨_, rfl⟩
  | idk => exact ⟨_, rfl⟩

section Stopping

variable {World : Type} (symbols : Symbols) (setting : Setting World)

theorem preamble_pushes (handler : Handler) (s : Cpu World) (kernel : s.mode = .kernel) :
    ∃ k above, execAll setting handler.preamble s = some k ∧ k.mode = .kernel ∧ k.stack = handler.argument :: above := by
  cases s
  change _ = X86.Mode.kernel at kernel
  subst kernel
  cases handler with
  | exception cause => cases cause <;> exact ⟨_, _, rfl, rfl, rfl⟩
  | _ => exact ⟨_, _, rfl, rfl, rfl⟩

theorem raised_kernel (handler : Handler) (error : Option Word) (s : Cpu World) :
    (raised (gateOf symbols.isr handler) error s).mode = .kernel ∧
      (raised (gateOf symbols.isr handler) error s).cs = 0x10 := by
  cases error with
  | none => exact ⟨rfl, rfl⟩
  | some code =>
      rw [raised, X86.push_kernel code ((gateOf symbols.isr handler).enter s) rfl]
      exact ⟨rfl, rfl⟩

-- The code calls handle_exception with the number on top of the stack, and
-- whatever interrupts it, nothing runs after it.
structure Stops (code : Code) (number : Word) (s : Cpu World) : Prop where
  calls : ∃ instrs rest k above, code = block instrs (.callTo symbols.handleException (handleExceptionCode symbols) rest) ∧
    execAll setting instrs s = some k ∧ k.mode = .kernel ∧ k.stack = number :: above
  never : ∀ intr t, ¬ Runs setting intr code s t

theorem reports_stops (handler : Handler) (reports : handler.Reports) (s : Cpu World) (kernel : s.mode = .kernel) :
    Stops symbols setting (handler.code symbols) handler.argument s := by
  obtain ⟨rest, code⟩ := reports_code symbols handler reports
  obtain ⟨k, above, pushed, inside, stack⟩ := preamble_pushes setting handler s kernel
  refine ⟨⟨handler.preamble, rest, k, above, code, pushed, inside, stack⟩, fun intr t runs => ?_⟩
  have loops : (handleExceptionCode symbols).Loops := Code.Loops.part symbols.handleException .spin Code.Loops.spin
  rw [code] at runs
  exact X86.loops_never setting intr _ (X86.loops_block handler.preamble _
    (Code.Loops.callTo symbols.handleException _ rest loops))
    s t runs

variable (installed : Installed symbols setting)

include installed

theorem gate_unknown (v : BitVec 8) (unknown : ¬ Handler.Known v) : setting.gate v = gateOf symbols.isr .idk := by
  obtain ⟨old, table⟩ := installed.idt
  rw [Setting.gate, table]
  exact init_idt_unknown symbols.isr old v unknown

theorem vector_reports (v : BitVec 8) (device : v ∉ devices) (syscall : v ≠ sigSyscall) :
    ∃ handler : Handler, handler.Reports ∧ setting.gate v = gateOf symbols.isr handler ∧
      setting.handler v = some (handler.code symbols) ∧ reported v = handler.argument := by
  cases found : exceptions.find? fun cause => cause.vector = v with
  | some cause =>
      have holds := List.find?_some found
      obtain rfl : cause.vector = v := of_decide_eq_true holds
      refine ⟨.exception cause, .exception cause, gate_known symbols setting installed (.exception cause),
        handler_placed symbols setting installed (.exception cause), ?_⟩
      rw [reported, found]
      rfl
  | none =>
      have gate : setting.gate v = gateOf symbols.isr .idk := by
        by_cases known : Handler.Known v
        · exfalso
          obtain ⟨handler, other, rfl⟩ := known
          cases handler with
          | exception cause =>
              have listed : cause ∈ exceptions := by cases cause <;> decide
              have never := List.find?_eq_none.mp found cause listed
              exact never (decide_eq_true rfl)
          | syscall => exact syscall rfl
          | idk => exact other rfl
          | _ => exact device (by decide)
        · exact gate_unknown symbols setting installed v known
      refine ⟨.idk, .idk, gate, ?_, by rw [reported, found]; rfl⟩
      rw [Setting.handler, gate, gate_address]
      exact installed.text .idk

theorem exceptions_stop (v : BitVec 8) (device : v ∉ devices) (syscall : v ≠ sigSyscall) (error : Option Word)
    (s : Cpu World) :
    ∃ code, setting.handler v = some code ∧ Stops symbols setting code (reported v) (raised (setting.gate v) error s) ∧
      ∀ env cr2, shown env (handleException (reported v) cr2) = some (report v cr2) := by
  obtain ⟨handler, reports, gate, placed, number⟩ := vector_reports symbols setting installed v device syscall
  rw [gate, number]
  refine ⟨_, placed, reports_stops symbols setting handler reports _ (raised_kernel symbols handler error s).1,
    fun env cr2 => ?_⟩
  rw [← number]
  exact handle_exception_shows env v cr2

theorem trap_refused (v : BitVec 8) (other : v ≠ sigSyscall) (s : Cpu World) (level : X86.userLevel s.cs) :
    setting.trap v s =
      some (X86.protection, raised (setting.gate X86.protection) (some (v.setWidth 32 * 8 + 2)) s) := by
  obtain ⟨old, table⟩ := installed.idt
  have closed : (setting.gate v).dpl ≠ 3 := by
    rw [Setting.gate, table]
    exact fun opened => other ((init_idt_level symbols.isr old v).mp opened)
  have valid : (setting.gate X86.protection).Valid := by
    rw [Setting.gate, table]
    exact init_idt_valid symbols.isr old _
  rw [Setting.trap, if_pos ⟨level, closed⟩, if_pos valid]
  rfl

theorem protection_stops (error : Option Word) (s : Cpu World) :
    setting.handler X86.protection = some ((Handler.exception .sigGp).code symbols) ∧
      Stops symbols setting ((Handler.exception .sigGp).code symbols) (Exception.number .sigGp)
        (raised (setting.gate X86.protection) error s) := by
  have gate : setting.gate X86.protection = gateOf symbols.isr (.exception .sigGp) :=
    gate_known symbols setting installed (.exception .sigGp)
  refine ⟨handler_placed symbols setting installed (.exception .sigGp), ?_⟩
  rw [gate]
  exact reports_stops symbols setting (.exception .sigGp) (.exception .sigGp) _
    (raised_kernel symbols (.exception .sigGp) error s).1

theorem program_ints (depth : Nat) (v : BitVec 8) (other : v ≠ sigSyscall) (s : Cpu World) (coherent : s.context.Coherent)
    (level : X86.userLevel s.cs) :
    (∃ code fault, setting.trap v s = some (X86.protection, fault) ∧
      fault = raised (setting.gate X86.protection) (some (v.setWidth 32 * 8 + 2)) s ∧
        setting.handler X86.protection = some code ∧ Stops symbols setting code (Exception.number .sigGp) fault) ∧
      ∀ rest t, ¬ Runs setting (Interrupt setting devices depth) (.int v rest) s t := by
  obtain ⟨placed, stops⟩ := protection_stops symbols setting installed (some (v.setWidth 32 * 8 + 2)) s
  refine ⟨⟨_, _, trap_refused symbols setting installed v other s level, rfl, placed, stops⟩, fun rest t runs => ?_⟩
  obtain ⟨world, taken, code, inside, u, traps, found, handled, _⟩ := X86.runs_goes setting _
    (devices_transparent symbols setting installed depth) _ s t coherent runs
  cases traps.symm.trans (trap_refused symbols setting installed v other { s with world := world } level)
  cases found.symm.trans placed
  exact (protection_stops symbols setting installed _ { s with world := world }).2.never _ u handled

end Stopping

def printingKernel (env : Environment) : Setting (List UInt8) :=
  placedKernel (fun _ => 0)
    (fun function s t => function = somewhere.handleException ∧ ∃ address number above text,
      s.stack = address :: number :: above ∧ shown env (handleException number 0) = some text ∧
        t = { s with world := s.world ++ text })
    fun _ s => s.world ≠ []

def Prints (env : Environment) (code : Code) (s : Cpu (List UInt8)) (text : List UInt8) : Prop :=
  ∃ instrs rest k last, code = block instrs (.callTo somewhere.handleException (handleExceptionCode somewhere) rest) ∧
    execAll (printingKernel env) instrs s = some k ∧
      Activity (printingKernel env) (Interrupt (printingKernel env) devices 1) somewhere.handleException
        (k.calling somewhere.handleException ((printingKernel env).next k.eip)) last ∧
          (printingKernel env).finished somewhere.handleException last ∧ last.world = text

theorem stops_prints (env : Environment) (code : Code) (number : Word) (s : Cpu (List UInt8)) (text : List UInt8)
    (stops : Stops somewhere (printingKernel env) code number s) (blank : s.world = [])
    (shows : shown env (handleException number 0) = some text) (written : text ≠ []) : Prints env code s text := by
  obtain ⟨instrs, rest, k, above, same, pushed, kernel, stack⟩ := stops.calls
  have kept := X86.exec_all_world (printingKernel env) instrs s s.world
  rw [pushed] at kept
  have empty : k.world = [] := (congrArg Cpu.world (Option.some.inj kept)).trans blank
  let called := k.entering somewhere.handleException ((printingKernel env).next k.eip)
  let last : Cpu (List UInt8) := { called with world := text }
  have step : (printingKernel env).own somewhere.handleException called last := by
    refine ⟨rfl, (printingKernel env).next k.eip, number, above, text, congrArg _ stack, shows, ?_⟩
    change last = { called with world := k.world ++ text }
    rw [empty, List.nil_append]
  refine ⟨instrs, rest, k, last, same, pushed, ?_, written, rfl⟩
  rw [X86.calling_kernel _ _ k kernel]
  exact Activity.own _ _ _ step (Activity.refl _)

def emptyArguments : Environment := ⟨fun _ => 0, fun _ => ⟨[], List.forall_mem_nil _⟩, fun _ _ => 0⟩

theorem exceptions_stop_division :
    ∃ code, (printingKernel emptyArguments).handler 0 = some code ∧
      Prints emptyArguments code (raised ((printingKernel emptyArguments).gate 0) none (program []))
        (ascii "[EXCEPTION] Division Error\n" ++ ascii "[EXCEPTION] Debug Exception\n") ∧
      ∀ intr t, ¬ Runs (printingKernel emptyArguments) intr code
        (raised ((printingKernel emptyArguments).gate 0) none (program [])) t := by
  obtain ⟨code, placed, stops, shows⟩ := exceptions_stop somewhere (printingKernel emptyArguments) (placed_installed _ _ _) 0
    (by decide) (by decide) none (program [])
  exact ⟨code, placed, stops_prints _ _ _ _ _ stops rfl (shows _ 0) (by decide), stops.never⟩

theorem program_ints_key :
    ∃ code fault, (printingKernel emptyArguments).trap sigKbd (program []) = some (X86.protection, fault) ∧
      (printingKernel emptyArguments).handler X86.protection = some code ∧
        Prints emptyArguments code fault (ascii "[EXCEPTION] General Protection Error\n") ∧
          ∀ rest t, ¬ Runs (printingKernel emptyArguments) (Interrupt (printingKernel emptyArguments) devices 1)
            (.int sigKbd rest) (program []) t := by
  obtain ⟨⟨code, fault, traps, raises, placed, stops⟩, never⟩ := program_ints somewhere (printingKernel emptyArguments)
    (placed_installed _ _ _) 1 sigKbd (by decide) (program []) (program_coherent []) program_level
  have shows := handle_exception_shows emptyArguments X86.protection 0
  have blank : fault.world = [] := by
    rw [raises]
    rfl
  exact ⟨code, fault, traps, placed, stops_prints _ _ _ _ _ stops blank shows (by decide), never⟩

end SimpleKernel.Interrupts
