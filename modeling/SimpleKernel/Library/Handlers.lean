import SimpleKernel.Library.X86

set_option autoImplicit false

-- Handlers in assembly around functions that a compiler has made: what runs
-- when an interrupt, a call or a system call arrives, and what further
-- interrupts may come in between. Nothing is assumed of a compiled function: a
-- call of it counts as returned when it has come back as its caller relies on.
namespace X86

open BitField (get)

-- Where the kernel lies, and what its compiled functions do: a step of a
-- function's own, and the states in which its last instruction is the next one.
structure Setting (World : Type) where
  top : Word
  next : Word → Word
  text : Word → Option Code
  kernel : Word → Word
  idt : BitVec 8 → BitVec 64
  own : Word → Cpu World → Cpu World → Prop
  finished : Word → Cpu World → Prop

section Semantics

variable {World : Type} (setting : Setting World) (intr : Cpu World → Cpu World → Prop)

def Setting.gate (vector : BitVec 8) : Gate := Gate.read (setting.idt vector)

def Setting.handler (vector : BitVec 8) : Option Code := setting.text (BitVec.ofNat 32 (setting.gate vector).offset)

def protection : BitVec 8 := 13

-- The int instruction. A program may only use the gates that are open to its
-- level; else it faults where it is, with the vector in the error code.
def Setting.trap (vector : BitVec 8) (s : Cpu World) : Option (BitVec 8 × Cpu World) :=
  if userLevel s.cs ∧ (setting.gate vector).dpl ≠ 3 then
    if (setting.gate protection).Valid then
      some (protection, ((setting.gate protection).enter s).push (vector.setWidth 32 * 8 + 2))
    else none
  else if (setting.gate vector).Valid then
    some (vector, (setting.gate vector).enter { s with eip := setting.next s.eip })
  else none

inductive Activity (function : Word) : Cpu World → Cpu World → Prop
  | refl (s : Cpu World) : Activity function s s
  | own (s t u : Cpu World) (step : setting.own function s t) (later : Activity function t u) : Activity function s u
  | interrupted (s t u : Cpu World) (enabled : s.enabled) (arrives : intr s t) (later : Activity function t u) :
      Activity function s u

def Cpu.calling (function address : Word) (s : Cpu World) : Cpu World := { s.push address with eip := function }

def Cpu.entering (function address : Word) (s : Cpu World) : Cpu World :=
  { s with stack := address :: s.stack, eip := function }

theorem calling_kernel (function address : Word) (s : Cpu World) (kernel : s.mode = .kernel) :
    s.calling function address = s.entering function address := by
  rw [Cpu.calling, push_kernel _ s kernel, Cpu.entering]

-- What a caller relies on: the function has come back to its segment and stack,
-- with the words that were on it untouched but for those it was passed.
structure CameBack (params : Nat) (entering last : Cpu World) : Prop where
  mode : last.mode = entering.mode
  cs : last.cs = entering.cs
  stack : ∀ address args above, entering.stack = address :: (args ++ above) → args.length = params →
    ∃ args', args'.length = params ∧ last.stack = address :: (args' ++ above)

theorem came_back_same (params : Nat) (entering last : Cpu World) (mode : last.mode = entering.mode)
    (cs : last.cs = entering.cs) (stack : last.stack = entering.stack) : CameBack params entering last :=
  ⟨mode, cs, fun _ args _ words length => ⟨args, length, stack.trans words⟩⟩

structure Returns (function : Word) (params : Nat) (s t : Cpu World) : Prop where
  body : ∃ last back, Activity setting intr function (s.calling function (setting.next s.eip)) last ∧
    setting.finished function last ∧ CameBack params (s.calling function (setting.next s.eip)) last ∧
      last.pop = some (setting.next s.eip, back) ∧ t = { back with eip := setting.next s.eip }

inductive Runs : Code → Cpu World → Cpu World → Prop
  | interrupted (code : Code) (s t u : Cpu World) (enabled : s.enabled) (arrives : intr s t) (back : t.eip = s.eip)
      (later : Runs code t u) : Runs code s u
  | step (instr : Instr) (rest : Code) (s t u : Cpu World) (done : exec setting.top instr s = some t)
      (later : Runs rest { t with eip := setting.next s.eip } u) : Runs (.step instr rest) s u
  | taken (condition : Flags.Status → Bool) (label : Word) (taken rest : Code) (s u : Cpu World)
      (holds : condition (status s.eflags) = true) (later : Runs taken { s with eip := label } u) :
      Runs (.branch condition label taken rest) s u
  | passed (condition : Flags.Status → Bool) (label : Word) (taken rest : Code) (s u : Cpu World)
      (fails : condition (status s.eflags) = false) (later : Runs rest { s with eip := setting.next s.eip } u) :
      Runs (.branch condition label taken rest) s u
  | jmp (label : Word) (target : Code) (s u : Cpu World) (later : Runs target { s with eip := label } u) :
      Runs (.jmp label target) s u
  | call (function : Word) (params : Nat) (rest : Code) (s t u : Cpu World)
      (returns : Returns setting intr function params s t) (later : Runs rest t u) : Runs (.call function params rest) s u
  | callTable (table : Word) (index : Register) (params : Nat) (rest : Code) (s t u : Cpu World)
      (returns : Returns setting intr (setting.kernel (table + s.gpr index * 4)) params s t) (later : Runs rest t u) :
      Runs (.callTable table index params rest) s u
  | callTo (label : Word) (body rest : Code) (s t u : Cpu World)
      (inside : Runs body (s.calling label (setting.next s.eip)) t) (back : t.eip = setting.next s.eip)
      (later : Runs rest t u) : Runs (.callTo label body rest) s u
  | part (function : Word) (rest : Code) (s t u : Cpu World) (activity : Activity setting intr function s t)
      (finished : setting.finished function t) (later : Runs rest t u) : Runs (.part function rest) s u
  | int (vector taken : BitVec 8) (rest code : Code) (s entered t u : Cpu World)
      (traps : setting.trap vector s = some (taken, entered)) (placed : setting.handler taken = some code)
      (handled : Runs code entered t) (back : t.eip = setting.next s.eip) (later : Runs rest t u) :
      Runs (.int vector rest) s u
  | iret (s t : Cpu World) (kernel : s.mode = .kernel) (done : X86.iret s = some t) : Runs .iret s t
  | ret (s t : Cpu World) (address : Word) (done : s.pop = some (address, t)) : Runs .ret s { t with eip := address }

end Semantics

variable {World : Type} (setting : Setting World)

-- An interrupt of one of the devices that comes back and leaves the memory of
-- the program alone, with at most `depth` handlers on top of each other.
def Interrupt (devices : List (BitVec 8)) : Nat → Cpu World → Cpu World → Prop
  | 0 => fun _ _ => False
  | depth + 1 => fun s t => ∃ vector ∈ devices, ∃ code, (setting.gate vector).Valid ∧ setting.handler vector = some code ∧
      Runs setting (Interrupt devices depth) code ((setting.gate vector).enter s) t ∧ t.memory = s.memory

def Transparent (intr : Cpu World → Cpu World → Prop) : Prop :=
  ∀ s t, s.context.Coherent → intr s t → ∃ world, t = { s with world := world }

def Goes (intr : Cpu World → Cpu World → Prop) : Code → Cpu World → Cpu World → Prop
  | .step instr rest, s, u =>
      ∃ t, exec setting.top instr s = some t ∧ Runs setting intr rest { t with eip := setting.next s.eip } u
  | .branch condition label taken rest, s, u =>
      Runs setting intr (if condition (status s.eflags) then taken else rest)
        { s with eip := if condition (status s.eflags) then label else setting.next s.eip } u
  | .jmp label target, s, u => Runs setting intr target { s with eip := label } u
  | .call function params rest, s, u => ∃ t, Returns setting intr function params s t ∧ Runs setting intr rest t u
  | .callTable table index params rest, s, u =>
      ∃ t, Returns setting intr (setting.kernel (table + s.gpr index * 4)) params s t ∧ Runs setting intr rest t u
  | .callTo label body rest, s, u =>
      ∃ t, Runs setting intr body (s.calling label (setting.next s.eip)) t ∧ t.eip = setting.next s.eip ∧
        Runs setting intr rest t u
  | .part function rest, s, u =>
      ∃ t, Activity setting intr function s t ∧ setting.finished function t ∧ Runs setting intr rest t u
  | .int vector rest, s, u =>
      ∃ taken code entered t, setting.trap vector s = some (taken, entered) ∧ setting.handler taken = some code ∧
        Runs setting intr code entered t ∧ t.eip = setting.next s.eip ∧ Runs setting intr rest t u
  | .iret, s, u => s.mode = .kernel ∧ iret s = some u
  | .ret, s, u => ∃ address t, s.pop = some (address, t) ∧ u = { t with eip := address }
  | .spin, _, _ => False

inductive Code.Loops : Code → Prop
  | spin : Loops .spin
  | step (instr : Instr) (rest : Code) (later : Loops rest) : Loops (.step instr rest)
  | part (function : Word) (rest : Code) (later : Loops rest) : Loops (.part function rest)
  | callTo (label : Word) (body rest : Code) (inside : Loops body) : Loops (.callTo label body rest)

theorem loops_block (instrs : List Instr) (rest : Code) (later : rest.Loops) : (block instrs rest).Loops := by
  induction instrs with
  | nil => exact later
  | cons instr instrs ih => exact Code.Loops.step instr _ ih

theorem loops_never (intr : Cpu World → Cpu World → Prop) (code : Code) (loops : code.Loops) (s u : Cpu World) :
    ¬ Runs setting intr code s u := by
  intro runs
  induction runs with
  | interrupted code s t u _ _ _ _ ih => exact ih loops
  | step instr rest s t u _ _ ih =>
      cases loops with
      | step _ _ later => exact ih later
  | callTo label body rest s t u _ _ _ ih _ =>
      cases loops with
      | callTo _ _ _ inside => exact ih inside
  | part function rest s t u _ _ _ ih =>
      cases loops with
      | part _ _ later => exact ih later
  | _ => cases loops

section Rules

variable (intr : Cpu World → Cpu World → Prop) (transparent : Transparent intr)

include transparent

theorem runs_goes (code : Code) (s u : Cpu World) (coherent : s.context.Coherent) (runs : Runs setting intr code s u) :
    ∃ world, Goes setting intr code { s with world := world } u := by
  induction runs with
  | interrupted code s t u _ arrives _ _ ih =>
      obtain ⟨world, rfl⟩ := transparent s t coherent arrives
      exact ih coherent
  | step instr rest s t u done later _ => exact ⟨s.world, t, done, later⟩
  | taken condition label taken rest s u holds later _ =>
      refine ⟨s.world, ?_⟩
      rw [Goes, if_pos holds, if_pos holds]
      exact later
  | passed condition label taken rest s u fails later _ =>
      refine ⟨s.world, ?_⟩
      rw [Goes, if_neg (fails ▸ Bool.false_ne_true), if_neg (fails ▸ Bool.false_ne_true)]
      exact later
  | jmp label target s u later _ => exact ⟨s.world, later⟩
  | call function params rest s t u returns later _ => exact ⟨s.world, t, returns, later⟩
  | callTable table index params rest s t u returns later _ => exact ⟨s.world, t, returns, later⟩
  | callTo label body rest s t u inside back later _ _ => exact ⟨s.world, t, inside, back, later⟩
  | part function rest s t u activity finished later _ => exact ⟨s.world, t, activity, finished, later⟩
  | int vector taken rest code s entered t u traps placed handled back later _ _ =>
      exact ⟨s.world, taken, code, entered, t, traps, placed, handled, back, later⟩
  | iret s t kernel done => exact ⟨s.world, kernel, done⟩
  | ret s t address done => exact ⟨s.world, address, t, done, rfl⟩

omit transparent

section Call

variable (function : Word) (args above : List Word) (s : Cpu World) (kernel : s.mode = .kernel)
    (stack : s.stack = args ++ above)

include kernel stack

-- A call that has come back: the registers and the memory are the function's,
-- the words of the caller are not.
theorem returns_called (t : Cpu World) (returns : Returns setting intr function args.length s t) :
    ∃ last args', args'.length = args.length ∧ Activity setting intr function
      (s.entering function (setting.next s.eip)) last ∧
      setting.finished function last ∧
        t = { last with mode := .kernel, cs := s.cs, eip := setting.next s.eip, stack := args' ++ above } := by
  obtain ⟨last, back, activity, finished, came, popped, rfl⟩ := returns.body
  rw [calling_kernel _ _ s kernel] at activity came
  obtain ⟨args', length, words⟩ := came.stack (setting.next s.eip) args above (congrArg (setting.next s.eip :: ·) stack) rfl
  have mode : last.mode = .kernel := came.mode.trans kernel
  have cs : last.cs = s.cs := came.cs
  rw [pop_kernel last _ _ mode words] at popped
  cases popped
  refine ⟨last, args', length, activity, finished, ?_⟩
  rw [← mode, ← cs]

theorem called_returns (last : Cpu World)
    (activity : Activity setting intr function (s.entering function (setting.next s.eip)) last)
    (finished : setting.finished function last) (came : CameBack args.length
      (s.entering function (setting.next s.eip)) last) :
    ∃ args', args'.length = args.length ∧ Returns setting intr function args.length s
      { last with mode := .kernel, cs := s.cs, eip := setting.next s.eip, stack := args' ++ above } := by
  obtain ⟨args', length, words⟩ := came.stack (setting.next s.eip) args above (congrArg (setting.next s.eip :: ·) stack) rfl
  have mode : last.mode = .kernel := came.mode.trans kernel
  have cs : last.cs = s.cs := came.cs
  refine ⟨args', length, ⟨last, _, ?_, finished, ?_, pop_kernel last _ _ mode words, ?_⟩⟩
  · rw [calling_kernel _ _ s kernel]
    exact activity
  · rw [calling_kernel _ _ s kernel]
    exact came
  · rw [← mode, ← cs]

end Call

include transparent

structure Continues (code : Code) (s : Cpu World) (rest : Code) (t : Cpu World) : Prop where
  safe : ∀ u, Runs setting intr code s u → ∃ world, Runs setting intr rest { t with world := world } u
  live : ∀ u, Runs setting intr rest t u → Runs setting intr code s u

omit transparent in
theorem continues_trans (code middle rest : Code) (s m t : Cpu World) (first : Continues setting intr code s middle m)
    (second : ∀ world, Continues setting intr middle { m with world := world } rest { t with world := world })
    (same : t.world = m.world) : Continues setting intr code s rest t := by
  refine ⟨fun u runs => ?_, fun u runs => first.live u ?_⟩
  · obtain ⟨world, later⟩ := first.safe u runs
    exact (second world).safe u later
  · refine (second m.world).live u ?_
    rw [← same]
    exact runs

def execAll : List Instr → Cpu World → Option (Cpu World)
  | [], s => some s
  | instr :: instrs, s => (exec setting.top instr s).bind fun t => execAll instrs { t with eip := setting.next s.eip }

omit transparent in
theorem exec_world (instr : Instr) (s : Cpu World) (world : World) :
    exec setting.top instr { s with world := world } = (exec setting.top instr s).map ({ · with world := world }) := by
  obtain ⟨gpr, eflags, eip, cs, mode, stack, memory, world'⟩ := s
  cases mode with
  | user esp ss => cases instr <;> rfl
  | kernel =>
      cases instr with
      | popl target => cases stack <;> rfl
      | popal =>
          simp only [exec]
          split <;> rfl
      | popfl => cases stack <;> rfl
      | addlEsp bytes =>
          simp only [exec]
          split <;> rfl
      | movlStack offset target =>
          simp only [exec, Cpu.load]
          cases stack[offset / 4]? <;> rfl
      | _ => rfl

omit transparent in
theorem exec_coherent (instr : Instr) (s t : Cpu World) (coherent : s.context.Coherent)
    (done : exec setting.top instr s = some t) : t.context.Coherent := by
  obtain ⟨gpr, eflags, eip, cs, mode, stack, memory, world⟩ := s
  cases mode with
  | user esp ss =>
      have level := coherent.user esp ss rfl
      cases instr <;> cases done
      all_goals exact ⟨fun _ _ _ => level, fun kernel => by cases kernel⟩
  | kernel =>
      have level := coherent.kernel rfl
      suffices kept : t.mode = .kernel ∧ t.cs = cs from
        coherent_kernel t.context kept.1 (show ¬ userLevel t.cs from kept.2.symm ▸ level)
      cases instr with
      | popl target =>
          cases stack with
          | nil => cases done
          | cons word rest =>
              cases done
              exact ⟨rfl, rfl⟩
      | popal =>
          simp only [exec] at done
          split at done
          · cases done
            exact ⟨rfl, rfl⟩
          · cases done
      | popfl =>
          cases stack with
          | nil => cases done
          | cons word rest =>
              cases done
              exact ⟨rfl, rfl⟩
      | addlEsp bytes =>
          simp only [exec] at done
          split at done
          · cases done
            exact ⟨rfl, rfl⟩
          · cases done
      | movlStack offset target =>
          obtain ⟨value, _, rfl⟩ := Option.map_eq_some_iff.mp done
          exact ⟨rfl, rfl⟩
      | _ =>
          cases done
          exact ⟨rfl, rfl⟩

omit transparent in
theorem exec_all_world (instrs : List Instr) (s : Cpu World) (world : World) :
    execAll setting instrs { s with world := world } = (execAll setting instrs s).map ({ · with world := world }) := by
  induction instrs generalizing s with
  | nil => rfl
  | cons instr instrs ih =>
      rw [execAll, execAll, exec_world setting instr s world]
      cases exec setting.top instr s with
      | none => rfl
      | some t => exact ih { t with eip := setting.next s.eip }

theorem continues_block (instrs : List Instr) (rest : Code) (s t : Cpu World) (coherent : s.context.Coherent)
    (done : execAll setting instrs s = some t) : Continues setting intr (block instrs rest) s rest t := by
  induction instrs generalizing s t with
  | nil =>
      cases done
      exact ⟨fun u runs => ⟨s.world, runs⟩, fun u runs => runs⟩
  | cons instr instrs ih =>
      obtain ⟨once, first, others⟩ := Option.bind_eq_some_iff.mp done
      have coherentOnce : Context.Coherent { once with eip := setting.next s.eip }.context :=
        exec_coherent setting instr s once coherent first
      refine ⟨fun u runs => ?_, fun u runs => ?_⟩
      · obtain ⟨world, t', stepped, later⟩ := runs_goes setting intr transparent _ s u coherent runs
        rw [exec_world setting instr s world, first] at stepped
        cases stepped
        have moved := exec_all_world setting instrs { once with eip := setting.next s.eip } world
        rw [others] at moved
        exact (ih { once with eip := setting.next s.eip, world := world } _ coherentOnce moved).safe u later
      · exact Runs.step instr _ s once u first ((ih _ t coherentOnce others).live u runs)

theorem continues_passed (condition : Flags.Status → Bool) (label : Word) (taken rest : Code) (s : Cpu World)
    (coherent : s.context.Coherent) (fails : condition (status s.eflags) = false) :
    Continues setting intr (.branch condition label taken rest) s rest { s with eip := setting.next s.eip } := by
  refine ⟨fun u runs => ?_, fun u runs => Runs.passed condition label taken rest s u fails runs⟩
  obtain ⟨world, later⟩ := runs_goes setting intr transparent _ s u coherent runs
  rw [Goes, if_neg (fails ▸ Bool.false_ne_true), if_neg (fails ▸ Bool.false_ne_true)] at later
  exact ⟨world, later⟩

theorem continues_jmp (label : Word) (target : Code) (s : Cpu World) (coherent : s.context.Coherent) :
    Continues setting intr (.jmp label target) s target { s with eip := label } :=
  ⟨fun u runs => runs_goes setting intr transparent _ s u coherent runs, fun u runs => Runs.jmp label target s u runs⟩

section Saved

variable (function : Word) (rest : Code) (s : Cpu World) (kernel : s.mode = .kernel) (level : ¬ userLevel s.cs)

def Setting.saved (s : Cpu World) : Cpu World :=
  { s with stack := savedAll s.gpr (s.esp setting.top) s.stack, eip := setting.next s.eip }

def Setting.saving (function : Word) (s : Cpu World) : Cpu World :=
  (setting.saved s).entering function (setting.next (setting.next s.eip))

include kernel level

theorem continues_pushal : Continues setting intr (block [.pushal] rest) s rest (setting.saved s) :=
  continues_block setting intr transparent [.pushal] rest s _ (coherent_kernel s.context kernel level)
    (congrArg (Option.bind · _) (exec_pushal setting.top s kernel))

theorem continues_popal (back : Cpu World) (mode : back.mode = .kernel) (cs : back.cs = s.cs) (esp : Word)
    (stack : back.stack = savedAll s.gpr esp s.stack) :
    Continues setting intr (block [.popal] rest) back rest
      { s with eflags := back.eflags, eip := setting.next back.eip, memory := back.memory, world := back.world } := by
  have outside : ¬ userLevel back.cs := cs ▸ level
  have popped := continues_block setting intr transparent [.popal] rest back _ (coherent_kernel back.context mode outside)
    (congrArg (Option.bind · _) (exec_popal setting.top back s.gpr esp s.stack mode stack))
  rw [mode, cs, ← kernel] at popped
  exact popped

theorem runs_saved (u : Cpu World)
    (runs : Runs setting intr (block [.pushal] (.call function 0 (block [.popal] rest))) s u) :
    ∃ eflags eip memory world, Runs setting intr rest
      { s with eflags := eflags, eip := eip, memory := memory, world := world } u := by
  obtain ⟨before, calls⟩ := (continues_pushal setting intr transparent _ s kernel level).safe u runs
  obtain ⟨world, t, returns, pops⟩ := runs_goes setting intr transparent _
    { setting.saved s with world := before } u (coherent_kernel (setting.saved s).context kernel level) calls
  obtain ⟨last, args, none, _, _, rfl⟩ := returns_called setting intr function [] _
    { setting.saved s with world := world } kernel rfl t returns
  rw [List.length_eq_zero_iff.mp none, List.nil_append] at pops
  let back : Cpu World := { last with
    mode := .kernel, cs := s.cs, eip := setting.next (setting.next s.eip),
    stack := savedAll s.gpr (s.esp setting.top) s.stack }
  have popal := continues_popal setting intr transparent rest s kernel level back rfl rfl _ rfl
  obtain ⟨after, later⟩ := popal.safe u pops
  exact ⟨_, _, _, after, later⟩

theorem saved_completes (last u : Cpu World)
    (activity : Activity setting intr function (setting.saving function s) last) (finished : setting.finished function last)
    (came : CameBack 0 (setting.saving function s) last)
    (later : ∀ eflags eip,
      Runs setting intr rest { s with eflags := eflags, eip := eip, memory := last.memory, world := last.world } u) :
    Runs setting intr (block [.pushal] (.call function 0 (block [.popal] rest))) s u := by
  obtain ⟨args, none, returns⟩ := called_returns setting intr function [] _ (setting.saved s) kernel rfl last activity
    finished
    came
  rw [List.length_eq_zero_iff.mp none, List.nil_append] at returns
  let back : Cpu World := { last with
    mode := .kernel, cs := s.cs, eip := setting.next (setting.next s.eip),
    stack := savedAll s.gpr (s.esp setting.top) s.stack }
  have popal := continues_popal setting intr transparent rest s kernel level back rfl rfl _ rfl
  exact (continues_pushal setting intr transparent _ s kernel level).live u
    (Runs.call function 0 _ _ _ u returns (popal.live u (later _ _)))

end Saved

theorem runs_iret (s t u : Cpu World) (coherent : s.context.Coherent) (runs : Runs setting intr .iret t u)
    (kernel : t.mode = .kernel) (level : ¬ userLevel t.cs) (stack : t.stack = frame s) :
    ∃ world, u = { s with gpr := t.gpr, memory := t.memory, world := world } := by
  obtain ⟨world, _, done⟩ := runs_goes setting intr transparent _ t u (coherent_kernel t.context kernel level) runs
  rw [iret_frame s { t with world := world } coherent kernel stack] at done
  cases done
  exact ⟨world, rfl⟩

omit transparent in
theorem iret_runs (s t : Cpu World) (coherent : s.context.Coherent) (kernel : t.mode = .kernel) (stack : t.stack = frame s) :
    Runs setting intr .iret t { s with gpr := t.gpr, memory := t.memory, world := t.world } :=
  Runs.iret t _ kernel (iret_frame s t coherent kernel stack)

end Rules

end X86
