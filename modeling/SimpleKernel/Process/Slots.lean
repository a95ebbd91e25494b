import SimpleKernel.Process.Nesting

set_option autoImplicit false

namespace SimpleKernel.Process

open FileSystem (Image)
open Files (Devices)
open Paging (Tables)

def live : List Note → Slot → Bool
  | [], _ => false
  | .started slot _ _ :: older, p => slot = p || live older p
  | .halted slot :: older, p => slot ≠ p && live older p
  | .resumed _ _ _ :: older, p => live older p
  | .refused :: older, p => live older p

def SlotsLawful : List Note → Prop
  | [] => True
  | .started slot _ _ :: older => live older slot = false ∧ SlotsLawful older
  | .halted _ :: older => SlotsLawful older
  | .resumed _ _ _ :: older => SlotsLawful older
  | .refused :: older => (∀ p, live older p = true) ∧ SlotsLawful older

structure Conserved (m : Machine) : Prop where
  slots : ∀ p, m.pcbState p = true ↔ live m.history p = true
  lawful : SlotsLawful m.history
  known : m.control ≠ .lost

def Event.isTask : Event → Bool
  | .execute _ _ => true
  | .halt _ _ => true
  | .displaySwitch _ _ => false
  | .proceed => true

def baseLives (m : Machine) (event : Event) : Bool :=
  match m.control, event with
  | .user _, .execute (some command) _ =>
      !overruns command && ((firstWord command).bytes = [] || !isQuit command || !decide (m.firstShell m.current))
  | .user _, .halt _ _ => !decide (m.firstShell m.current)
  | _, _ => true

-- `s` is the slot whose stack the next call runs on. The number of a process
-- that waits may have been overwritten, but only by that of the base shell.
structure Rooted (m : Machine) (s : Slot) (rest : List Slot) : Prop where
  nested : Nested (· = .syscall) m (s :: rest)
  own : (m.pcbs s).pid = s
  pid : ∀ p ∈ s :: rest, (m.pcbs p).pid = p ∨ (m.pcbs p).pid = firstSlot
  root : (s :: rest).getLast? = some firstSlot

structure BaseListed (m : Machine) : Prop where
  flag : m.active.terminalFlag = false
  first : m.active.processes 0 = some firstSlot

-- A process `p` that is resumed under the base shell's number makes its calls
-- on the base shell's stack.
def Grounded (m : Machine) : Prop :=
  match m.control with
  | .user p => BaseListed m ∧ ∃ s rest, m.esp0 = kernelStackTop s ∧ Rooted m s rest ∧ (p = s ∨ s = firstSlot)
  | .halting _ _ => False
  | .idle => True
  | .faulted => True
  | .lost => False

structure Counted (m : Machine) : Prop where
  slots : ∀ p, m.pcbState p = live m.history p
  lawful : SlotsLawful m.history
  parents : ∀ j, (m.pcbs j).parent = some j → j = firstSlot
  grounded : Grounded m

theorem grounded_user (m : Machine) (p s : Slot) (rest : List Slot) (running : m.control = .user p) (listed : BaseListed m)
    (stack : m.esp0 = kernelStackTop s) (rooted : Rooted m s rest) (whose : p = s ∨ s = firstSlot) : Grounded m := by
  simp only [Grounded, running]
  exact ⟨listed, s, rest, stack, rooted, whose⟩

theorem counted_conserved (m : Machine) (counted : Counted m) : Conserved m := by
  refine ⟨fun p => by rw [counted.slots p], counted.lawful, ?_⟩
  intro lost
  have grounded := counted.grounded
  simp only [Grounded, lost] at grounded

theorem rooted_first_pid (m : Machine) (s : Slot) (rest : List Slot) (rooted : Rooted m s rest) :
    (m.pcbs firstSlot).pid = firstSlot := by
  rcases rooted.pid firstSlot (List.mem_of_getLast? rooted.root) with own | first
  · exact own
  · exact first

theorem rooted_transfer (m m' : Machine) (s : Slot) (rest : List Slot) (rooted : Rooted m s rest)
    (nested : Nested (· = .syscall) m' (s :: rest)) (pids : ∀ p, (m'.pcbs p).pid = (m.pcbs p).pid) : Rooted m' s rest := by
  refine ⟨nested, (pids s).trans rooted.own, ?_, rooted.root⟩
  intro p member
  rw [pids p]
  exact rooted.pid p member

-- The list's head is the base shell, so the store through the old parent
-- pointer can only write that number.
theorem rooted_start (m : Machine) (creator : Option Slot) (s j : Slot) (args : List UInt8) (entryAddress : Nat)
    (rest : List Slot) (rooted : Rooted m s rest) (free : m.pcbState j = false) (notOwn : (m.pcbs j).parent ≠ some j)
    (shell : m.shellEntry j = firstSlot) : Rooted (m.start .syscall creator s j args entryAddress) j (s :: rest) := by
  have nested := nested_start _ m .syscall creator s j args entryAddress rest rooted.nested rfl free
  have newPid : ((m.start .syscall creator s j args entryAddress).pcbs j).pid = j := by
    rw [start_pid, if_neg notOwn, if_pos rfl]
  refine ⟨nested, newPid, ?_, ?_⟩
  · intro p member
    cases member with
    | head => exact Or.inl newPid
    | tail _ older =>
        rw [start_pid, shell]
        split
        · exact Or.inr rfl
        · split
          · rename_i same
            exact Or.inl same.symm
          · exact rooted.pid p older
  · rw [List.getLast?_cons_cons]
    exact rooted.root

theorem counted_start (m : Machine) (creator : Option Slot) (s j : Slot) (args : List UInt8) (entryAddress : Nat)
    (rest : List Slot) (counted : Counted m) (rooted : Rooted m s rest) (listed : BaseListed m)
    (free : m.pcbState j = false) (control : Control) (outcome : control = .user j ∨ control = .faulted) :
    Counted { m.start .syscall creator s j args entryAddress with control := control } := by
  have other : ∀ p ∈ s :: rest, j ≠ p := by
    rintro p member rfl
    rw [rooted.nested.used j member] at free
    cases free
  have notOwn : (m.pcbs j).parent ≠ some j := by
    intro own
    exact other firstSlot (List.mem_of_getLast? rooted.root) (counted.parents j own)
  have shell : m.shellEntry j = firstSlot := by
    simp [Machine.shellEntry, listed.flag, listed.first]
  have next := rooted_start m creator s j args entryAddress rest rooted free notOwn shell
  obtain ⟨_, flag, first⟩ := start_list .syscall creator s j args entryAddress m
  refine ⟨?_, ⟨?_, counted.lawful⟩, ?_, ?_⟩
  · intro p
    simp only [start_pcb_state, start_history, live]
    by_cases here : j = p
    · subst here
      simp
    · rw [Function.update_of_ne (Ne.symm here), counted.slots p]
      simp [here]
  · rw [← counted.slots j, free]
  · intro p own
    simp only [start_parent] at own
    split at own
    · rename_i here
      have same : s = p := Option.some.inj own
      exact absurd (here.symm.trans same.symm) (other s List.mem_cons_self)
    · exact counted.parents p own
  · rcases outcome with rfl | rfl
    · exact ⟨⟨flag, shell ▸ first⟩, j, s :: rest, rfl, ⟨next.nested, next.own, next.pid, next.root⟩, Or.inl rfl⟩
    · trivial

theorem base_not_child (m : Machine) (s : Slot) (rest : List Slot) (rooted : Rooted m s rest) (listed : BaseListed m) :
    m.firstShell s ↔ s = firstSlot := by
  rw [Machine.firstShell, listed.first, rooted.own]
  exact ⟨fun same => (Option.some.inj same).symm, fun same => congrArg some same.symm⟩

theorem rooted_finish (q parent : Slot) (rest : List Slot) (status : UInt8) (m : Machine)
    (rooted : Rooted m q (parent :: rest)) :
    ∃ above, Rooted (m.finishHalt q status) (m.pcbs parent).pid above ∧
      (parent = (m.pcbs parent).pid ∨ (m.pcbs parent).pid = firstSlot) := by
  have inner := nested_finish _ q parent rest status m rooted.nested rooted.own
  obtain ⟨caller, _, finished⟩ := finish_halt_returns _ q parent rest status m rooted.nested
  have pids : ∀ p, ((m.finishHalt q status).pcbs p).pid = (m.pcbs p).pid := by
    intro p
    rw [finished]
  have root : (parent :: rest).getLast? = some firstSlot := by
    rw [← List.getLast?_cons_cons]
    exact rooted.root
  rcases rooted.pid parent (by simp) with own | first
  · refine ⟨rest, ?_, Or.inl own.symm⟩
    rw [own]
    refine ⟨inner, (pids parent).trans own, ?_, root⟩
    intro p member
    rw [pids p]
    exact rooted.pid p (List.mem_cons_of_mem _ member)
  · refine ⟨[], ?_, Or.inr first⟩
    have firstPid := (pids firstSlot).trans (rooted_first_pid m q (parent :: rest) rooted)
    rw [first]
    refine ⟨⟨List.nodup_singleton _, ?_, List.isChain_singleton _⟩, firstPid, ?_, rfl⟩
    · simpa using inner.used firstSlot (List.mem_of_getLast? root)
    · simpa using firstPid

theorem rooted_note (m : Machine) (s : Slot) (rest : List Slot) (entry : Note) (rooted : Rooted m s rest) :
    Rooted (m.note entry) s rest :=
  rooted_transfer m _ s rest rooted
    (nested_transfer _ m _ (s :: rest) rooted.nested rooted.nested.used (fun _ _ => rfl) fun _ _ => ⟨rfl, rfl⟩) fun _ => rfl

theorem listed_leave (m : Machine) (s : Slot) (listed : BaseListed m) (notFirst : ¬ m.firstShell s) :
    BaseListed (m.leave s) := by
  obtain ⟨flag, processes⟩ := leave_list s m
  refine ⟨flag.trans listed.flag, ?_⟩
  rw [processes, replace_entry_first]
  exact (if_neg notFirst).trans listed.first

theorem counted_finish (s : Slot) (rest : List Slot) (status : UInt8) (m left : Machine) (counted : Counted m)
    (rooted : Rooted left s rest) (listed : BaseListed left) (same : Untouched (m.note (.halted s)) left)
    (child : s ≠ firstSlot) : Counted (left.finishHalt s status) := by
  have history : left.history = .halted s :: m.history := same.history
  have slots : left.pcbState = m.pcbState := same.pcbState
  cases rest with
  | nil => exact absurd (Option.some.inj rooted.root) child
  | cons parent rest =>
      obtain ⟨above, back, whose⟩ := rooted_finish s parent rest status left rooted
      obtain ⟨caller, syscall, finished⟩ := finish_halt_returns _ s parent rest status left rooted.nested
      subst syscall
      refine ⟨?_, ?_, ?_, ?_⟩
      · intro p
        rw [finished]
        simp only [rooted.own, history, live, slots]
        by_cases here : s = p
        · subst here
          simp
        · rw [Function.update_of_ne (Ne.symm here)]
          simpa [here] using counted.slots p
      · rw [finished]
        simpa only [SlotsLawful, history] using counted.lawful
      · intro p own
        rw [finished] at own
        exact counted.parents p ((same.parent p).symm.trans own)
      · have control : (left.finishHalt s status).control = .user parent := by
          rw [finished]
          rfl
        have esp0 : (left.finishHalt s status).esp0 = kernelStackTop (left.pcbs parent).pid := by rw [finished]
        have stillListed : BaseListed (left.finishHalt s status) := by
          rw [finished]
          exact ⟨listed.flag, listed.first⟩
        exact grounded_user _ parent _ above control stillListed esp0 back whose

theorem counted_halt (image : Image) (exeData : Bytes) (status : UInt8) (s : Slot) (rest : List Slot) (m : Machine)
    (counted : Counted m) (rooted : Rooted m s rest) (listed : BaseListed m) (child : s ≠ firstSlot) :
    ∃ halted, m.halt image exeData status s s = some halted ∧ Counted halted := by
  have untouched := leave_untouched s (m.note (.halted s))
  have noted := rooted_note m s rest (.halted s) rooted
  have left := rooted_transfer _ _ s rest noted (nested_untouched _ _ _ (s :: rest) noted.nested untouched) untouched.pid
  have inUse : m.pcbState (m.pcbs s).pid = true := by
    rw [rooted.own]
    exact rooted.nested.used s List.mem_cons_self
  have notFirst : ¬ m.firstShell s := fun first => child ((base_not_child m s rest rooted listed).mp first)
  have stillListed := listed_leave (m.note (.halted s)) s ⟨listed.flag, listed.first⟩ notFirst
  exact ⟨_, halt_returns image exeData status s s m inUse notFirst,
    counted_finish s rest status m _ counted left stillListed untouched child⟩

theorem counted_launch (image : Image) (exeData : Bytes) (creator : Option Slot) (command : CString) (p s : Slot)
    (rest : List Slot) (m : Machine) (counted : Counted m) (rooted : Rooted m s rest) (listed : BaseListed m)
    (running : m.control = .user p) (stack : m.esp0 = kernelStackTop s) (whose : p = s ∨ s = firstSlot) :
    Counted (m.launch image exeData .syscall creator s command).2 := by
  rcases launch_cases image exeData .syscall creator s command m with
    ⟨_, refusal, refused, same | ⟨same, full⟩⟩ | ⟨program, j, _, free, control, outcome, started⟩
  · rw [refused, same]
    exact counted
  · have control : (m.note .refused).control = .user p := running
    rw [refused, same]
    refine ⟨counted.slots, ⟨fun q => (counted.slots q).symm.trans (full q), counted.lawful⟩, counted.parents, ?_⟩
    exact grounded_user _ p s rest control ⟨listed.flag, listed.first⟩ stack (rooted_note m s rest .refused rooted) whose
  · rw [started]
    exact counted_start m creator s j _ _ rest counted rooted listed (free_slot_free _ j free) control outcome

theorem counted_execute (image : Image) (exeData : Bytes) (command : CString) (p s : Slot) (rest : List Slot) (m : Machine)
    (counted : Counted m) (rooted : Rooted m s rest) (listed : BaseListed m) (running : m.control = .user p)
    (stack : m.esp0 = kernelStackTop s) (whose : p = s ∨ s = firstSlot)
    (safe : (!overruns command && ((firstWord command).bytes = [] || !isQuit command || !decide (m.firstShell s))) = true) :
    Counted (m.execute image exeData (some command) p s) := by
  obtain ⟨fits, rest'⟩ := Bool.and_eq_true_iff.mp safe
  have inside : ¬ overruns command = true := by simpa using fits
  simp only [Machine.execute, if_neg inside]
  split
  · exact counted
  · rename_i nonempty
    split
    · rename_i quit
      have child : s ≠ firstSlot := by
        have notFirst : ¬ m.firstShell s := by simpa [nonempty, quit] using rest'
        exact fun base => notFirst ((base_not_child m s rest rooted listed).mpr base)
      have same : p = s := whose.resolve_right child
      subst same
      obtain ⟨halted, done, result⟩ := counted_halt image exeData 0 p rest m counted rooted listed child
      rw [done]
      exact result
    · exact counted_launch image exeData (some p) command p s rest m counted rooted listed running stack whose

theorem counted_enter (m : Machine) (p s : Slot) (rest : List Slot) (counted : Counted m) (rooted : Rooted m s rest)
    (listed : BaseListed m) (running : m.control = .user p) (stack : m.esp0 = kernelStackTop s)
    (whose : p = s ∨ s = firstSlot) : m.current = s ∧ Rooted m.enter s rest ∧ Counted m.enter := by
  have here : m.current = s := by rw [Machine.current, stack, slot_at_stack]
  have entered : Rooted m.enter s rest :=
    rooted_transfer m _ s rest rooted (nested_enter _ m s rest rooted.nested here) fun _ => rfl
  have control : m.enter.control = .user p := running
  refine ⟨here, entered, counted.slots, counted.lawful, counted.parents, ?_⟩
  exact grounded_user _ p s rest control ⟨listed.flag, listed.first⟩ stack entered whose

theorem counted_step (image : Image) (m : Machine) (event : Event) (counted : Counted m)
    (admitted : baseLives m event = true ∧ event.isTask = true) : Counted (step image m event) := by
  obtain ⟨safe, task⟩ := admitted
  have grounded := counted.grounded
  apply step_rule image m event Counted counted
  case execute =>
    rintro p command exeData control rfl
    simp only [Grounded, control] at grounded
    obtain ⟨listed, s, rest, stack, rooted, whose⟩ := grounded
    obtain ⟨here, entered, ready⟩ := counted_enter m p s rest counted rooted listed control stack whose
    rw [here]
    cases command with
    | none => exact ready
    | some command =>
        simp only [baseLives, control, here] at safe
        exact counted_execute image exeData command p s rest m.enter ready entered ⟨listed.flag, listed.first⟩ control stack
          whose safe
  case halt =>
    rintro p status exeData control rfl
    simp only [Grounded, control] at grounded
    obtain ⟨listed, s, rest, stack, rooted, whose⟩ := grounded
    obtain ⟨here, entered, ready⟩ := counted_enter m p s rest counted rooted listed control stack whose
    simp only [baseLives, control, here] at safe
    have notFirst : ¬ m.firstShell s := by simpa using safe
    have child : s ≠ firstSlot := fun base => notFirst ((base_not_child m s rest rooted listed).mpr base)
    have same : p = s := whose.resolve_right child
    subst same
    obtain ⟨halted, done, result⟩ :=
      counted_halt image exeData status p rest m.enter ready entered ⟨listed.flag, listed.first⟩ child
    rw [here, done]
    exact result
  case switch =>
    rintro p termId exeData _ rfl
    cases task
  case idle =>
    rintro termId exeData _ rfl
    cases task
  case proceed =>
    intro q status control
    simp only [Grounded, control] at grounded

theorem boot_counted (image : Image) (exeData : Bytes) (paging : Tables) (devices : Devices) :
    Counted (boot image exeData paging devices) := by
  rw [boot]
  rcases launch_cases image exeData .kernel none firstSlot shellCommand (powerOn paging devices) with
    ⟨_, refusal, refused, same | ⟨same, full⟩⟩ | ⟨program, j, _, free, control, outcome, started⟩
  · rw [refused, same]
    exact ⟨fun _ => rfl, trivial, by simp [powerOn, emptyPcb], trivial⟩
  · cases full firstSlot
  · have first : firstSlot = j := Option.some.inj ((free_slot_boot _ fun _ => rfl).symm.trans free)
    subst first
    obtain ⟨_, flag, head⟩ := start_list .kernel none firstSlot firstSlot (arguments shellCommand) program.entryAddress
      (powerOn paging devices)
    rw [started]
    refine ⟨?_, ⟨rfl, trivial⟩, ?_, ?_⟩
    · intro p
      simp only [start_pcb_state, start_history, live]
      by_cases here : firstSlot = p
      · subst here
        simp
      · rw [Function.update_of_ne (Ne.symm here)]
        simp [here, powerOn, live]
    · intro j own
      simp only [start_parent] at own
      split at own
      · rename_i here
        exact here
      · cases own
    · rcases outcome with rfl | rfl
      · have pid : (((powerOn paging devices).start .kernel none firstSlot firstSlot (arguments shellCommand)
            program.entryAddress).pcbs firstSlot).pid = firstSlot := by
          rw [start_pid, if_neg (by simp [powerOn, emptyPcb]), if_pos rfl]
        refine ⟨⟨flag, head⟩, firstSlot, [], rfl, ⟨⟨List.nodup_singleton _, ?_, List.isChain_singleton _⟩, pid, ?_,
          rfl⟩, Or.inl rfl⟩
        · simp
        · simpa using pid
      · trivial

theorem base_halt_keeps_slot : ¬ Conserved (Run.final (step shellImage) shellBoot [haltCall]) := by
  intro conserved
  have taken : (Run.final (step shellImage) shellBoot [haltCall]).pcbState firstSlot = true := by decide +kernel
  have halted : live (Run.final (step shellImage) shellBoot [haltCall]).history firstSlot = false := by decide +kernel
  have alive := (conserved.slots firstSlot).mp taken
  rw [halted] at alive
  cases alive

theorem slots_conserved (image : Image) (exeData : Bytes) (paging : Tables) (devices : Devices) (events : List Event)
    (tasks : ∀ event ∈ events, event.isTask = true)
    (safe : Run.Guarded (step image) (fun m event => baseLives m event = true) (boot image exeData paging devices) events) :
    Conserved (Run.final (step image) (boot image exeData paging devices) events) :=
  counted_conserved _ (Run.guarded_invariant (step image) _ Counted (fun m event => counted_step image m event) _ events
    (boot_counted image exeData paging devices)
    (Run.guarded_and (step image) _ _ _ events safe (Run.guarded_all (step image) _ _ events tasks)))

def fullTable : List Event := List.replicate 6 shellCall ++ [haltCall, shellCall, haltCall]

theorem slots_conserved_full :
    live (Run.final (step shellImage) shellBoot fullTable).history 5 = false ∧
      Conserved (Run.final (step shellImage) shellBoot fullTable) :=
  ⟨by decide +kernel, slots_conserved shellImage _ _ _ fullTable (by decide) (by decide +kernel)⟩

end SimpleKernel.Process
