import SimpleKernel.Paging.Mapped
import SimpleKernel.Process.Nesting

set_option autoImplicit false

namespace SimpleKernel.Process

open BitField (get)
open FileSystem (Image)
open Files (Devices)
open Keyboard (Term)
open Paging (Tables pageSwitch userIdx present pageSize userSupervisor bit10Addr size8mb size4mb)

def creatorOf : List Note → Slot → Option Slot
  | [], _ => none
  | .started slot creator _ :: older, child => if slot = child then creator else creatorOf older child
  | .halted _ :: older, child => creatorOf older child
  | .resumed _ _ _ :: older, child => creatorOf older child
  | .refused :: older, child => creatorOf older child

def ResumesCreators : List Note → Prop
  | [] => True
  | .started _ _ _ :: older => ResumesCreators older
  | .halted _ :: older => ResumesCreators older
  | .resumed child parent _ :: older => creatorOf older child = some parent ∧ ResumesCreators older
  | .refused :: older => ResumesCreators older

structure InPlace (p : Slot) (m : Machine) : Prop where
  pid : (m.pcbs p).pid = p
  mapped : get present (m.paging.pageDirectory userIdx) = 1 ∧ get pageSize (m.paging.pageDirectory userIdx) = 1 ∧
    get userSupervisor (m.paging.pageDirectory userIdx) = 1
  page : get bit10Addr (m.paging.pageDirectory userIdx) * 2 ^ 22 = size8mb + size4mb * p.val
  stack : m.esp0 = kernelStackTop p

structure Unmixed (m : Machine) : Prop where
  inPlace : ∀ p, m.control = .user p → InPlace p m
  creators : ResumesCreators m.history
  known : m.control ≠ .lost

-- The store through the old parent pointer of slot j reaches no process that
-- is alive, or writes the number that is there.
def Machine.staleHarmless (j shell : Slot) (m : Machine) : Prop :=
  ∀ r, (m.pcbs j).parent = some r → (r ≠ j ∧ m.pcbState r = false) ∨ r = shell

instance (j shell : Slot) (m : Machine) : Decidable (m.staleHarmless j shell) :=
  inferInstanceAs (Decidable (∀ r, (m.pcbs j).parent = some r → (r ≠ j ∧ m.pcbState r = false) ∨ r = shell))

def Machine.starts (image : Image) (exeData : Bytes) (command : CString) (m : Machine) : Bool :=
  (findProgram image exeData (firstWord command)).isSome && (freeSlot m.pcbState).isSome

def Machine.launchSafe (image : Image) (exeData : Bytes) (command : CString) (shell : Slot → Slot) (m : Machine) : Bool :=
  match findProgram image exeData (firstWord command), freeSlot m.pcbState with
  | some _, some j => decide (m.staleHarmless j (shell j))
  | _, _ => true

def Machine.haltSafe (image : Image) (exeData : Bytes) (q : Slot) (m : Machine) : Bool :=
  if m.firstShell q ∧ m.starts image exeData shellCommand then m.launchSafe image exeData shellCommand id
  else decide ((m.pcbs q).parent ≠ some q)

def Machine.executeSafe (image : Image) (exeData : Bytes) (command : Option CString) (q : Slot) (m : Machine) : Bool :=
  match command with
  | none => true
  | some command =>
      if overruns command then false
      else if (firstWord command).bytes = [] then true
      else if isQuit command then m.haltSafe image exeData q
      else m.launchSafe image exeData command m.shellEntry

def admits (image : Image) (m : Machine) (event : Event) : Bool :=
  match m.control, event with
  | .user _, .execute command exeData => m.executeSafe image exeData command m.current
  | .user _, .halt _ exeData => m.haltSafe image exeData m.current
  | .user _, .displaySwitch termId exeData =>
      !(m.terminals termId).terminalFlag || m.launchSafe image exeData shellCommand id
  | .idle, .displaySwitch termId exeData =>
      !(m.terminals termId).terminalFlag || m.launchSafe image exeData shellCommand id
  | .halting q _, .proceed => decide ((m.pcbs q).parent ≠ some q)
  | _, _ => true

structure Own (m : Machine) (chain : List Slot) : Prop where
  nested : Nested (· ≠ .kernel) m chain
  pid : ∀ p ∈ chain, (m.pcbs p).pid = p
  creator : chain.IsChain fun child parent => creatorOf m.history child = some parent
  base : ∀ p, chain.getLast? = some p → (m.pcbs p).parent = some p

def Placed (m : Machine) : Prop :=
  match m.control with
  | .user p => InPlace p m ∧ ∃ rest, Own m (p :: rest)
  | .halting q _ => ∃ rest, Own m (q :: rest)
  | .idle => ∀ p, m.pcbState p = false
  | .faulted => True
  | .lost => False

structure Settled (m : Machine) : Prop where
  placed : Placed m
  creators : ResumesCreators m.history

theorem settled_unmixed (m : Machine) (settled : Settled m) : Unmixed m := by
  obtain ⟨placed, creators⟩ := settled
  refine ⟨?_, creators, ?_⟩
  · intro p running
    simp only [Placed, running] at placed
    exact placed.1
  · intro lost
    simp only [Placed, lost] at placed

theorem settled_user (p : Slot) (rest : List Slot) (m : Machine) (running : m.control = .user p) (inPlace : InPlace p m)
    (own : Own m (p :: rest)) (creators : ResumesCreators m.history) : Settled m := by
  refine ⟨?_, creators⟩
  simp only [Placed, running]
  exact ⟨inPlace, rest, own⟩

theorem settled_halting (q : Slot) (status : UInt8) (rest : List Slot) (m : Machine) (inside : m.control = .halting q status)
    (own : Own m (q :: rest)) (creators : ResumesCreators m.history) : Settled m := by
  refine ⟨?_, creators⟩
  simp only [Placed, inside]
  exact ⟨rest, own⟩

theorem settled_idle (m : Machine) (idle : m.control = .idle) (unused : ∀ p, m.pcbState p = false)
    (creators : ResumesCreators m.history) : Settled m := by
  refine ⟨?_, creators⟩
  simp only [Placed, idle]
  exact unused

theorem page_switch_user (p : Slot) (paging : Tables) :
    let entry := (pageSwitch p.val paging).pageDirectory userIdx
    get present entry = 1 ∧ get pageSize entry = 1 ∧ get userSupervisor entry = 1 ∧
      get bit10Addr entry * 2 ^ 22 = size8mb + size4mb * p.val := by
  have small := p.isLt
  have inRange : ¬ ((p.val : Int) < 0 ∨ (p.val : Int) ≥ 8) := by omega
  have fields := Paging.page_switch_entry_fields p.val (paging.pageDirectory userIdx) (by omega) (by omega)
  rw [pageSwitch, if_neg inRange]
  simp only [Function.update_self]
  refine ⟨fields.1, fields.2.1, fields.2.2.1, ?_⟩
  rw [fields.2.2.2, Int.toNat_natCast]
  simp only [size8mb, size4mb]
  omega

theorem own_transfer (m m' : Machine) (chain : List Slot) (own : Own m chain)
    (used : ∀ p ∈ chain, m'.pcbState p = true) (parents : ∀ p ∈ chain, (m'.pcbs p).parent = (m.pcbs p).parent)
    (pids : ∀ p ∈ chain, (m'.pcbs p).pid = (m.pcbs p).pid)
    (frames : ∀ p ∈ chain.tail, m'.pending p = m.pending p ∧ (m'.pcbs p).kbp = (m.pcbs p).kbp)
    (creators : ∀ p ∈ chain, creatorOf m'.history p = creatorOf m.history p) : Own m' chain := by
  refine ⟨nested_transfer _ m m' chain own.nested used parents frames, ?_, ?_, ?_⟩
  · intro p member
    rw [pids p member, own.pid p member]
  · refine List.IsChain.imp_of_mem_imp ?_ own.creator
    intro child parent member _ created
    rw [creators child member, created]
  · intro p last
    rw [parents p (List.mem_of_getLast? last), own.base p last]

theorem own_enter (m : Machine) (p : Slot) (rest : List Slot) (own : Own m (p :: rest)) (here : m.current = p) :
    Own m.enter (p :: rest) :=
  ⟨nested_enter _ m p rest own.nested here, own.pid, own.creator, own.base⟩

theorem own_note (m : Machine) (chain : List Slot) (entry : Note) (own : Own m chain)
    (same : ∀ p, creatorOf (entry :: m.history) p = creatorOf m.history p) : Own (m.note entry) chain :=
  own_transfer m (m.note entry) chain own own.nested.used (fun _ _ => rfl) (fun _ _ => rfl) (fun _ _ => ⟨rfl, rfl⟩)
    (fun p _ => same p)

theorem own_untouched (m m' : Machine) (chain : List Slot) (own : Own m chain) (same : Untouched m m') : Own m' chain :=
  own_transfer m m' chain own (fun p member => same.pcbState ▸ own.nested.used p member) (fun p _ => same.parent p)
    (fun p _ => same.pid p) (fun p _ => ⟨congrFun same.pending p, same.kbp p⟩) (fun _ _ => by rw [same.history])

-- A start from a chain puts the new process on top of it. No number changes:
-- the process the old parent pointer names is not alive, or is the shell.
theorem own_start (m : Machine) (caller : Caller) (q j : Slot) (args : List UInt8) (entryAddress : Nat) (rest : List Slot)
    (own : Own m (q :: rest)) (fromProcess : caller ≠ .kernel) (free : m.pcbState j = false)
    (harmless : m.staleHarmless j (m.shellEntry j)) :
    Own (m.start caller (some q) q j args entryAddress) (j :: q :: rest) := by
  have fresh : ∀ p ∈ q :: rest, p ≠ j := by
    rintro p member rfl
    rw [own.nested.used p member] at free
    cases free
  refine ⟨nested_start _ m caller (some q) q j args entryAddress rest own.nested fromProcess free, ?_, ?_, ?_⟩
  · intro p member
    rw [start_pid]
    split
    · rename_i stale
      rcases harmless p stale with dead | shell
      · cases member with
        | head => exact absurd rfl dead.1
        | tail _ older =>
            rw [own.nested.used p older] at dead
            cases dead.2
      · exact shell.symm
    · cases member with
      | head => rw [if_pos rfl]
      | tail _ older => rw [if_neg (fresh p older), own.pid p older]
  · refine List.isChain_cons_cons.mpr ⟨?_, List.IsChain.imp_of_mem_imp ?_ own.creator⟩
    · rw [start_history, creatorOf, if_pos rfl]
    · intro child parent member _ created
      rw [start_history, creatorOf, if_neg (Ne.symm (fresh child member)), created]
  · intro p last
    rw [List.getLast?_cons_cons] at last
    rw [start_parent, if_neg (fresh p (List.mem_of_getLast? last)), own.base p last]

theorem in_place_start (m : Machine) (caller : Caller) (creator : Option Slot) (q j : Slot) (args : List UInt8)
    (entryAddress : Nat) (harmless : m.staleHarmless j (m.shellEntry j)) :
    InPlace j (m.start caller creator q j args entryAddress) := by
  obtain ⟨here, big, user, page⟩ := page_switch_user j m.paging
  refine ⟨?_, ⟨here, big, user⟩, page, rfl⟩
  rw [start_pid]
  split
  · rename_i stale
    rcases harmless j stale with dead | shell
    · exact absurd rfl dead.1
    · exact shell.symm
  · rw [if_pos rfl]

theorem settled_start (m : Machine) (caller : Caller) (q j : Slot) (args : List UInt8) (entryAddress : Nat) (rest : List Slot)
    (own : Own m (q :: rest)) (creators : ResumesCreators m.history) (fromProcess : caller ≠ .kernel)
    (free : m.pcbState j = false) (harmless : m.staleHarmless j (m.shellEntry j)) :
    Settled (m.start caller (some q) q j args entryAddress) := by
  refine ⟨?_, creators⟩
  simp only [Placed, start_control]
  exact ⟨in_place_start m caller (some q) q j args entryAddress harmless, q :: rest,
    own_start m caller q j args entryAddress rest own fromProcess free harmless⟩

theorem settled_started (m : Machine) (caller : Caller) (creator : Option Slot) (q j : Slot) (args : List UInt8)
    (entryAddress : Nat) (control : Control) (outcome : control = .user j ∨ control = .faulted)
    (settled : Settled (m.start caller creator q j args entryAddress)) :
    Settled { m.start caller creator q j args entryAddress with control := control } := by
  rcases outcome with rfl | rfl
  · exact settled
  · exact ⟨trivial, settled.creators⟩

theorem settled_start_first (m : Machine) (caller : Caller) (creator : Option Slot) (args : List UInt8) (entryAddress : Nat)
    (creators : ResumesCreators m.history) (harmless : m.staleHarmless firstSlot (m.shellEntry firstSlot)) :
    Settled (m.start caller creator firstSlot firstSlot args entryAddress) := by
  refine ⟨?_, creators⟩
  have inPlace := in_place_start m caller creator firstSlot firstSlot args entryAddress harmless
  simp only [Placed, start_control]
  refine ⟨inPlace, [], ⟨List.nodup_singleton _, ?_, List.isChain_singleton _⟩, ?_, List.isChain_singleton _, ?_⟩
  · simp
  · simpa using inPlace.pid
  · intro p last
    have same : firstSlot = p := by simpa using last
    rw [← same, start_parent, if_pos rfl]

theorem settled_finish (q : Slot) (rest : List Slot) (status : UInt8) (m : Machine) (own : Own m (q :: rest))
    (creators : ResumesCreators m.history) (created : (m.pcbs q).parent ≠ some q) : Settled (m.finishHalt q status) := by
  cases rest with
  | nil => exact absurd (own.base q rfl) created
  | cons parent rest =>
      have inner := nested_finish _ q parent rest status m own.nested (own.pid q List.mem_cons_self)
      obtain ⟨caller, returning, finished⟩ := finish_halt_returns _ q parent rest status m own.nested
      have parentPid : (m.pcbs parent).pid = parent := own.pid parent (by simp)
      obtain ⟨resumed, waiting⟩ := List.isChain_cons_cons.mp own.creator
      have remaining : Own (m.finishHalt q status) (parent :: rest) := by
        refine ⟨inner, ?_, ?_, ?_⟩
        · intro p member
          rw [finished]
          exact own.pid p (List.mem_cons_of_mem _ member)
        · rw [finished]
          exact waiting
        · intro p last
          rw [finished]
          exact own.base p (by rw [List.getLast?_cons_cons]; exact last)
      have history : ResumesCreators (m.finishHalt q status).history := by
        rw [finished]
        exact ⟨resumed, creators⟩
      have inPlace : InPlace parent (m.finishHalt q status) := by
        obtain ⟨here, big, user, page⟩ := page_switch_user parent m.paging
        rw [finished, parentPid]
        exact ⟨parentPid, ⟨here, big, user⟩, page, rfl⟩
      have control : (m.finishHalt q status).control = caller.back parent := by rw [finished]
      cases caller with
      | kernel => exact absurd rfl returning
      | syscall => exact settled_user parent rest _ control inPlace remaining history
      | displaySwitch => exact settled_user parent rest _ control inPlace remaining history
      | halt waitingStatus => exact settled_halting parent waitingStatus rest _ control remaining history

theorem launch_safe_start (image : Image) (exeData : Bytes) (command : CString) (shell : Slot → Slot) (m : Machine)
    (program : Program) (j : Slot) (safe : m.launchSafe image exeData command shell = true)
    (found : findProgram image exeData (firstWord command) = some program) (free : freeSlot m.pcbState = some j) :
    m.staleHarmless j (shell j) := by
  simpa [Machine.launchSafe, found, free] using safe

theorem settled_launch (image : Image) (exeData : Bytes) (caller : Caller) (command : CString) (p : Slot) (rest : List Slot)
    (m : Machine) (running : m.control = .user p) (inPlace : InPlace p m) (own : Own m (p :: rest))
    (creators : ResumesCreators m.history) (fromProcess : caller ≠ .kernel)
    (safe : m.launchSafe image exeData command m.shellEntry = true) :
    Settled (m.launch image exeData caller (some p) p command).2 := by
  rcases launch_cases image exeData caller (some p) p command m with
    ⟨_, refusal, refused, same | ⟨same, _⟩⟩ | ⟨program, j, found, free, control, outcome, started⟩
  · rw [refused, same]
    exact settled_user p rest m running inPlace own creators
  · have ready : InPlace p (m.note .refused) := ⟨inPlace.pid, inPlace.mapped, inPlace.page, inPlace.stack⟩
    rw [refused, same]
    exact settled_user p rest _ running ready (own_note m _ .refused own fun _ => rfl) creators
  · have harmless := launch_safe_start image exeData command _ m program j safe found free
    rw [started]
    refine settled_started m caller _ p j _ _ control outcome ?_
    exact settled_start m caller p j _ _ rest own creators fromProcess (free_slot_free _ j free) harmless

theorem restart_shell_entry (q j : Slot) (m : Machine) (first : m.firstShell q) : (m.leave q).shellEntry j = j := by
  have emptied : (m.leave q).active.processes 0 = none := by
    rw [(leave_list q m).2, replace_entry_first]
    exact if_pos first
  rw [Machine.shellEntry, emptied]
  split <;> rfl

theorem stale_harmless_untouched (m m' : Machine) (j shell : Slot) (same : Untouched m m')
    (harmless : m.staleHarmless j shell) :
    m'.staleHarmless j shell := by
  intro r stale
  rw [same.parent] at stale
  rw [same.pcbState]
  exact harmless r stale

theorem settled_restart (image : Image) (exeData : Bytes) (status : UInt8) (p : Slot) (rest : List Slot) (m left : Machine)
    (own : Own left (p :: rest)) (creators : ResumesCreators left.history) (same : Untouched (m.note (.halted p)) left)
    (shell : ∀ j, left.shellEntry j = j) (first : m.firstShell p) (safe : m.haltSafe image exeData p = true) :
    let restarted := left.launch image exeData (.halt status) (some p) p shellCommand
    Settled (if restarted.1 then restarted.2 else restarted.2.finishHalt p status) := by
  have slots : left.pcbState = m.pcbState := same.pcbState
  have parent : (left.pcbs p).parent = (m.pcbs p).parent := same.parent p
  rcases launch_cases image exeData (.halt status) (some p) p shellCommand left with
    ⟨absent, refusal, refused, outcome⟩ | ⟨program, j, found, free, control, outcome, started⟩
  · have stays : ¬ (m.firstShell p ∧ m.starts image exeData shellCommand = true) := by
      rw [slots] at absent
      rintro ⟨_, starts⟩
      rcases absent with missing | full
      · simp [Machine.starts, missing] at starts
      · simp [Machine.starts, full] at starts
    have created : (m.pcbs p).parent ≠ some p := by
      simpa [Machine.haltSafe, stays] using safe
    simp only [refused, Bool.false_eq_true, if_false]
    rcases outcome with rfl | ⟨rfl, _⟩
    · exact settled_finish p rest status _ own creators (parent ▸ created)
    · exact settled_finish p rest status _ (own_note _ _ .refused own fun _ => rfl) creators (parent ▸ created)
  · have starts : m.firstShell p ∧ m.starts image exeData shellCommand = true := by
      rw [slots] at free
      exact ⟨first, by simp [Machine.starts, found, free]⟩
    have launchSafe : m.launchSafe image exeData shellCommand id = true := by
      simpa only [Machine.haltSafe, starts, and_self, if_true] using safe
    have harmless := launch_safe_start image exeData shellCommand id m program j launchSafe found (slots ▸ free)
    simp only [started, if_true]
    refine settled_started left (.halt status) _ p j _ _ control outcome ?_
    refine settled_start left (.halt status) p j _ _ rest own creators (by simp) (free_slot_free _ j free) ?_
    rw [shell j]
    exact stale_harmless_untouched (m.note (.halted p)) left j j same harmless

theorem settled_halt (image : Image) (exeData : Bytes) (status : UInt8) (p : Slot) (rest : List Slot) (m : Machine)
    (own : Own m (p :: rest)) (creators : ResumesCreators m.history) (safe : m.haltSafe image exeData p = true) :
    ∃ halted, m.halt image exeData status p p = some halted ∧ Settled halted := by
  have untouched := leave_untouched p (m.note (.halted p))
  have left := own_untouched _ _ (p :: rest) (own_note m (p :: rest) (.halted p) own fun _ => rfl) untouched
  have leftCreators : ResumesCreators ((m.note (.halted p)).leave p).history := untouched.history ▸ creators
  have inUse : m.pcbState (m.pcbs p).pid = true := by
    rw [own.pid p List.mem_cons_self]
    exact own.nested.used p List.mem_cons_self
  by_cases first : m.firstShell p
  · exact ⟨_, halt_restarts image exeData status p p m inUse first,
      settled_restart image exeData status p rest m _ left leftCreators untouched
        (fun j => restart_shell_entry p j (m.note (.halted p)) first) first safe⟩
  · have created : (m.pcbs p).parent ≠ some p := by
      simpa [Machine.haltSafe, first] using safe
    have leftCreated : (((m.note (.halted p)).leave p).pcbs p).parent ≠ some p := by
      rw [untouched.parent p]
      exact created
    exact ⟨_, halt_returns image exeData status p p m inUse first,
      settled_finish p rest status _ left leftCreators leftCreated⟩

theorem in_place_current (p : Slot) (m : Machine) (inPlace : InPlace p m) : m.current = p := by
  rw [Machine.current, inPlace.stack, slot_at_stack]

theorem in_place_enter (p : Slot) (m : Machine) (inPlace : InPlace p m) : InPlace p m.enter :=
  ⟨inPlace.pid, inPlace.mapped, inPlace.page, inPlace.stack⟩

theorem settled_execute (image : Image) (exeData : Bytes) (command : Option CString) (p : Slot) (rest : List Slot)
    (m : Machine)
    (running : m.control = .user p) (inPlace : InPlace p m) (own : Own m (p :: rest)) (creators : ResumesCreators m.history)
    (safe : m.executeSafe image exeData command p = true) : Settled (m.execute image exeData command p p) := by
  have stays : Settled m := settled_user p rest m running inPlace own creators
  cases command with
  | none => exact stays
  | some command =>
      simp only [Machine.executeSafe] at safe
      simp only [Machine.execute]
      split at safe
      · cases safe
      · rename_i fits
        rw [if_neg fits]
        split at safe
        · rename_i empty
          rw [if_pos empty]
          exact stays
        · rename_i nonempty
          rw [if_neg nonempty]
          split at safe
          · rename_i quit
            obtain ⟨halted, done, settled⟩ := settled_halt image exeData 0 p rest m own creators safe
            rw [if_pos quit, done]
            exact settled
          · rename_i other
            rw [if_neg other]
            exact settled_launch image exeData .syscall command p rest m running inPlace own creators (by simp) safe

theorem switch_to_pcb (termId : Term) (q p : Slot) (m : Machine) :
    ((m.switchTo termId q).pcbs p).pid = (m.pcbs p).pid ∧ ((m.switchTo termId q).pcbs p).parent = (m.pcbs p).parent ∧
      (p ≠ q → ((m.switchTo termId q).pcbs p).kbp = (m.pcbs p).kbp) := by
  have changed : (m.switchTo termId q).pcbs p = if p = q then { m.pcbs p with kbp := none } else m.pcbs p :=
    modify_pcb_pcbs q p (fun pcb => { pcb with kbp := none }) m
  rw [changed]
  split
  · rename_i here
    exact ⟨rfl, rfl, fun apart => absurd here apart⟩
  · exact ⟨rfl, rfl, fun _ => rfl⟩

theorem switch_launch_safe (image : Image) (exeData : Bytes) (termId : Term) (q : Slot) (m : Machine)
    (flag : (m.terminals termId).terminalFlag = true) (safe : m.launchSafe image exeData shellCommand id = true) :
    (m.switchTo termId q).launchSafe image exeData shellCommand (m.switchTo termId q).shellEntry = true := by
  cases found : findProgram image exeData (firstWord shellCommand) with
  | none => simp [Machine.launchSafe, found]
  | some program =>
      cases free : freeSlot m.pcbState with
      | none =>
          have full : freeSlot (m.switchTo termId q).pcbState = none := free
          simp [Machine.launchSafe, found, full]
      | some j =>
          have harmless := launch_safe_start image exeData shellCommand id m program j safe found free
          have next : freeSlot (m.switchTo termId q).pcbState = some j := free
          have shell : (m.switchTo termId q).shellEntry j = j := if_pos flag
          have stale : (m.switchTo termId q).staleHarmless j j := by
            intro r old
            rw [(switch_to_pcb termId q j m).2.1] at old
            exact harmless r old
          simp [Machine.launchSafe, found, next, shell, stale]

theorem own_switch (termId : Term) (p : Slot) (rest : List Slot) (m : Machine) (own : Own m (p :: rest)) :
    Own (m.switchTo termId p) (p :: rest) := by
  refine own_transfer m _ (p :: rest) own own.nested.used (fun r _ => (switch_to_pcb termId p r m).2.1)
    (fun r _ => (switch_to_pcb termId p r m).1) ?_ (fun _ _ => rfl)
  intro waiting member
  have apart : waiting ≠ p := by
    rintro rfl
    exact (List.nodup_cons.mp own.nested.nodup).1 member
  exact ⟨rfl, (switch_to_pcb termId p waiting m).2.2 apart⟩

theorem settled_display_switch (image : Image) (exeData : Bytes) (termId : Term) (p : Slot) (rest : List Slot) (m : Machine)
    (running : m.control = .user p) (inPlace : InPlace p m) (own : Own m (p :: rest)) (creators : ResumesCreators m.history)
    (safe : (!(m.terminals termId).terminalFlag || m.launchSafe image exeData shellCommand id) = true) :
    Settled (m.displaySwitch image exeData termId (some p) p) := by
  have switched := own_switch termId p rest m own
  have ready : InPlace p (m.switchTo termId p) := by
    obtain ⟨here, big, user, page⟩ := page_switch_user p m.paging
    have paging : (m.switchTo termId p).paging = pageSwitch p.val m.paging := by
      rw [Machine.switchTo, inPlace.pid]
    refine ⟨(switch_to_pcb termId p p m).1.trans inPlace.pid, ?_, ?_, inPlace.stack⟩
    · rw [paging]
      exact ⟨here, big, user⟩
    · rw [paging]
      exact page
  have control : (m.switchTo termId p).control = .user p := running
  rw [Machine.displaySwitch]
  split
  · rename_i flag
    refine settled_launch image exeData .displaySwitch shellCommand p rest _ control ready switched creators (by simp) ?_
    refine switch_launch_safe image exeData termId p m flag ?_
    have flagged : (m.terminals termId).terminalFlag = true := flag
    simpa only [flagged, Bool.not_true, Bool.false_or] using safe
  · exact settled_user p rest _ control ready switched creators

theorem settled_first_launch (image : Image) (exeData : Bytes) (caller : Caller) (m : Machine) (idle : m.control = .idle)
    (unused : ∀ p, m.pcbState p = false) (creators : ResumesCreators m.history)
    (safe : m.launchSafe image exeData shellCommand m.shellEntry = true) :
    Settled (m.launch image exeData caller none firstSlot shellCommand).2 := by
  rcases launch_cases image exeData caller none firstSlot shellCommand m with
    ⟨_, refusal, refused, same | ⟨same, full⟩⟩ | ⟨program, j, found, free, control, outcome, started⟩
  · rw [refused, same]
    exact settled_idle m idle unused creators
  · have absurdity := (unused firstSlot).symm.trans (full firstSlot)
    cases absurdity
  · have harmless := launch_safe_start image exeData shellCommand _ m program j safe found free
    have first : firstSlot = j := Option.some.inj ((free_slot_boot m.pcbState unused).symm.trans free)
    subst first
    rw [started]
    refine settled_started m caller none firstSlot firstSlot _ _ control outcome ?_
    exact settled_start_first m caller none _ _ creators harmless

theorem settled_first_switch (image : Image) (exeData : Bytes) (termId : Term) (m : Machine)
    (idle : m.control = .idle) (unused : ∀ p, m.pcbState p = false) (creators : ResumesCreators m.history)
    (safe : (!(m.terminals termId).terminalFlag || m.launchSafe image exeData shellCommand id) = true) :
    Settled (m.displaySwitch image exeData termId none firstSlot) := by
  have control : (m.switchTo termId firstSlot).control = .idle := idle
  rw [Machine.displaySwitch]
  split
  · rename_i flag
    have flagged : (m.terminals termId).terminalFlag = true := flag
    refine settled_first_launch image exeData .displaySwitch _ control unused creators ?_
    refine switch_launch_safe image exeData termId firstSlot m flag ?_
    simpa only [flagged, Bool.not_true, Bool.false_or] using safe
  · exact settled_idle _ control unused creators

theorem settled_step (image : Image) (m : Machine) (event : Event) (settled : Settled m)
    (safe : admits image m event = true) :
    Settled (step image m event) := by
  have placed := settled.placed
  have creators := settled.creators
  apply step_rule image m event Settled settled
  case execute =>
    rintro p command exeData control rfl
    simp only [Placed, control] at placed
    obtain ⟨inPlace, rest, own⟩ := placed
    have here := in_place_current p m inPlace
    simp only [admits, control, here] at safe
    rw [here]
    exact settled_execute image exeData command p rest m.enter control (in_place_enter p m inPlace)
      (own_enter m p rest own here) creators safe
  case halt =>
    rintro p status exeData control rfl
    simp only [Placed, control] at placed
    obtain ⟨inPlace, rest, own⟩ := placed
    have here := in_place_current p m inPlace
    simp only [admits, control, here] at safe
    obtain ⟨halted, done, result⟩ :=
      settled_halt image exeData status p rest m.enter (own_enter m p rest own here) creators safe
    rw [here, done]
    exact result
  case switch =>
    rintro p termId exeData control rfl
    simp only [Placed, control] at placed
    obtain ⟨inPlace, rest, own⟩ := placed
    have here := in_place_current p m inPlace
    simp only [admits, control] at safe
    rw [here]
    exact settled_display_switch image exeData termId p rest m.enter control (in_place_enter p m inPlace)
      (own_enter m p rest own here) creators safe
  case idle =>
    rintro termId exeData control rfl
    simp only [Placed, control] at placed
    simp only [admits, control] at safe
    exact settled_first_switch image exeData termId m control placed creators safe
  case proceed =>
    rintro q status control rfl
    simp only [Placed, control] at placed
    obtain ⟨rest, own⟩ := placed
    simp only [admits, control, decide_eq_true_eq] at safe
    exact settled_finish q rest status m own creators safe

theorem boot_settled (image : Image) (exeData : Bytes) (paging : Tables) (devices : Devices) :
    Settled (boot image exeData paging devices) := by
  refine settled_first_launch image exeData .kernel (powerOn paging devices) rfl (fun _ => rfl) trivial ?_
  rw [Machine.launchSafe]
  split
  · have fresh : ∀ j shell, (powerOn paging devices).staleHarmless j shell := by
      intro j shell r old
      cases old
    exact decide_eq_true (fresh _ _)
  · rfl

-- A second program run from the first program: the slot it leaves still names
-- that program as parent, and the next start in it renumbers the parent.
def secondReuse : List Event := [shellCall, shellCall, haltCall, shellCall, haltCall]

theorem stale_parent_mixes : ¬ Unmixed (Run.final (step shellImage) shellBoot secondReuse) := by
  intro unmixed
  have running : (Run.final (step shellImage) shellBoot secondReuse).control = .user 1 := by decide +kernel
  have renumbered : ((Run.final (step shellImage) shellBoot secondReuse).pcbs 1).pid = 0 := by decide +kernel
  have own := (unmixed.inPlace 1 running).pid
  rw [renumbered] at own
  cases own

theorem processes_unmixed (image : Image) (exeData : Bytes) (paging : Tables) (devices : Devices) (events : List Event)
    (safe : Run.Guarded (step image) (fun m event => admits image m event = true) (boot image exeData paging devices)
      events) :
    Unmixed (Run.final (step image) (boot image exeData paging devices) events) :=
  settled_unmixed _ (Run.guarded_invariant (step image) _ Settled (fun m event => settled_step image m event) _ events
    (boot_settled image exeData paging devices) safe)

def harmlessReuse : List Event :=
  [shellCall, haltCall, shellCall, .displaySwitch Keyboard.terminal2 fun _ => 0, haltCall]

theorem processes_unmixed_reuse :
    (Run.final (step shellImage) shellBoot harmlessReuse).control = .user 3 ∧
      Unmixed (Run.final (step shellImage) shellBoot harmlessReuse) :=
  ⟨by decide +kernel, processes_unmixed shellImage _ _ _ harmlessReuse (by decide +kernel)⟩

end SimpleKernel.Process
