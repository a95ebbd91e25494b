import SimpleKernel.Process.Lists

set_option autoImplicit false

namespace SimpleKernel.Process

open FileSystem (Image)
open Files (Devices)
open Keyboard (Term terminal1)
open Paging (Tables)

-- A run beside a record of the base shells: for each terminal the last process
-- that boot, display_switch or the restart in halt started for it.
structure Session where
  machine : Machine
  shells : Term → Option Slot

def startedShell (before after : Machine) (event : Event) : Option Slot :=
  match event, after.history with
  | .displaySwitch _ _, .started j _ _ :: older => if older.length = before.history.length then some j else none
  | _, .started j _ _ :: .halted _ :: older => if older.length = before.history.length then some j else none
  | _, _ => none

def Session.follow (s : Session) (after : Machine) (event : Event) : Session where
  machine := after
  shells :=
    match startedShell s.machine after event with
    | some j => Function.update s.shells after.activeTerminal (some j)
    | none => s.shells

def Session.step (image : Image) (s : Session) (event : Event) : Session :=
  s.follow (Process.step image s.machine event) event

def Session.boot (image : Image) (exeData : Bytes) (paging : Tables) (devices : Devices) : Session where
  machine := Process.boot image exeData paging devices
  shells :=
    match (Process.boot image exeData paging devices).history with
    | .started j _ _ :: _ => Function.update (fun _ => none) terminal1 (some j)
    | _ => fun _ => none

def Session.based (s : Session) (t : Term) : Prop :=
  ∃ shell, s.shells t = some shell ∧ (s.machine.terminals t).processes 0 = some shell ∧ s.machine.alive shell

structure Tidy (s : Session) : Prop where
  exact : Placement.Exact s.machine.places s.machine.alive
  base : ∀ t, (s.machine.terminals t).terminalFlag = false → s.based t

def Machine.hasRoom (m : Machine) : Bool :=
  !m.active.terminalFlag && decide (∃ i : Fin 4, m.active.processes i = none)

-- The list that halt clears is that of the terminal on the screen; the first
-- of that list comes back only when there is a slot for a further shell.
def Machine.haltListed (image : Image) (exeData : Bytes) (q : Slot) (m : Machine) : Bool :=
  if m.firstShell q then m.starts image exeData shellCommand
  else decide (∃ i : Fin 4, m.active.processes i = some (m.pcbs q).pid)

def Machine.listable (image : Image) (m : Machine) (event : Event) : Bool :=
  match m.control, event with
  | .user _, .execute (some command) exeData =>
      if (firstWord command).bytes = [] then true
      else if isQuit command then m.haltListed image exeData m.current
      else !m.starts image exeData command || m.hasRoom
  | .user _, .halt _ exeData => m.haltListed image exeData m.current
  | _, _ => true

theorem based_leave (q : Slot) (m : Machine) (shells : Term → Option Slot) (t : Term) (roster : Roster m)
    (own : (m.pcbs q).pid = q) (listed : ∃ i : Fin 4, m.active.processes i = some q)
    (other : t ≠ m.activeTerminal ∨ ¬ m.firstShell q) (based : Session.based ⟨m, shells⟩ t) :
    Session.based ⟨(m.note (.halted q)).leave q, shells⟩ t := by
  obtain ⟨shell, known, first, here⟩ := based
  obtain ⟨i, place⟩ := listed
  have pid : ((m.note (.halted q)).pcbs q).pid = q := own
  have apart : shell ≠ q := by
    rintro rfl
    have same := Placement.exact_same_place m.places m.alive roster.exact (t, ⟨0, by decide⟩)
      (m.activeTerminal, i) shell first place
    obtain ⟨terminal, _⟩ := Prod.mk.inj same
    rcases other with elsewhere | notFirst
    · exact elsewhere terminal
    · rw [Machine.firstShell, own, Machine.active, ← terminal] at notFirst
      exact notFirst first
  refine ⟨shell, known, ?_, ?_⟩
  · dsimp only
    rw [leave_terminals, pid]
    by_cases current : t = (m.note (.halted q)).activeTerminal
    · subst current
      have kept : ¬ (m.note (.halted q)).active.processes 0 = some q := by
        intro same
        exact apart (Option.some.inj (first.symm.trans same))
      simp only [Function.update_self, replace_entry_first, if_neg kept]
      exact first
    · rw [Function.update_of_ne current]
      exact first
  · dsimp only at here ⊢
    rw [Machine.alive, (leave_untouched q (m.note (.halted q))).history]
    simp only [Machine.note, live, Bool.and_eq_true, decide_eq_true_eq]
    exact ⟨Ne.symm apart, here⟩

theorem based_start (caller : Caller) (creator : Option Slot) (q j : Slot) (args : List UInt8) (entryAddress : Nat)
    (m : Machine) (control : Control) (shells : Term → Option Slot) (t : Term)
    (started : t = m.activeTerminal → m.active.terminalFlag = false) (based : Session.based ⟨m, shells⟩ t) :
    Session.based ⟨{ m.start caller creator q j args entryAddress with control := control }, shells⟩ t := by
  obtain ⟨shell, known, first, here⟩ := based
  refine ⟨shell, known, ?_, ?_⟩
  · dsimp only at first ⊢
    rw [start_terminals, register_terminals]
    by_cases current : t = m.activeTerminal
    · have lowered := started current
      subst current
      have kept : ¬ m.active.processes 0 = none := by
        intro none
        rw [Machine.active, first] at none
        cases none
      simp only [Function.update_self, lowered, Bool.false_eq_true, if_false, replace_entry_first, if_neg kept]
      exact first
    · rw [Function.update_of_ne current]
      exact first
  · have older : live m.history shell = true := here
    simp [Machine.alive, live, older]

theorem based_new (caller : Caller) (creator : Option Slot) (q j : Slot) (args : List UInt8) (entryAddress : Nat)
    (m : Machine) (control : Control) (shells : Term → Option Slot) (new : m.shellEntry j = j) :
    Session.based ⟨{ m.start caller creator q j args entryAddress with control := control },
      Function.update shells m.activeTerminal (some j)⟩ m.activeTerminal := by
  obtain ⟨same, _, first⟩ := start_list caller creator q j args entryAddress m
  refine ⟨j, Function.update_self .., ?_, ?_⟩
  · rw [Machine.active, same, new] at first
    exact first
  · simp [Machine.alive, live]

structure Listed (s : Session) : Prop where
  roster : Roster s.machine
  base : ∀ t, (s.machine.terminals t).terminalFlag = false → s.based t

theorem listed_tidy (s : Session) (listed : Listed s) : Tidy s := ⟨listed.roster.exact, listed.base⟩

theorem started_shell_ordinary (before after : Machine) (event : Event)
    (task : event.isTask = true) (grown : after.history = before.history ∨ ∃ entry, after.history = entry :: before.history) :
    startedShell before after event = none := by
  unfold startedShell
  split
  · cases task
  · rename_i older _ history
    have longer : older.length ≠ before.history.length := by
      rcases grown with same | ⟨entry, same⟩
      · rw [← same, history, List.length_cons, List.length_cons]
        omega
      · have tail := (List.cons.inj (same.symm.trans history)).2
        rw [tail]
        simp
    rw [if_neg longer]
  · rfl

theorem started_shell_same (before after : Machine) (event : Event) (same : after.history = before.history) :
    startedShell before after event = none := by
  unfold startedShell
  split
  · rename_i older history
    have longer : older.length ≠ before.history.length := by
      rw [← same, history]
      simp
    rw [if_neg longer]
  · rename_i older _ history
    have longer : older.length ≠ before.history.length := by
      rw [← same, history, List.length_cons, List.length_cons]
      omega
    rw [if_neg longer]
  · rfl

theorem started_shell_restart (before after : Machine) (event : Event) (task : event.isTask = true) (j p : Slot)
    (creator : Option Slot) (entryAddress : Nat)
    (history : after.history = .started j creator entryAddress :: .halted p :: before.history) :
    startedShell before after event = some j := by
  unfold startedShell
  rw [history]
  cases event with
  | displaySwitch termId exeData => cases task
  | execute command exeData => exact if_pos rfl
  | halt status exeData => exact if_pos rfl
  | proceed => exact if_pos rfl

theorem follow_kept (s : Session) (after : Machine) (event : Event) (ordinary : startedShell s.machine after event = none) :
    s.follow after event = ⟨after, s.shells⟩ := by
  rw [Session.follow, ordinary]

theorem follow_started (s : Session) (after : Machine) (event : Event) (j : Slot) (t : Term)
    (new : startedShell s.machine after event = some j) (shown : after.activeTerminal = t) :
    s.follow after event = ⟨after, Function.update s.shells t (some j)⟩ := by
  rw [Session.follow, new, shown]

theorem based_other (m : Machine) (shells : Term → Option Slot) (t other : Term) (j : Slot) (apart : t ≠ other)
    (based : Session.based ⟨m, shells⟩ t) : Session.based ⟨m, Function.update shells other (some j)⟩ t := by
  obtain ⟨shell, known, listed, here⟩ := based
  exact ⟨shell, (Function.update_of_ne apart ..).trans known, listed, here⟩

theorem listed_shell (caller : Caller) (creator : Option Slot) (q j : Slot) (args : List UInt8) (entryAddress : Nat)
    (m : Machine) (shells : Term → Option Slot) (control : Control) (roster : Roster m)
    (base : ∀ t, t ≠ m.activeTerminal → (m.terminals t).terminalFlag = false → Session.based ⟨m, shells⟩ t)
    (fresh : ¬ m.alive j) (room : m.active.terminalFlag = true ∨ ∃ i : Fin 4, m.active.processes i = none)
    (new : m.shellEntry j = j) :
    Listed ⟨{ m.start caller creator q j args entryAddress with control := control },
      Function.update shells m.activeTerminal (some j)⟩ := by
  refine ⟨roster_start caller creator q j args entryAddress m control roster fresh room, ?_⟩
  intro t flag
  by_cases current : t = m.activeTerminal
  · subst current
    exact based_new caller creator q j args entryAddress m control shells new
  · have lowered : (m.terminals t).terminalFlag = false := by
      dsimp only at flag
      rwa [start_terminals, register_terminals, Function.update_of_ne current] at flag
    refine based_other _ shells t m.activeTerminal j current ?_
    exact based_start caller creator q j args entryAddress m control shells t (fun same => absurd same current)
      (base t current lowered)

theorem listed_launch (image : Image) (exeData : Bytes) (creator : Option Slot) (command : CString) (p : Slot)
    (s : Session) (event : Event) (task : event.isTask = true) (lives : Lifetimes s.machine) (listed : Listed s)
    (room : (!s.machine.starts image exeData command || s.machine.hasRoom) = true) :
    Listed (s.follow (s.machine.launch image exeData .syscall creator p command).2 event) := by
  rcases launch_cases image exeData .syscall creator p command s.machine with
    ⟨_, refusal, refused, same | ⟨same, _⟩⟩ | ⟨program, j, found, free, control, outcome, started⟩
  · rw [refused, same, follow_kept s _ event (started_shell_ordinary _ _ event task (Or.inl rfl))]
    exact listed
  · rw [refused, same, follow_kept s _ event (started_shell_ordinary _ _ event task (Or.inr ⟨_, rfl⟩))]
    exact ⟨roster_transfer s.machine _ listed.roster rfl fun _ => Iff.rfl, listed.base⟩
  · have starts : s.machine.starts image exeData command = true := by simp [Machine.starts, found, free]
    have spare : s.machine.hasRoom = true := by simpa [starts] using room
    simp only [Machine.hasRoom, Bool.and_eq_true, Bool.not_eq_true', decide_eq_true_eq] at spare
    obtain ⟨lowered, vacant⟩ := spare
    rw [started, follow_kept s _ event (started_shell_ordinary _ _ event task (Or.inr ⟨_, rfl⟩))]
    refine ⟨roster_start .syscall creator p j _ _ s.machine control listed.roster (free_slot_fresh s.machine j lives free)
      (Or.inr vacant), ?_⟩
    intro t flag
    refine based_start .syscall creator p j _ _ s.machine control s.shells t (fun _ => lowered) ?_
    by_cases current : t = s.machine.activeTerminal
    · subst current
      exact listed.base _ lowered
    · refine listed.base t ?_
      dsimp only at flag
      rwa [start_terminals, register_terminals, Function.update_of_ne current] at flag

theorem listed_restart (image : Image) (exeData : Bytes) (status : UInt8) (p : Slot) (s : Session) (event : Event)
    (left : Machine) (task : event.isTask = true) (lives : Lifetimes left) (roster : Roster left)
    (base : ∀ t, t ≠ left.activeTerminal → (left.terminals t).terminalFlag = false → Session.based ⟨left, s.shells⟩ t)
    (history : left.history = .halted p :: s.machine.history) (emptied : left.active.processes 0 = none)
    (starts : left.starts image exeData shellCommand = true) :
    let restarted := left.launch image exeData (.halt status) (some p) p shellCommand
    Listed (s.follow (if restarted.1 then restarted.2 else restarted.2.finishHalt p status) event) := by
  rcases launch_cases image exeData (.halt status) (some p) p shellCommand left with
    ⟨absent, _⟩ | ⟨program, j, found, free, control, outcome, started⟩
  · rcases absent with missing | full
    · simp [Machine.starts, missing] at starts
    · simp [Machine.starts, full] at starts
  · have new : left.shellEntry j = j := by
      rw [Machine.shellEntry, emptied]
      split <;> rfl
    have restart := started_shell_restart s.machine
      { left.start (.halt status) (some p) p j (arguments shellCommand) program.entryAddress with control := control }
      event task j p (some p) program.entryAddress (congrArg _ history)
    have shown := (start_list (.halt status) (some p) p j (arguments shellCommand) program.entryAddress left).1
    simp only [started, if_true]
    rw [follow_started s _ event j left.activeTerminal restart shown]
    exact listed_shell (.halt status) (some p) p j _ _ left s.shells control roster base (free_slot_fresh left j lives free)
      (Or.inr ⟨⟨0, by decide⟩, emptied⟩) new

theorem listed_finish (q : Slot) (status : UInt8) (s : Session) (m : Machine) (event : Event) (task : event.isTask = true)
    (listed : Listed ⟨m, s.shells⟩) (grown : m.history = s.machine.history ∨
      ∃ entry, m.history = entry :: s.machine.history) :
    Listed (s.follow (m.finishHalt q status) event) := by
  obtain ⟨paging, esp0, lost | ⟨parent, frame, _, returned⟩⟩ := finish_halt_cases q status m
  · have same : (m.finishHalt q status).history = m.history := by rw [lost]
    rw [follow_kept s _ event (started_shell_ordinary _ _ event task (same ▸ grown)), lost]
    exact ⟨roster_transfer m _ listed.roster rfl fun _ => Iff.rfl, listed.base⟩
  · have ordinary : startedShell s.machine (m.finishHalt q status) event = none := by
      unfold startedShell
      rw [returned]
      cases event with
      | displaySwitch termId exeData => cases task
      | execute command exeData => rfl
      | halt status exeData => rfl
      | proceed => rfl
    rw [follow_kept s _ event ordinary, returned]
    exact ⟨roster_transfer m _ listed.roster rfl fun _ => Iff.rfl, listed.base⟩

theorem listed_unlist (p : Slot) (s : Session) (listed : Listed s) (pid : (s.machine.pcbs p).pid = p)
    (notFirst : ¬ s.machine.firstShell p) (present : ∃ i : Fin 4, s.machine.active.processes i = some p) :
    Listed ⟨(s.machine.note (.halted p)).leave p, s.shells⟩ := by
  refine ⟨roster_leave p s.machine listed.roster pid present, ?_⟩
  intro t flag
  have lowered : (s.machine.terminals t).terminalFlag = false := by
    dsimp only at flag
    rw [leave_terminals] at flag
    by_cases current : t = (s.machine.note (.halted p)).activeTerminal
    · rw [current] at flag ⊢
      rwa [Function.update_self] at flag
    · rwa [Function.update_of_ne current] at flag
  exact based_leave p s.machine s.shells t listed.roster pid present (Or.inr notFirst) (listed.base t lowered)

theorem listed_halt (image : Image) (exeData : Bytes) (status : UInt8) (p : Slot) (s : Session) (event : Event)
    (task : event.isTask = true) (lives : Lifetimes s.machine) (listed : Listed s)
    (calm : ∀ slot status, s.machine.control ≠ .halting slot status) (pid : (s.machine.pcbs p).pid = p)
    (used : s.machine.pcbState p = true) (found : s.machine.haltListed image exeData p = true) :
    ∃ halted, s.machine.halt image exeData status p p = some halted ∧ Listed (s.follow halted event) := by
  have untouched := leave_untouched p (s.machine.note (.halted p))
  have inUse : s.machine.pcbState (s.machine.pcbs p).pid = true := by rw [pid, used]
  by_cases first : s.machine.firstShell p
  · have starts : s.machine.starts image exeData shellCommand = true := by
      simpa only [Machine.haltListed, if_pos first] using found
    have present : ∃ i : Fin 4, s.machine.active.processes i = some p := ⟨⟨0, by decide⟩, first.trans (congrArg some pid)⟩
    refine ⟨_, halt_restarts image exeData status p p s.machine inUse first, ?_⟩
    refine listed_restart image exeData status p s event _ task (lifetimes_leave p s.machine lives calm)
      (roster_leave p s.machine listed.roster pid present) ?_ untouched.history ?_ ?_
    · intro t other flag
      rw [untouched.activeTerminal] at other
      refine based_leave p s.machine s.shells t listed.roster pid present (Or.inl other) (listed.base t ?_)
      rwa [leave_terminals, Function.update_of_ne other] at flag
    · rw [(leave_list p _).2, replace_entry_first]
      exact if_pos first
    · rw [Machine.starts, untouched.pcbState]
      exact starts
  · have present : ∃ i : Fin 4, s.machine.active.processes i = some p := by
      simpa [Machine.haltListed, first, pid] using found
    refine ⟨_, halt_returns image exeData status p p s.machine inUse first, ?_⟩
    exact listed_finish p status s _ event task (listed_unlist p s listed pid first present) (Or.inr ⟨_, untouched.history⟩)

theorem listed_open (image : Image) (exeData : Bytes) (caller : Caller) (creator : Option Slot) (q : Slot) (m : Machine)
    (shells : Term → Option Slot) (lives : Lifetimes m) (listed : Listed ⟨m, shells⟩) (flag : m.active.terminalFlag = true) :
    let after := (m.launch image exeData caller creator q shellCommand).2
    ((after.history = m.history ∨ after.history = .refused :: m.history) ∧ Listed ⟨after, shells⟩) ∨
      ∃ j entryAddress, after.history = .started j creator entryAddress :: m.history ∧
        after.activeTerminal = m.activeTerminal ∧ Listed ⟨after, Function.update shells m.activeTerminal (some j)⟩ := by
  rcases launch_cases image exeData caller creator q shellCommand m with
    ⟨_, refusal, refused, same | ⟨same, _⟩⟩ | ⟨program, j, found, free, control, outcome, started⟩
  · rw [refused, same]
    exact Or.inl ⟨Or.inl rfl, listed⟩
  · rw [refused, same]
    exact Or.inl ⟨Or.inr rfl, roster_transfer m _ listed.roster rfl fun _ => Iff.rfl, listed.base⟩
  · have shown := (start_list caller creator q j (arguments shellCommand) program.entryAddress m).1
    rw [started]
    refine Or.inr ⟨j, program.entryAddress, rfl, shown, ?_⟩
    exact listed_shell caller creator q j _ _ m shells control listed.roster (fun t _ => listed.base t)
      (free_slot_fresh m j lives free) (Or.inl flag) (if_pos flag)

theorem listed_switch (image : Image) (exeData : Bytes) (termId : Term) (creator : Option Slot) (q : Slot) (s : Session)
    (lives : Lifetimes (s.machine.switchTo termId q)) (listed : Listed s) :
    Listed (s.follow (s.machine.displaySwitch image exeData termId creator q) (.displaySwitch termId exeData)) := by
  have switched : Listed ⟨s.machine.switchTo termId q, s.shells⟩ :=
    ⟨roster_transfer s.machine _ listed.roster rfl fun _ => Iff.rfl, listed.base⟩
  rw [Machine.displaySwitch]
  split
  · rename_i flag
    rcases listed_open image exeData .displaySwitch creator q (s.machine.switchTo termId q) s.shells lives switched flag with
      ⟨same | refused, still⟩ | ⟨j, entryAddress, started, shown, opened⟩
    · rw [follow_kept s _ _ (started_shell_same _ _ _ same)]
      exact still
    · have ordinary : startedShell s.machine
          ((s.machine.switchTo termId q).launch image exeData .displaySwitch creator q shellCommand).2
          (.displaySwitch termId exeData) = none := by
        unfold startedShell
        rw [refused]
      rw [follow_kept s _ _ ordinary]
      exact still
    · have new : startedShell s.machine
          ((s.machine.switchTo termId q).launch image exeData .displaySwitch creator q shellCommand).2
          (.displaySwitch termId exeData) = some j := by
        unfold startedShell
        rw [started]
        exact if_pos rfl
      rw [follow_started s _ _ j _ new shown]
      exact opened
  · rw [follow_kept s _ _ (started_shell_same s.machine (s.machine.switchTo termId q) _ rfl)]
    exact switched

theorem listed_execute (image : Image) (exeData : Bytes) (command : Option CString) (p : Slot) (s : Session)
    (lives : Lifetimes s.machine) (listed : Listed s) (running : s.machine.control = .user p)
    (pid : (s.machine.pcbs p).pid = p) (used : s.machine.pcbState p = true) (here : s.machine.current = p)
    (safe : s.machine.executeSafe image exeData command p = true)
    (found : s.machine.listable image (.execute command exeData) = true) :
    Listed (s.follow (s.machine.execute image exeData command p p) (.execute command exeData)) := by
  have calm : ∀ slot status, s.machine.control ≠ .halting slot status := by simp [running]
  have stays : Listed (s.follow s.machine (.execute command exeData)) := by
    rw [follow_kept s _ _ (started_shell_same _ _ _ rfl)]
    exact listed
  cases command with
  | none => exact stays
  | some command =>
      simp only [Machine.executeSafe] at safe
      simp only [Machine.listable, running, here] at found
      simp only [Machine.execute]
      split at safe
      · cases safe
      · rename_i fits
        rw [if_neg fits]
        split at safe
        · rename_i empty
          rw [if_pos empty]
          exact stays
        · rename_i nonempty
          rw [if_neg nonempty] at found ⊢
          split at safe
          · rename_i quit
            rw [if_pos quit] at found ⊢
            obtain ⟨halted, done, result⟩ :=
              listed_halt image exeData 0 p s (.execute (some command) exeData) rfl lives listed calm pid used found
            rw [done]
            exact result
          · rename_i other
            rw [if_neg other] at found ⊢
            exact listed_launch image exeData (some p) command p s _ rfl lives listed found

theorem listed_step (image : Image) (s : Session) (event : Event) (settled : Settled s.machine) (lives : Lifetimes s.machine)
    (listed : Listed s) (safe : admits image s.machine event = true) (found : s.machine.listable image event = true) :
    Listed (s.step image event) := by
  have ready : Listed ⟨s.machine.enter, s.shells⟩ :=
    ⟨roster_transfer s.machine _ listed.roster rfl fun _ => Iff.rfl, listed.base⟩
  apply step_rule image s.machine event fun after => Listed (s.follow after event)
  case stays =>
    rw [follow_kept s _ event (started_shell_same _ _ event rfl)]
    exact listed
  case execute =>
    rintro p command exeData control rfl
    obtain ⟨here, pid, used, _, _⟩ := settled_caller p s.machine settled control
    simp only [admits, control, here] at safe
    rw [here]
    exact listed_execute image exeData command p ⟨s.machine.enter, s.shells⟩ (lifetimes_enter p s.machine lives control) ready
      control pid used here safe found
  case halt =>
    rintro p status exeData control rfl
    obtain ⟨here, pid, used, _, calm⟩ := settled_caller p s.machine settled control
    simp only [Machine.listable, control, here] at found
    obtain ⟨halted, done, result⟩ := listed_halt image exeData status p ⟨s.machine.enter, s.shells⟩ (.halt status exeData) rfl
      (lifetimes_enter p s.machine lives control) ready calm pid used found
    rw [here, done]
    exact result
  case switch =>
    rintro p termId exeData control rfl
    obtain ⟨here, _, _, _, calm⟩ := settled_caller p s.machine settled control
    rw [here]
    exact listed_switch image exeData termId (some p) p ⟨s.machine.enter, s.shells⟩
      (lifetimes_switch_to termId p s.machine.enter (lifetimes_enter p s.machine lives control) calm) ready
  case idle =>
    rintro termId exeData control rfl
    have calm : ∀ slot status, s.machine.control ≠ .halting slot status := by simp [control]
    exact listed_switch image exeData termId none firstSlot s
      (lifetimes_switch_to termId firstSlot s.machine lives calm) listed
  case proceed =>
    rintro q status control rfl
    exact listed_finish q status s s.machine .proceed rfl listed (Or.inl rfl)

theorem boot_listed (image : Image) (exeData : Bytes) (paging : Tables) (devices : Devices) :
    Listed (Session.boot image exeData paging devices) := by
  have empty : Listed ⟨powerOn paging devices, fun _ => none⟩ := by
    refine ⟨⟨Placement.exact_empty _ _ (fun _ => rfl) ?_, ?_⟩, ?_⟩
    · intro p here
      cases here
    · intro t _ i
      rfl
    · intro t flag
      cases flag
  rcases listed_open image exeData .kernel none firstSlot (powerOn paging devices) (fun _ => none)
    (power_on_lifetimes paging devices) empty rfl with ⟨same | refused, still⟩ | ⟨j, entryAddress, started, shown, opened⟩
  · have history : (Process.boot image exeData paging devices).history = [] := same
    rw [Session.boot, history]
    exact still
  · have history : (Process.boot image exeData paging devices).history = [.refused] := refused
    rw [Session.boot, history]
    exact still
  · have history : (Process.boot image exeData paging devices).history = [.started j none entryAddress] := started
    rw [Session.boot, history]
    exact opened

def shellSession : Session :=
  Session.boot shellImage (fun _ => 0) (Paging.initPaging default (fun _ => 0) (fun _ => 0))
    ⟨FileSystem.directoryOpen, ⟨0, 0⟩⟩

def fourShells : List Event := [shellCall, shellCall, shellCall, shellCall]

theorem fifth_process_unlisted : ¬ Tidy (Run.final (Session.step shellImage) shellSession fourShells) := by
  intro tidy
  have running : live (Run.final (Session.step shellImage) shellSession fourShells).machine.history 4 = true := by
    decide +kernel
  have absent : ∀ (t : Term) (i : Fin 4),
      (Run.final (Session.step shellImage) shellSession fourShells).machine.places (t, i) ≠ some 4 := by
    decide +kernel
  obtain ⟨place, listed, _⟩ := tidy.exact.once 4 running
  exact absent place.1 place.2 listed

theorem process_lists_tidy (image : Image) (exeData : Bytes) (paging : Tables) (devices : Devices) (events : List Event)
    (safe : Run.Guarded (Session.step image)
      (fun s event => admits image s.machine event = true ∧ s.machine.listable image event = true)
      (Session.boot image exeData paging devices) events) :
    Tidy (Run.final (Session.step image) (Session.boot image exeData paging devices) events) := by
  have kept := Run.guarded_invariant (Session.step image) _
    (fun s => Settled s.machine ∧ Lifetimes s.machine ∧ Listed s) ?_ _ events
    ⟨boot_settled image exeData paging devices, boot_lifetimes image exeData paging devices,
      boot_listed image exeData paging devices⟩ safe
  · exact listed_tidy _ kept.2.2
  · rintro s event ⟨settled, lives, listed⟩ ⟨admitted, found⟩
    exact ⟨settled_step image s.machine event settled admitted, lifetimes_step image s.machine event settled lives,
      listed_step image s event settled lives listed admitted found⟩

def shellsOnTwoTerminals : List Event :=
  [shellCall, haltCall, shellCall, .displaySwitch Keyboard.terminal2 fun _ => 0, haltCall, shellCall, haltCall]

theorem process_lists_tidy_two :
    (Run.final (Session.step shellImage) shellSession shellsOnTwoTerminals).shells Keyboard.terminal2 = some 3 ∧
      Tidy (Run.final (Session.step shellImage) shellSession shellsOnTwoTerminals) :=
  ⟨by decide +kernel, process_lists_tidy shellImage _ _ _ shellsOnTwoTerminals (by decide +kernel)⟩

end SimpleKernel.Process
