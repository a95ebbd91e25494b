import Mathlib.Data.List.GetD
import SimpleKernel.Process.Lifetimes

set_option autoImplicit false

namespace SimpleKernel.Process

open FileSystem (Image)
open Files (Devices)
open Keyboard (Term)
open Paging (Tables)

def argsSize : Nat := 128

-- args is an array, so the comparison with NULL never holds. The length is
-- compared as an unsigned number; nbytes is positive there.
def getargs (args : Bytes) (buf : Option Bytes) (nbytes : Int) : Int × Option Bytes :=
  match buf with
  | none => (-1, none)
  | some memory =>
      if nbytes ≤ 0 then (-1, some memory)
      else if nbytes.toNat < strlen args argsSize + 1 then (-1, some memory)
      else (0, some (strcpy ((List.range (strlen args argsSize)).map args) memory))

def Machine.getargs (buf : Option Bytes) (nbytes : Int) (m : Machine) : Int × Option Bytes :=
  Process.getargs (m.pcbs m.current).args buf nbytes

structure GivesArgs (m : Machine) (args : List UInt8) : Prop where
  enough : ∀ buf nbytes, (args.length : Int) + 1 ≤ nbytes → ∃ stored, m.getargs (some buf) nbytes = (0, some stored) ∧
    (List.range (args.length + 1)).map stored = args ++ [0] ∧ ∀ k, args.length < k → stored k = buf k
  short : ∀ buf nbytes, nbytes < (args.length : Int) + 1 → m.getargs (some buf) nbytes = (-1, some buf)
  null : ∀ nbytes, m.getargs none nbytes = (-1, none)

-- name, one space, args, then newline or NUL; a CString has no NUL before its end.
structure Spelled (command : CString) (name args : List UInt8) : Prop where
  bytes : ∃ rest, command.bytes = name ++ 32 :: (args ++ rest) ∧ rest.head?.getD 0 ∈ [0, 10]
  nameLength : 1 ≤ name.length ∧ name.length ≤ 31
  argsLength : 1 ≤ args.length ∧ args.length ≤ 127
  name : ∀ byte ∈ name, byte ≠ 32 ∧ byte ≠ 10
  args : ∀ byte ∈ args, byte ≠ 10

def Executes (image : Image) (m : Machine) (command : CString) (exeData : Bytes) (j : Slot) : Prop :=
  ∃ creator entryAddress,
    (step image m (.execute (some command) exeData)).history = .started j creator entryAddress :: m.history

def Survives (j : Slot) (older newer : List Note) : Prop := ∃ since, newer = since ++ older ∧ .halted j ∉ since

theorem strlen_scan (s : Bytes) (bound i : Nat) : strlenFrom s bound i = Scan.first (fun k => s k = 0) bound i := by
  induction bound generalizing i with
  | zero => rfl
  | succ bound ih =>
      rw [strlenFrom, Scan.first, ih]

theorem word_end_exact (command : Bytes) (left len : Nat) (clean : ∀ k < len, ¬ EndsWord (command k))
    (stop : EndsWord (command len)) (fits : len ≤ left) : wordEnd command left 0 = len := by
  have found := Scan.first_exact (fun k => EndsWord (command k)) left 0 len
  simp only [Nat.zero_add] at found
  rw [word_end_scan, found clean stop fits]

theorem args_end_exact (args : Bytes) (left len : Nat) (clean : ∀ k < len, ¬ EndsArguments (args k))
    (stop : EndsArguments (args len)) (fits : len ≤ left) : argsEnd args left 0 = len := by
  have found := Scan.first_exact (fun k => EndsArguments (args k)) left 0 len
  simp only [Nat.zero_add] at found
  rw [args_end_scan, found clean stop fits]

theorem strlen_exact (s : Bytes) (bound len : Nat) (clean : ∀ k < len, s k ≠ 0) (stop : s len = 0) (fits : len ≤ bound) :
    strlen s bound = len := by
  have found := Scan.first_exact (fun k => s k = 0) bound 0 len
  simp only [Nat.zero_add] at found
  rw [strlen, strlen_scan, found clean stop fits]

theorem range_map_list (text : List UInt8) (memory : Bytes) (same : ∀ k < text.length, memory k = text.getD k 0) :
    (List.range text.length).map memory = text := by
  refine List.ext_getElem (by simp) ?_
  intro k _ bound
  rw [List.getElem_map, List.getElem_range, same k bound, List.getD_eq_getElem _ _ bound]

section Spelled

variable (command : CString) (name args : List UInt8) (spelled : Spelled command name args)

include spelled

theorem spelled_name (k : Nat) (inside : k < name.length) : command.memory k = name.getD k 0 := by
  obtain ⟨rest, bytes, _⟩ := spelled.bytes
  rw [CString.memory, bytes, List.getD_append _ _ _ _ inside]

theorem spelled_space : command.memory name.length = 32 := by
  obtain ⟨rest, bytes, _⟩ := spelled.bytes
  rw [CString.memory, bytes, List.getD_append_right _ _ _ _ (Nat.le_refl _), Nat.sub_self, List.getD_cons_zero]

theorem spelled_args (k : Nat) (inside : k < args.length) : command.memory (k + name.length + 1) = args.getD k 0 := by
  obtain ⟨rest, bytes, _⟩ := spelled.bytes
  have after : k + name.length + 1 - name.length = k + 1 := by omega
  rw [CString.memory, bytes, List.getD_append_right _ _ _ _ (by omega), after, List.getD_cons_succ,
    List.getD_append _ _ _ _ inside]

theorem spelled_end : command.memory (args.length + name.length + 1) = 10 ∨
    command.memory (args.length + name.length + 1) = 0 := by
  obtain ⟨rest, bytes, stop⟩ := spelled.bytes
  have after : args.length + name.length + 1 - name.length = args.length + 1 := by omega
  rw [CString.memory, bytes, List.getD_append_right _ _ _ _ (by omega), after, List.getD_cons_succ,
    List.getD_append_right _ _ _ _ (Nat.le_refl _), Nat.sub_self]
  cases rest with
  | nil => exact Or.inr rfl
  | cons byte tail =>
      have listed : byte = 0 ∨ byte = 10 := by simpa using stop
      exact listed.symm

theorem spelled_bytes (byte : UInt8) (member : byte ∈ name ∨ byte ∈ args) : byte ≠ 0 := by
  obtain ⟨rest, bytes, _⟩ := spelled.bytes
  refine command.noNul byte ?_
  rw [bytes]
  rcases member with inName | inArgs
  · exact List.mem_append_left _ inName
  · exact List.mem_append_right _ (List.mem_cons_of_mem _ (List.mem_append_left _ inArgs))

theorem spelled_word : (firstWord command).bytes = name := by
  have clean : ∀ k < name.length, ¬ EndsWord (command.memory k) := by
    intro k inside
    have member : name.getD k 0 ∈ name := by
      rw [List.getD_eq_getElem _ _ inside]
      exact List.getElem_mem inside
    rw [spelled_name command name args spelled k inside]
    have apart := spelled.name _ member
    exact not_or.mpr ⟨spelled_bytes command name args spelled _ (Or.inl member), not_or.mpr apart⟩
  have space := spelled_space command name args spelled
  have stops := word_end_exact command.memory 32 name.length clean (Or.inr (Or.inl space))
    (Nat.le_trans spelled.nameLength.2 (by decide))
  simp only [firstWord, stops]
  exact range_map_list name _ fun k inside => spelled_name command name args spelled k inside

theorem spelled_arguments : arguments command = args := by
  have clean : ∀ k < args.length, ¬ EndsArguments (command.memory (k + name.length + 1)) := by
    intro k inside
    have member : args.getD k 0 ∈ args := by
      rw [List.getD_eq_getElem _ _ inside]
      exact List.getElem_mem inside
    rw [spelled_args command name args spelled k inside]
    exact not_or.mpr ⟨spelled.args _ member, spelled_bytes command name args spelled _ (Or.inr member)⟩
  have fits : args.length ≤ command.bytes.length := by
    obtain ⟨rest, bytes, _⟩ := spelled.bytes
    rw [bytes]
    simp only [List.length_append, List.length_cons]
    omega
  have stops := args_end_exact (fun k => command.memory (k + name.length + 1)) command.bytes.length args.length clean
    (spelled_end command name args spelled) fits
  simp only [arguments, spelled_word command name args spelled, spelled_space command name args spelled, if_true, stops]
  exact range_map_list args _ fun k inside => spelled_args command name args spelled k inside

end Spelled

theorem getargs_copied (text : List UInt8) (old : Bytes) (noNul : ∀ byte ∈ text, byte ≠ 0) (fits : text.length ≤ 127) :
    strlen (strcpy text old) argsSize = text.length ∧ (List.range text.length).map (strcpy text old) = text := by
  have inside : ∀ k < text.length, strcpy text old k = text.getD k 0 := by
    intro k bound
    rw [strcpy, if_pos (by omega)]
  refine ⟨strlen_exact _ argsSize text.length ?_ ?_ (Nat.le_trans fits (by decide)), range_map_list text _ inside⟩
  · intro k bound
    rw [inside k bound, List.getD_eq_getElem _ _ bound]
    exact noNul _ (List.getElem_mem bound)
  · rw [strcpy, if_pos (Nat.le_refl _), List.getD_eq_default _ _ (Nat.le_refl _)]

theorem getargs_text (text : List UInt8) (old : Bytes) (noNul : ∀ byte ∈ text, byte ≠ 0) (fits : text.length ≤ 127)
    (buf : Bytes) (nbytes : Int) :
    getargs (strcpy text old) (some buf) nbytes =
      if (text.length : Int) < nbytes then (0, some (strcpy text buf)) else (-1, some buf) := by
  obtain ⟨length, copied⟩ := getargs_copied text old noNul fits
  rw [getargs, length, copied]
  by_cases room : (text.length : Int) < nbytes
  · have positive : ¬ nbytes ≤ 0 := by omega
    have enough : ¬ nbytes.toNat < text.length + 1 := by omega
    simp only [if_neg positive, if_neg enough, if_pos room]
  · rw [if_neg room]
    by_cases positive : nbytes ≤ 0
    · simp only [if_pos positive]
    · have few : nbytes.toNat < text.length + 1 := by omega
      simp only [if_neg positive, if_pos few]

theorem gives_args (m : Machine) (text : List UInt8) (old : Bytes) (noNul : ∀ byte ∈ text, byte ≠ 0)
    (fits : text.length ≤ 127) (stored : (m.pcbs m.current).args = strcpy text old) : GivesArgs m text := by
  obtain ⟨length, copied⟩ := getargs_copied text old noNul fits
  refine ⟨?_, ?_, fun _ => rfl⟩
  · intro buf nbytes enough
    have positive : ¬ nbytes ≤ 0 := by omega
    have room : ¬ nbytes.toNat < text.length + 1 := by omega
    refine ⟨strcpy text buf, ?_, ?_, ?_⟩
    · rw [Machine.getargs, getargs, stored, length, copied]
      simp only [if_neg positive, if_neg room]
    · rw [List.range_succ, List.map_append, range_map_list text (strcpy text buf) ?_]
      · simp [strcpy]
      · intro k bound
        rw [strcpy, if_pos (by omega)]
    · intro k after
      rw [strcpy, if_neg (by omega)]
  · intro buf nbytes short
    rw [Machine.getargs, getargs, stored, length]
    by_cases positive : nbytes ≤ 0
    · simp only [if_pos positive]
    · have few : nbytes.toNat < text.length + 1 := by omega
      simp only [if_neg positive, if_pos few]

theorem start_args (caller : Caller) (creator : Option Slot) (q j : Slot) (args : List UInt8) (entryAddress : Nat)
    (m : Machine) (p : Slot) : ((m.start caller creator q j args entryAddress).pcbs p).args =
      if p = j then strcpy args (m.pcbs j).args else (m.pcbs p).args := by
  have before : ∀ slot, (((m.occupy j).storeShellPid j).pcbs slot).args = (m.pcbs slot).args := by
    intro slot
    have occupied : ((m.occupy j).pcbs slot).args = (m.pcbs slot).args := by
      rw [occupy_pcbs]
      split <;> rfl
    rw [Machine.storeShellPid]
    split
    · rw [modify_pcb_pcbs]
      split <;> exact occupied
    · exact occupied
  simp only [Machine.start, modify_pcb_pcbs]
  by_cases here : p = j
  · subst here
    split <;> simp only [if_true, before]
  · rw [if_neg here]
    split <;> exact before p

structure Later (j : Slot) (m m' : Machine) : Prop where
  history : m.history <:+ m'.history
  args : m.pcbState j = true → (m'.pcbs j).args = (m.pcbs j).args

theorem later_trans (j : Slot) (first second third : Machine) (before : Later j first second) (after : Later j second third)
    (used : second.pcbState = first.pcbState) : Later j first third := by
  refine ⟨List.IsSuffix.trans before.history after.history, ?_⟩
  intro inUse
  have still : second.pcbState j = true := by rw [used, inUse]
  exact (after.args still).trans (before.args inUse)

theorem later_leave (j q : Slot) (m : Machine) : Later j m (m.leave q) := by
  obtain ⟨shells, same⟩ := pass_shell_changes q (m.unlist (m.pcbs q).pid)
  refine ⟨by rw [(leave_untouched q m).history], ?_⟩
  intro _
  rw [Machine.leave, same, modify_pcb_pcbs]
  split <;> rfl

theorem later_finish (j q : Slot) (status : UInt8) (m : Machine) : Later j m (m.finishHalt q status) := by
  obtain ⟨paging, esp0, lost | ⟨parent, frame, _, returned⟩⟩ := finish_halt_cases q status m
  · rw [lost]
    exact ⟨List.suffix_refl _, fun _ => rfl⟩
  · rw [returned]
    exact ⟨List.suffix_cons _ _, fun _ => rfl⟩

theorem later_start (caller : Caller) (creator : Option Slot) (q new : Slot) (args : List UInt8) (entryAddress : Nat)
    (j : Slot) (m : Machine) (control : Control) (free : m.pcbState new = false) :
    Later j m { m.start caller creator q new args entryAddress with control := control } := by
  refine ⟨List.suffix_cons _ _, ?_⟩
  intro used
  have other : j ≠ new := by
    rintro rfl
    rw [free] at used
    cases used
  dsimp only
  rw [start_args, if_neg other]

theorem later_launch (image : Image) (exeData : Bytes) (caller : Caller) (creator : Option Slot) (q : Slot)
    (command : CString)
    (j : Slot) (m : Machine) : Later j m (m.launch image exeData caller creator q command).2 := by
  rcases launch_cases image exeData caller creator q command m with
    ⟨_, refusal, refused, same | ⟨same, _⟩⟩ | ⟨program, new, found, free, control, outcome, started⟩
  · rw [refused, same]
    exact ⟨List.suffix_refl _, fun _ => rfl⟩
  · rw [refused, same]
    exact ⟨List.suffix_cons _ _, fun _ => rfl⟩
  · rw [started]
    exact later_start caller creator q new _ _ j m control (free_slot_free _ new free)

theorem later_halt (image : Image) (exeData : Bytes) (status : UInt8) (p q j : Slot) (m halted : Machine)
    (done : m.halt image exeData status p q = some halted) : Later j (m.note (.halted p)) halted := by
  have slots := (leave_untouched q (m.note (.halted p))).pcbState
  have left := later_leave j q (m.note (.halted p))
  rcases halt_cases image exeData status p q m halted done with
    ⟨base, same | refused, rfl⟩ | ⟨_, program, new, control, free, _, rfl⟩
  · rw [same]
    exact later_trans j _ _ _ left (later_finish j q status _) slots
  · have noted : Later j (m.note (.halted p)) (((m.note (.halted p)).leave q).note .refused) :=
      later_trans j _ _ _ left ⟨List.suffix_cons _ _, fun _ => rfl⟩ slots
    rw [refused]
    exact later_trans j _ _ _ noted (later_finish j q status _) slots
  · have vacant : m.pcbState new = false := free_slot_free _ new free
    exact later_trans j _ _ _ left (later_start (.halt status) (some p) q new _ _ j _ control (slots ▸ vacant)) slots

theorem later_execute (image : Image) (exeData : Bytes) (command : Option CString) (p q j : Slot) (m : Machine) :
    Later j m (m.execute image exeData command p q) := by
  have same : Later j m m := ⟨List.suffix_refl _, fun _ => rfl⟩
  cases command with
  | none => exact same
  | some command =>
      have launched := later_launch image exeData .syscall (some p) q command j m
      rw [Machine.execute]
      split
      · exact ⟨List.suffix_refl _, fun _ => rfl⟩
      · split
        · exact same
        · split
          · cases done : m.halt image exeData 0 p q with
            | none => exact launched
            | some halted =>
                have noted : Later j m (m.note (.halted p)) := ⟨List.suffix_cons _ _, fun _ => rfl⟩
                exact later_trans j _ _ _ noted (later_halt image exeData 0 p q j m halted done) rfl
          · exact launched

theorem later_switch (image : Image) (exeData : Bytes) (termId : Term) (creator : Option Slot) (q j : Slot) (m : Machine) :
    Later j m (m.displaySwitch image exeData termId creator q) := by
  have switched : Later j m (m.switchTo termId q) := by
    refine ⟨List.suffix_refl _, ?_⟩
    intro _
    rw [Machine.switchTo]
    dsimp only
    rw [modify_pcb_pcbs]
    split <;> rfl
  rw [Machine.displaySwitch]
  split
  · exact later_trans j _ _ _ switched (later_launch image exeData .displaySwitch creator q shellCommand j _) rfl
  · exact switched

theorem later_step (image : Image) (m : Machine) (event : Event) (j : Slot) : Later j m (step image m event) := by
  have entered : Later j m m.enter := ⟨List.suffix_refl _, fun _ => rfl⟩
  apply step_rule image m event (Later j m)
  case stays => exact ⟨List.suffix_refl _, fun _ => rfl⟩
  case execute =>
    intro p command exeData _ _
    exact later_trans j _ _ _ entered (later_execute image exeData command p m.current j m.enter) rfl
  case halt =>
    intro p status exeData _ _
    cases done : m.enter.halt image exeData status p m.current with
    | none => exact entered
    | some halted =>
        have noted : Later j m (m.enter.note (.halted p)) := ⟨List.suffix_cons _ _, fun _ => rfl⟩
        exact later_trans j _ _ _ noted (later_halt image exeData status p m.current j m.enter halted done) rfl
  case switch =>
    intro p termId exeData _ _
    exact later_trans j _ _ _ entered (later_switch image exeData termId (some p) m.current j m.enter) rfl
  case idle =>
    intro termId exeData _ _
    exact later_switch image exeData termId none firstSlot j m
  case proceed =>
    intro q status _ _
    exact later_finish j q status m

theorem run_history (image : Image) (m : Machine) (events : List Event) :
    m.history <:+ (Run.final (step image) m events).history :=
  Run.invariant (step image) (fun later => m.history <:+ later.history)
    (fun later event grown => List.IsSuffix.trans grown (later_step image later event firstSlot).history)
    m events (List.suffix_refl _)

theorem execute_started (image : Image) (exeData : Bytes) (command : CString) (p q j : Slot) (creator : Option Slot)
    (entryAddress : Nat) (m : Machine)
    (noted : (m.execute image exeData (some command) p q).history = .started j creator entryAddress :: m.history) :
    ∃ old, ((m.execute image exeData (some command) p q).pcbs j).args = strcpy (arguments command) old := by
  have launched : (m.launch image exeData .syscall (some p) q command).2.history = .started j creator entryAddress ::
    m.history →
      ∃ old, ((m.launch image exeData .syscall (some p) q command).2.pcbs j).args = strcpy (arguments command) old := by
    intro history
    rcases launch_cases image exeData .syscall (some p) q command m with
      ⟨_, refusal, refused, same | ⟨same, _⟩⟩ | ⟨program, new, found, free, control, outcome, started⟩
    · rw [refused, same] at history
      exact absurd history.symm (List.cons_ne_self _ _)
    · rw [refused, same] at history
      cases (List.cons.inj history).1
    · rw [started] at history ⊢
      have here : new = j := by
        have entry := (List.cons.inj history).1
        simp only [Note.started.injEq] at entry
        exact entry.1
      subst here
      refine ⟨(m.pcbs new).args, ?_⟩
      dsimp only
      rw [start_args, if_pos rfl]
  rw [Machine.execute] at noted ⊢
  split at noted
  · exact absurd noted.symm (List.cons_ne_self _ _)
  · rename_i fits
    rw [if_neg fits]
    split at noted
    · exact absurd noted.symm (List.cons_ne_self _ _)
    · rename_i nonempty
      rw [if_neg nonempty]
      split at noted
      · rename_i quit
        rw [if_pos quit]
        cases done : m.halt image exeData 0 p q with
        | none =>
            rw [done] at noted
            exact launched noted
        | some halted =>
            -- The end of this process is noted first, so a shell that takes its place is no start of the command.
            rw [done] at noted
            have grown := (later_halt image exeData 0 p q j m halted done).history
            have same := List.IsSuffix.eq_of_length grown (by rw [noted]; rfl)
            rw [noted] at same
            cases (List.cons.inj same).1
      · rename_i other
        rw [if_neg other]
        exact launched noted

theorem executes_args (image : Image) (m : Machine) (command : CString) (exeData : Bytes) (j : Slot)
    (executes : Executes image m command exeData j) :
    (step image m (.execute (some command) exeData)).alive j ∧
      ∃ old, ((step image m (.execute (some command) exeData)).pcbs j).args = strcpy (arguments command) old := by
  obtain ⟨creator, entryAddress, noted⟩ := executes
  refine ⟨by simp [Machine.alive, noted, live], ?_⟩
  cases control : m.control with
  | user p =>
      simp only [step, control] at noted ⊢
      exact execute_started image exeData command p m.current j creator entryAddress m.enter noted
  | halting q status =>
      simp only [step, control] at noted
      exact absurd noted.symm (List.cons_ne_self _ _)
  | idle =>
      simp only [step, control] at noted
      exact absurd noted.symm (List.cons_ne_self _ _)
  | faulted =>
      simp only [step, control] at noted
      exact absurd noted.symm (List.cons_ne_self _ _)
  | lost =>
      simp only [step, control] at noted
      exact absurd noted.symm (List.cons_ne_self _ _)

theorem live_survives (j : Slot) (older newer : List Note) (survives : Survives j older newer) (alive : live older j = true) :
    live newer j = true := by
  obtain ⟨since, rfl, noEnd⟩ := survives
  induction since with
  | nil => exact alive
  | cons entry since ih =>
      have rest := ih fun member => noEnd (List.mem_cons_of_mem _ member)
      cases entry with
      | started slot creator entryAddress => simp [live, rest]
      | halted slot =>
          have other : slot ≠ j := by
            rintro rfl
            exact noEnd List.mem_cons_self
          simp [live, rest, other]
      | resumed child parent status => simpa [live] using rest
      | refused => simpa [live] using rest

theorem survives_split (j : Slot) (older middle newer : List Note) (first : older <:+ middle) (second : middle <:+ newer)
    (survives : Survives j older newer) : Survives j older middle ∧ Survives j middle newer := by
  obtain ⟨before, rfl⟩ := first
  obtain ⟨after, rfl⟩ := second
  obtain ⟨since, same, noEnd⟩ := survives
  rw [← List.append_assoc] at same
  have parts := List.append_cancel_right same
  subst parts
  refine ⟨⟨before, rfl, ?_⟩, ⟨after, rfl, ?_⟩⟩
  · exact fun member => noEnd (List.mem_append_right _ member)
  · exact fun member => noEnd (List.mem_append_left _ member)

theorem surviving_args (image : Image) (m : Machine) (events : List Event) (j : Slot) (settled : Settled m)
    (lives : Lifetimes m) (alive : m.alive j) (safe : Run.Guarded (step image) (fun m event =>
      admits image m event = true) m events)
    (survives : Survives j m.history (Run.final (step image) m events).history) :
    ((Run.final (step image) m events).pcbs j).args = (m.pcbs j).args := by
  induction events generalizing m with
  | nil => rfl
  | cons event rest ih =>
      have later := later_step image m event j
      obtain ⟨here, there⟩ := survives_split j _ _ _ later.history (run_history image (step image m event) rest) survives
      have next := ih (step image m event) (settled_step image m event settled safe.1)
        (lifetimes_step image m event settled lives) (live_survives j _ _ here alive) safe.2 there
      exact next.trans (later.args (lives.used j alive))

def shellWithArgs : CString := ⟨[115, 104, 101, 108, 108, 32, 97], by simp⟩

def argsStart : Event := .execute (some shellWithArgs) fun _ => 0

theorem shell_with_args_spelled : Spelled shellWithArgs [115, 104, 101, 108, 108] [97] :=
  ⟨⟨[], rfl, by simp⟩, by simp, by simp, by simp, by simp⟩

-- The process whose number was overwritten runs on the stack of the base
-- shell, so getargs finds the base shell's text.
def staleReuse : List Event := [shellCall, haltCall, shellCall, haltCall]

theorem stale_number_changes_args :
    Executes shellImage shellBoot shellWithArgs (fun _ => 0) 1 ∧
      Survives 1 (step shellImage shellBoot argsStart).history
        (Run.final (step shellImage) (step shellImage shellBoot argsStart) staleReuse).history ∧
      (Run.final (step shellImage) (step shellImage shellBoot argsStart) staleReuse).control = .user 1 ∧
      ¬ GivesArgs (Run.final (step shellImage) (step shellImage shellBoot argsStart) staleReuse) [97] := by
  refine ⟨⟨some 0, 0, by decide +kernel⟩, ?_, by decide +kernel, ?_⟩
  · refine ⟨[.resumed 2 1 0, .halted 2, .started 2 (some 1) 0, .resumed 2 1 0, .halted 2, .started 2 (some 1) 0],
      ?_, by decide⟩
    decide +kernel
  · intro gives
    have emptied : ((Run.final (step shellImage) (step shellImage shellBoot argsStart) staleReuse).getargs
        (some fun _ => 0) 2).2.map (fun stored => stored 0) = some 0 := by decide +kernel
    obtain ⟨stored, result, text, _⟩ := gives.enough (fun _ => 0) 2 (by decide)
    rw [result] at emptied
    have first : stored 0 = 97 := (List.cons.inj text).1
    rw [Option.map_some, first] at emptied
    cases emptied

theorem getargs_exact (image : Image) (exeData : Bytes) (paging : Tables) (devices : Devices) (before after : List Event)
    (command : CString) (buffer : Bytes) (name args : List UInt8) (j : Slot) (spelled : Spelled command name args)
    (safe : Run.Guarded (step image) (fun m event => admits image m event = true) (boot image exeData paging devices)
      (before ++ .execute (some command) buffer :: after))
    (executes : Executes image (Run.final (step image) (boot image exeData paging devices) before) command buffer j)
    (survives : Survives j
      (Run.final (step image) (boot image exeData paging devices) (before ++ [.execute (some command) buffer])).history
      (Run.final (step image) (boot image exeData paging devices)
        (before ++ .execute (some command) buffer :: after)).history)
    (running : (Run.final (step image) (boot image exeData paging devices)
      (before ++ .execute (some command) buffer :: after)).control = .user j) :
    GivesArgs (Run.final (step image) (boot image exeData paging devices) (before ++ .execute (some command) buffer :: after))
      args := by
  obtain ⟨earlier, admitted, rest⟩ := (Run.guarded_append (step image) _ _ before _).mp safe
  obtain ⟨settled, lives⟩ := Run.guarded_invariant (step image) _ (fun m => Settled m ∧ Lifetimes m)
    (fun m event good admitted => ⟨settled_step image m event good.1 admitted, lifetimes_step image m event good.1 good.2⟩)
    _ before ⟨boot_settled image exeData paging devices, boot_lifetimes image exeData paging devices⟩ earlier
  obtain ⟨alive, old, stored⟩ := executes_args image _ command buffer j executes
  have settledNext := settled_step image _ (.execute (some command) buffer) settled admitted
  have livesNext := lifetimes_step image _ (.execute (some command) buffer) settled lives
  rw [Run.final_append, Run.final_cons] at survives running ⊢
  rw [Run.final_append, Run.final_cons, Run.final_nil] at survives
  have kept := surviving_args image _ after j settledNext livesNext alive rest survives
  have final := Run.guarded_invariant (step image) _ Settled (fun m event => settled_step image m event) _ after
    settledNext rest
  have placed := final.placed
  simp only [Placed, running] at placed
  have here := in_place_current j _ placed.1
  rw [spelled_arguments command name args spelled] at stored
  refine gives_args _ args old ?_ spelled.argsLength.2 ?_
  · intro byte member
    exact spelled_bytes command name args spelled byte (Or.inr member)
  · rw [here, kept, stored]

def childEnds : List Event := [shellCall, haltCall]

theorem getargs_exact_after_child :
    GivesArgs (Run.final (step shellImage) shellBoot ([] ++ argsStart :: childEnds)) [97] :=
  getargs_exact shellImage _ _ _ [] childEnds shellWithArgs (fun _ => 0) [115, 104, 101, 108, 108] [97] 1
    shell_with_args_spelled (by decide +kernel) ⟨some 0, 0, by decide +kernel⟩
    ⟨[.resumed 2 1 0, .halted 2, .started 2 (some 1) 0], by decide +kernel, by decide⟩ (by decide +kernel)

end SimpleKernel.Process
