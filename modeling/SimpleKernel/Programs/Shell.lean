import SimpleKernel.Files.ReadBounds
import SimpleKernel.Grep.Reading
import SimpleKernel.Keyboard.Canonical
import SimpleKernel.Process.Command
import SimpleKernel.Programs.Ls

set_option autoImplicit false

namespace SimpleKernel.Programs

open FileSystem (Image)
open Files (Devices sysRead)
open Grep (store text)
open Keyboard (Modifiers Session Typable allLineKeys delivered keyStatus keyboardHandler lineKeys lineResult readLine
  sessionCodes startSession typedLines)
open LineEdit (Key editAll underflows)
open Text (Holds)

def shellBufsize : Nat := 1024

def exitCommand : List UInt8 := [101, 120, 105, 116]

def prompt : List UInt8 := text "391OS> "

-- `bound` is behind an index at which the strings have ended.
def ece391Strcmp (s1 s2 : Bytes) : Nat → Nat → Int
  | 0, _ => 0
  | bound + 1, i =>
      if s1 i = s2 i then if s1 i = 0 then 0 else ece391Strcmp s1 s2 bound (i + 1)
      else (s1 i).toNat - (s2 i).toNat

-- The execute call: from the command, the devices and the terminal's text to
-- the status and what the program leaves of the two. It has a table of its own.
abbrev Execute := List UInt8 → Devices → List UInt8 → Int × Devices × List UInt8

def report (rval : Int) : List UInt8 :=
  if -1 = rval then text "no such command\n"
  else if 256 = rval then text "program terminated by exception\n"
  else if 0 ≠ rval then text "program terminated abnormally\n"
  else []

structure Shell where
  data : Bytes
  turn : Nat
  world : World

section Main

-- lines k is keyboard_buf of the displayed terminal when read number k ends.
variable (image : Image) (execute : Execute) (lines : Nat → Nat → UInt8) (buf literal : Pointer)

def shellRound (r : Shell) : Option (Shell ⊕ (Int × World)) :=
  let prompted := ece391Fdputs 1 literal prompt r.world
  let read := sysRead image (lines r.turn) 0 buf.val (shellBufsize - 1) prompted.files
  let w : World := ⟨read.2, prompted.output⟩
  let cnt := read.1.ret
  if -1 = cnt then some (.inr (3, ece391Fdputs 1 literal (text "read from keyboard failed\n") w))
  else
    let stored := store r.data 0 read.1.stored
    let len := if cnt > 0 ∧ stored (cnt - 1).toNat = 10 then cnt - 1 else cnt
    let data := Function.update stored len.toNat 0
    if ece391Strcmp data (fun i => exitCommand.getD i 0) shellBufsize 0 = 0 then some (.inr (0, w))
    else if data 0 = 0 then some (.inl ⟨data, r.turn + 1, w⟩)
    else
      let run := execute (nameIn data shellBufsize) w.files.devices w.output
      let after : World := ⟨{ w.files with devices := run.2.1 }, run.2.2⟩
      some (.inl ⟨data, r.turn + 1,
        if -1 = run.1 then ece391Fdputs 1 literal (text "no such command\n") after
        else if 256 = run.1 then ece391Fdputs 1 literal (text "program terminated by exception\n") after
        else if 0 ≠ run.1 then ece391Fdputs 1 literal (text "program terminated abnormally\n") after
        else after⟩)

def shellMain (stack : Bytes) (fuel : Nat) (w : World) : Option (Int × World) :=
  Loop.run (shellRound image execute lines buf literal) fuel
    ⟨stack, 0, ece391Fdputs 1 literal (text "Starting 391 Shell\n") w⟩

end Main

def obey (execute : Execute) (s : Devices × List UInt8) (command : List UInt8) : Devices × List UInt8 :=
  if command = [] then (s.1, s.2 ++ prompt)
  else
    let run := execute command s.1 (s.2 ++ prompt)
    (run.2.1, run.2.2 ++ report run.1)

theorem strcmp_zero (s1 s2 : Bytes) (bound i : Nat) (first second : List UInt8) (one : Holds s1 i (first ++ [0]))
    (two : Holds s2 i (second ++ [0])) (firstClean : (0 : UInt8) ∉ first) (secondClean : (0 : UInt8) ∉ second)
    (enough : first.length < bound) : ece391Strcmp s1 s2 bound i = 0 ↔ first = second := by
  induction first generalizing i second bound with
  | nil =>
      cases bound with
      | zero => cases enough
      | succ bound =>
          have zero : s1 i = 0 := one.1
          rw [ece391Strcmp, zero]
          cases second with
          | nil =>
              have other : s2 i = 0 := two.1
              rw [other, if_pos rfl, if_pos rfl]
              exact iff_of_true rfl rfl
          | cons byte rest =>
              have here : s2 i = byte := two.1
              have nonzero : byte ≠ 0 := fun same => secondClean (same ▸ List.mem_cons_self)
              rw [here, if_neg (Ne.symm nonzero)]
              refine iff_of_false (fun same => nonzero (UInt8.toNat_inj.mp ?_)) (List.cons_ne_nil byte rest).symm
              change byte.toNat = 0
              have same' : ((0 : UInt8).toNat : Int) - byte.toNat = 0 := same
              change ((0 : Nat) : Int) - byte.toNat = 0 at same'
              omega
  | cons byte rest ih =>
      cases bound with
      | zero => cases enough
      | succ bound =>
          rw [List.mem_cons, not_or] at firstClean
          have here : s1 i = byte := one.1
          have nonzero : byte ≠ 0 := Ne.symm firstClean.1
          rw [ece391Strcmp, here, if_neg nonzero]
          cases second with
          | nil =>
              have zero : s2 i = 0 := two.1
              rw [zero, if_neg nonzero]
              refine iff_of_false (fun same => nonzero (UInt8.toNat_inj.mp ?_)) (List.cons_ne_nil byte rest)
              change byte.toNat = 0
              have same' : (byte.toNat : Int) - ((0 : Nat) : Int) = 0 := same
              omega
          | cons other tail =>
              have there : s2 i = other := two.1
              rw [List.mem_cons, not_or] at secondClean
              rw [there, List.cons.injEq]
              by_cases same : byte = other
              · rw [if_pos same, ih bound (i + 1) tail one.2 two.2 firstClean.2 secondClean.2 (Nat.lt_of_succ_lt_succ enough)]
                exact (and_iff_right same).symm
              · rw [if_neg same]
                refine iff_of_false (fun zero => same (UInt8.toNat_inj.mp ?_)) (fun both => same both.1)
                omega

theorem prompt_reports (literal : Pointer) (rval : Int) (w : World) (standard : Standard w.files.fds) :
    (if -1 = rval then ece391Fdputs 1 literal (text "no such command\n") w
      else if 256 = rval then ece391Fdputs 1 literal (text "program terminated by exception\n") w
      else if 0 ≠ rval then ece391Fdputs 1 literal (text "program terminated abnormally\n") w
      else w) = w.say (report rval) := by
  have silent : w = w.say [] := by rw [World.say, List.append_nil]
  simp only [fdputs_standard literal _ w standard, report]
  split
  · rfl
  · split
    · rfl
    · split
      · rfl
      · exact silent

def shellWorld (fds : Files.Table) (s : Devices × List UInt8) : World := ⟨⟨fds, s.1⟩, s.2⟩

section Round

variable (image : Image) (execute : Execute) (lines : Nat → Nat → UInt8) (buf literal : Pointer)
  (fds : Files.Table) (standard : Standard fds)

include standard

theorem keyboard_read (line : Nat → UInt8) (nbytes : Int) (s : Files.State) (same : s.fds = fds) :
    sysRead image line 0 buf.val nbytes s = (readLine line nbytes, s) := by
  have inUse : (s.fds (0 : Int).toNat).flags ≠ 0 := by
    change (s.fds 0).flags ≠ 0
    rw [same, standard.stdinUsed]
    decide
  have table : (s.fds (0 : Int).toNat).fopsPtr = some .stdin := by
    change (s.fds 0).fopsPtr = some .stdin
    rw [same, standard.stdin]
  rw [Files.sys_read_driver image line 0 buf.val nbytes s .stdin (by decide) (by decide) (by decide) buf.property inUse table]
  rfl

theorem shell_round (data : Bytes) (turn : Nat) (s : Devices × List UInt8) (command : List UInt8)
    (clean : (0 : UInt8) ∉ command) (short : command.length ≤ 126)
    (reads : readLine (lines turn) (shellBufsize - 1) = lineResult command) :
    ∃ next, shellRound image execute lines buf literal ⟨data, turn, shellWorld fds s⟩ =
      some (if command = exitCommand then .inr (0, shellWorld fds (s.1, s.2 ++ prompt))
        else .inl ⟨next, turn + 1, shellWorld fds (obey execute s command)⟩) := by
  have size : shellBufsize = 1024 := rfl
  have prompted := fdputs_standard literal prompt (shellWorld fds s) standard
  have read := keyboard_read image buf fds standard (lines turn) (shellBufsize - 1) ((shellWorld fds s).say prompt).files rfl
  have holds : Holds (store data 0 (command ++ [10])) 0 (command ++ [10]) :=
    Grep.store_holds data [] (command ++ [10]) trivial
  obtain ⟨text, newline, _⟩ := (Text.holds_append _ _ _ _).mp holds
  rw [Nat.zero_add] at newline
  have closed : Holds (Function.update (store data 0 (command ++ [10])) command.length 0) 0 (command ++ [0]) := by
    refine (Text.holds_append _ _ _ _).mpr ⟨?_, ?_, trivial⟩
    · exact Text.holds_update _ 0 command _ 0 (Or.inr (by rw [Nat.zero_add])) text
    · rw [Nat.zero_add]
      exact Function.update_self _ _ _
  have exits : Holds (fun i => exitCommand.getD i 0) 0 (exitCommand ++ [0]) :=
    (Text.holds_append _ _ _ _).mpr ⟨Text.holds_list [] exitCommand 0,
      List.getD_eq_default _ _ (by rw [Nat.zero_add]), trivial⟩
  have compared := strcmp_zero _ _ shellBufsize 0 command exitCommand closed exits clean (by decide) (by omega)
  have name : nameIn (Function.update (store data 0 (command ++ [10])) command.length 0) shellBufsize = command := by
    obtain ⟨before, stop, _⟩ := (Text.holds_append _ _ _ _).mp closed
    refine name_from_stop command shellBufsize _ 0 (fun byte member zero => clean (zero ▸ member)) ?_ stop (by omega)
    intro k bound
    exact Text.holds_get _ 0 command before k bound 0
  have empty : Function.update (store data 0 (command ++ [10])) command.length 0 0 = 0 ↔ command = [] := by
    cases command with
    | nil => exact iff_of_true closed.1 rfl
    | cons byte rest =>
        refine iff_of_false (fun zero => clean ?_) (List.cons_ne_nil byte rest)
        rw [← zero, closed.1]
        exact List.mem_cons_self
  have counted : (command.length : Int) + 1 > 0 ∧ store data 0 (command ++ [10]) command.length = 10 := ⟨by omega, newline⟩
  have succeeds : ¬ (-1 : Int) = (command.length : Int) + 1 := by omega
  refine ⟨Function.update (store data 0 (command ++ [10])) command.length 0, ?_⟩
  simp only [shellRound, prompted, read, reads, lineResult, if_neg succeeds, if_pos counted, Int.add_sub_cancel,
    Int.toNat_natCast, compared, name, empty]
  by_cases leaves : command = exitCommand
  · rw [if_pos leaves, if_pos leaves]
    rfl
  · rw [if_neg leaves, if_neg leaves, obey]
    by_cases nothing : command = []
    · rw [if_pos nothing, if_pos nothing]
      rfl
    · rw [if_neg nothing, if_neg nothing, prompt_reports literal _ _ standard]
      rfl

theorem shell_obeys (commands : List (List UInt8)) (fuel : Nat) (data : Bytes) (turn : Nat) (s : Devices × List UInt8)
    (clean : ∀ command ∈ commands, (0 : UInt8) ∉ command ∧ command.length ≤ 126 ∧ command ≠ exitCommand)
    (reads : ∀ k < commands.length, readLine (lines (turn + k)) (shellBufsize - 1) = lineResult (commands.getD k [])) :
    ∃ after, Loop.run (shellRound image execute lines buf literal) (commands.length + fuel) ⟨data, turn, shellWorld fds s⟩ =
      Loop.run (shellRound image execute lines buf literal) fuel
        ⟨after, turn + commands.length, shellWorld fds (commands.foldl (obey execute) s)⟩ := by
  induction commands generalizing data turn s with
  | nil => exact ⟨data, by rw [List.length_nil, Nat.zero_add]; rfl⟩
  | cons command rest ih =>
      obtain ⟨noNul, short, stays⟩ := clean command List.mem_cons_self
      obtain ⟨next, round⟩ := shell_round image execute lines buf literal fds standard data turn s command noNul short
        (reads 0 (Nat.succ_pos _))
      rw [if_neg stays] at round
      obtain ⟨after, ran⟩ := ih next (turn + 1) (obey execute s command)
        (fun other member => clean other (List.mem_cons_of_mem _ member))
        (fun k bound => by
          have later := reads (k + 1) (Nat.succ_lt_succ bound)
          rwa [← Nat.add_assoc, Nat.add_right_comm] at later)
      have longer : (command :: rest).length + fuel = rest.length + fuel + 1 := by
        rw [List.length_cons]
        omega
      have place : turn + 1 + rest.length = turn + (command :: rest).length := by
        rw [List.length_cons]
        omega
      refine ⟨after, ?_⟩
      rw [longer, Loop.run_continues _ _ _ _ round, ran, place]
      rfl

end Round

def pressSeen (num : Int) (seen : Session × List (Nat → UInt8)) (data : UInt8) : Session × List (Nat → UInt8) :=
  let kb := keyboardHandler data seen.1.kb
  (seen.1.press (fun _ => num) data,
    if kb.displayed.enterRead = true then seen.2 ++ [kb.displayed.keyboardBuf] else seen.2)

def keyboardLines (typed : List (List UInt8)) (k : Nat) : Nat → UInt8 :=
  ((Run.final (pressSeen (shellBufsize - 1)) (startSession, []) (sessionCodes typed)).2[k]?).getD fun _ => 0

theorem press_seen_reads (num : Int) (seen : Session × List (Nat → UInt8)) (data : UInt8)
    (same : seen.1.results = seen.2.map fun line => readLine line num) :
    (pressSeen num seen data).1.results = (pressSeen num seen data).2.map fun line => readLine line num := by
  simp only [pressSeen, Session.press]
  split
  · rw [List.map_append, List.map_singleton, same]
    rfl
  · exact same

theorem seen_reads (num : Int) (codes : List UInt8) :
    (Run.final (pressSeen num) (startSession, []) codes).1 = Run.final (Session.press fun _ => num) startSession codes ∧
      (Run.final (pressSeen num) (startSession, []) codes).1.results =
        (Run.final (pressSeen num) (startSession, []) codes).2.map fun line => readLine line num := by
  induction codes using List.reverseRecOn with
  | nil => exact ⟨rfl, rfl⟩
  | append_singleton before data ih =>
      rw [Run.final_concat, Run.final_concat]
      refine ⟨?_, press_seen_reads num _ data ih.2⟩
      rw [← ih.1]
      rfl

theorem line_keys_no_nul (m : Modifiers) (line : List UInt8) : (.insert 0 : Key UInt8) ∉ lineKeys m line := by
  induction line generalizing m with
  | nil => exact List.not_mem_nil
  | cons data rest ih =>
      rw [lineKeys, List.mem_append, not_or]
      refine ⟨?_, ih _⟩
      rw [Keyboard.charKey]
      split
      · simp
      · split
        · exact List.not_mem_nil
        · rename_i nonzero
          intro member
          have same := List.mem_singleton.mp member
          exact nonzero (Key.insert.inj same).symm

theorem all_keys_no_nul (m : Modifiers) (lines : List (List UInt8)) :
    ∀ keys ∈ allLineKeys m lines, (0 : UInt8) ∉ editAll [] keys := by
  induction lines generalizing m with
  | nil => exact fun keys member => absurd member List.not_mem_nil
  | cons line rest ih =>
      rw [allLineKeys, List.forall_mem_cons]
      refine ⟨fun member => ?_, ih _⟩
      exact line_keys_no_nul m line ((LineEdit.edit_all_member [] _ 0 member).resolve_left List.not_mem_nil)

theorem session_reads (typed : List (List UInt8)) (typable : Typable typed)
    (kept : ∀ keys ∈ (typedLines typed).tail, underflows [] keys = false ∨ editAll [] keys = []) (k : Nat)
    (bound : k < (typedLines typed).length) :
    readLine (keyboardLines typed k) (shellBufsize - 1) = lineResult (((typedLines typed).map (editAll [])).getD k []) := by
  have plain : ∀ line ∈ typed, ∀ data ∈ line, Keyboard.plainKey data = true := by simpa using typable.1
  have session := Keyboard.session_delivers (fun _ => shellBufsize - 1) (fun _ => by decide) typed _ 0 startSession
    plain typable.2
    ⟨rfl, rfl⟩ (Nat.zero_le 1) Keyboard.start_editing
  obtain ⟨same, reads⟩ := seen_reads (shellBufsize - 1) (sessionCodes typed)
  rw [same, session] at reads
  have lines : delivered 0 (typedLines typed) = (typedLines typed).map fun keys => lineResult (editAll [] keys) := by
    cases whole : typedLines typed with
    | nil => rfl
    | cons first rest =>
        rw [whole] at kept
        rw [delivered, (Keyboard.delivered_exact rest).mpr kept]
        rfl
  have equal : (typedLines typed).map (fun keys => lineResult (editAll [] keys)) =
      (Run.final (pressSeen (shellBufsize - 1)) (startSession, []) (sessionCodes typed)).2.map
        fun line => readLine line (shellBufsize - 1) := lines ▸ reads
  have here := congrArg (fun results => results[k]?) equal
  simp only [List.getElem?_map, List.getElem?_eq_getElem bound, Option.map_some] at here
  obtain ⟨line, found, read⟩ := Option.map_eq_some_iff.mp here.symm
  rw [keyboardLines, found, Option.getD_some, read, List.getD_eq_getElem _ _ (by rw [List.length_map]; exact bound),
    List.getElem_map]

def lsImage : Image := fun address =>
  if address = 0 then 2 else if address = 4 ∨ address = 8 then 1
  else if address = 64 then 46 else if address = 96 then 1
  else if address = 128 then 108 else if address = 129 then 115 else if address = 160 then 2
  else if address = 4096 then 40
  else if 8192 ≤ address ∧ address < 8196 then Process.magic.getD (address - 8192) 0 else 0

def lsExecute : Execute := fun command devices output =>
  let cmds := Process.firstWord (nameAt (fun i => command.getD i 0) shellBufsize)
  match Process.findProgram lsImage (fun _ => 0) cmds with
  | none => (-1, devices, output)
  | some _ =>
      match lsMain lsImage (fun _ => 0) notePointer notePointer (fun _ => 0) 257 ⟨⟨noteWorld.files.fds, devices⟩, output⟩ with
      | some (status, w) => (status, w.files.devices, w.output)
      | none => (256, devices, output)

def lsTyped : List (List UInt8) := [[0x26, 0x1F], [0x2D], [0x12, 0x2D, 0x17, 0x14]]

end SimpleKernel.Programs
