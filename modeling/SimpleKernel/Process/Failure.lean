import SimpleKernel.Process.Arguments
import SimpleKernel.Process.Nesting

set_option autoImplicit false

namespace SimpleKernel.Process

open FileSystem (Image)

-- What the caller of execute sees. Where a store passes cmds or arg_dat it runs
-- up the kernel stack, over the frames on it and then over the PCB above it.
inductive Answer where
  | failure
  | away
  | unknown
deriving DecidableEq, Repr

def Answer.ofLaunch (launched : Bool × Machine) : Answer × Machine :=
  (if launched.1 then .away else .failure, launched.2)

def Machine.executeAnswer (image : Image) (exeData : Bytes) (command : Option CString) (p q : Slot) (m : Machine) :
    Answer × Machine :=
  match command with
  | none => (.failure, m)
  | some command =>
      if overruns command then (.unknown, { m with control := .lost })
      else if (firstWord command).bytes = [] then (.failure, m)
      else if isQuit command then
        match m.halt image exeData 0 p q with
        | some halted => (.away, halted)
        | none => Answer.ofLaunch (m.launch image exeData .syscall (some p) q command)
      else Answer.ofLaunch (m.launch image exeData .syscall (some p) q command)

structure Unchanged (m next : Machine) : Prop where
  pcbState : next.pcbState = m.pcbState
  pcbs : next.pcbs = m.pcbs
  terminals : next.terminals = m.terminals
  terminalShell : next.terminalShell = m.terminalShell
  runningTerminal : next.runningTerminal = m.runningTerminal
  activeTerminal : next.activeTerminal = m.activeTerminal
  paging : next.paging = m.paging
  esp0 : next.esp0 = m.esp0
  control : next.control = m.control

def Fits : Option CString → Prop
  | none => True
  | some command => overruns command = false

instance : (command : Option CString) → Decidable (Fits command)
  | none => inferInstanceAs (Decidable True)
  | some _ => inferInstanceAs (Decidable (_ = _))

theorem execute_answer (image : Image) (exeData : Bytes) (command : Option CString) (p q : Slot) (m : Machine) :
    (m.executeAnswer image exeData command p q).2 = m.execute image exeData command p q := by
  cases command with
  | none => rfl
  | some command =>
      simp only [Machine.executeAnswer, Machine.execute]
      split
      · rfl
      · split
        · rfl
        · split
          · cases m.halt image exeData 0 p q <;> rfl
          · rfl

@[simp] theorem of_launch_failure (launched : Bool × Machine) :
    (Answer.ofLaunch launched).1 = .failure ↔ launched.1 = false := by
  rw [Answer.ofLaunch]
  cases launched.1 <;> simp

theorem launch_failed (image : Image) (exeData : Bytes) (caller : Caller) (creator : Option Slot) (q : Slot)
    (command : CString) (m : Machine) (failed : (m.launch image exeData caller creator q command).1 = false) :
    Unchanged m (m.launch image exeData caller creator q command).2 := by
  rcases launch_cases image exeData caller creator q command m with
    ⟨_, refusal, refused, same | ⟨same, _⟩⟩ | ⟨program, j, _, _, control, _, started⟩
  · rw [refused, same]
    exact ⟨rfl, rfl, rfl, rfl, rfl, rfl, rfl, rfl, rfl⟩
  · rw [refused, same]
    exact ⟨rfl, rfl, rfl, rfl, rfl, rfl, rfl, rfl, rfl⟩
  · rw [started] at failed
    cases failed

def Rejected (image : Image) (exeData : Bytes) (q : Slot) (m : Machine) : Option CString → Prop
  | none => True
  | some command =>
      (firstWord command).bytes = [] ∨
        (isQuit command = false ∨ m.pcbState (m.pcbs q).pid = false) ∧
          (findProgram image exeData (firstWord command) = none ∨ ∀ p, m.pcbState p = true)

theorem halt_none_iff (image : Image) (exeData : Bytes) (status : UInt8) (p q : Slot) (m : Machine) :
    m.halt image exeData status p q = none ↔ m.pcbState (m.pcbs q).pid = false := by
  rw [Machine.halt]
  by_cases unused : m.pcbState (m.pcbs q).pid = false
  · rw [if_pos unused]
    exact iff_of_true rfl unused
  · rw [if_neg unused]
    refine iff_of_false ?_ unused
    dsimp only
    split
    · split <;> exact Option.some_ne_none _
    · exact Option.some_ne_none _

theorem launch_failed_iff (image : Image) (exeData : Bytes) (caller : Caller) (creator : Option Slot) (q : Slot)
    (command : CString) (m : Machine) : (m.launch image exeData caller creator q command).1 = false ↔
      findProgram image exeData (firstWord command) = none ∨ ∀ p, m.pcbState p = true := by
  rw [← free_slot_none]
  rcases launch_cases image exeData caller creator q command m with
    ⟨rejected, refusal, refused, _⟩ | ⟨program, j, found, free, control, _, started⟩
  · rw [refused]
    exact iff_of_true rfl rejected
  · rw [started, found, free]
    simp

theorem failure_iff (image : Image) (exeData : Bytes) (command : Option CString) (p q : Slot) (m : Machine)
    (fits : Fits command) :
    (m.executeAnswer image exeData command p q).1 = .failure ↔ Rejected image exeData q m command := by
  cases command with
  | none => exact iff_of_true rfl trivial
  | some command =>
      have within : ¬ overruns command = true := by simp [show overruns command = false from fits]
      rw [Machine.executeAnswer, if_neg within, Rejected]
      by_cases empty : (firstWord command).bytes = []
      · rw [if_pos empty]
        exact iff_of_true rfl (Or.inl empty)
      · have launched := launch_failed_iff image exeData .syscall (some p) q command m
        rw [if_neg empty, ← launched]
        by_cases quit : isQuit command = true
        · cases done : m.halt image exeData 0 p q with
          | none =>
              have unused := (halt_none_iff image exeData 0 p q m).mp done
              simp [quit, unused, empty]
          | some halted =>
              have used := mt (halt_none_iff image exeData 0 p q m).mpr (by simp [done])
              simp [quit, used, empty]
        · simp [quit, empty]

theorem failure_unchanged (image : Image) (exeData : Bytes) (command : Option CString) (p q : Slot) (m : Machine)
    (failed : (m.executeAnswer image exeData command p q).1 = .failure) :
    Unchanged m (m.executeAnswer image exeData command p q).2 := by
  cases command with
  | none => exact ⟨rfl, rfl, rfl, rfl, rfl, rfl, rfl, rfl, rfl⟩
  | some command =>
      rw [Machine.executeAnswer] at failed ⊢
      by_cases long : overruns command = true
      · rw [if_pos long] at failed
        cases failed
      · rw [if_neg long] at failed ⊢
        by_cases empty : (firstWord command).bytes = []
        · rw [if_pos empty]
          exact ⟨rfl, rfl, rfl, rfl, rfl, rfl, rfl, rfl, rfl⟩
        · rw [if_neg empty] at failed ⊢
          by_cases quit : isQuit command = true
          · rw [if_pos quit] at failed ⊢
            cases done : m.halt image exeData 0 p q with
            | none =>
                -- halt has refused: nothing was touched, and the word is looked up after all.
                rw [done] at failed
                exact launch_failed image exeData .syscall (some p) q command m ((of_launch_failure _).mp failed)
            | some halted =>
                rw [done] at failed
                cases failed
          · rw [if_neg quit] at failed ⊢
            exact launch_failed image exeData .syscall (some p) q command m ((of_launch_failure _).mp failed)

def argumentStores (argDat : Nat) (command : CString) : List Nat :=
  List.range' argDat ((arguments command).length + 1)

-- The stack of a slot ends right below the PCB of the slot before it.
theorem long_argument_reaches_pcb (q above : Slot) (argDat : Nat) (command : CString) (next : above.val + 1 = q.val)
    (onStack : pcbAddress q ≤ argDat ∧ argDat ≤ kernelStackTop q) (long : page8KB ≤ (arguments command).length) :
    pcbAddress above ∈ argumentStores argDat command := by
  have bound := q.isLt
  simp only [argumentStores, List.mem_range'_1]
  simp only [pcbAddress, kernelStackTop, page8MB, page8KB] at onStack long ⊢
  omega

def longArgument : CString where
  bytes := 120 :: 32 :: List.replicate page8KB 97
  noNul := by
    intro byte member
    simp only [List.mem_cons, List.mem_replicate] at member
    rcases member with rfl | rfl | ⟨_, rfl⟩ <;> decide

theorem long_argument_length : (arguments longArgument).length = page8KB := by
  have word : (firstWord longArgument).bytes = [120] := by decide +kernel
  have copied : ∀ k, longArgument.memory (k + 1 + 1) = (List.replicate page8KB 97).getD k 0 := fun _ => rfl
  have clean : ∀ k < page8KB, ¬ EndsArguments (longArgument.memory (k + 1 + 1)) := by
    intro k inside
    rw [copied, List.getD_eq_getElem _ _ (by rwa [List.length_replicate]), List.getElem_replicate]
    decide
  have ends : longArgument.memory (page8KB + 1 + 1) = 0 := by
    rw [copied, List.getD_eq_default _ _ (by rw [List.length_replicate])]
  have fits : page8KB ≤ longArgument.bytes.length := by
    simp only [longArgument, List.length_cons, List.length_replicate]
    omega
  have stops := args_end_exact (fun k => longArgument.memory (k + 1 + 1)) longArgument.bytes.length page8KB clean
    (Or.inr ends) fits
  have space : longArgument.memory 1 = 32 := rfl
  simp only [arguments, word, List.length_singleton, space, if_true, List.length_map, List.length_range, stops]

theorem rejected_execute_exact (image : Image) (exeData : Bytes) (command : Option CString) (p q : Slot) (m : Machine)
    (rejected : Rejected image exeData q m command) :
    (m.executeAnswer image exeData command p q).1 = .failure ∧ Unchanged m (m.execute image exeData command p q) ↔
      Fits command := by
  rw [← execute_answer]
  constructor
  · rintro ⟨failed, _⟩
    cases command with
    | none => trivial
    | some command =>
        by_contra long
        have tooLong : overruns command = true := by simpa [Fits] using long
        rw [Machine.executeAnswer, if_pos tooLong] at failed
        cases failed
  · intro fits
    have failed := (failure_iff image exeData command p q m fits).mpr rejected
    exact ⟨failed, failure_unchanged image exeData command p q m failed⟩

def childBoot : Machine := Run.final (step shellImage) shellBoot [shellCall]

-- No file is called x, but the copy of its 8KB argument comes first: wherever
-- arg_dat stands on the stack of slot 1, it runs into the PCB of slot 0.
theorem rejected_argument_overruns :
    childBoot.control = .user 1 ∧ Rejected shellImage (fun _ => 0) 1 childBoot (some longArgument) ∧
      (∀ argDat, pcbAddress 1 ≤ argDat ∧ argDat ≤ kernelStackTop 1 →
        pcbAddress 0 ∈ argumentStores argDat longArgument) ∧
      ¬ ((childBoot.executeAnswer shellImage (fun _ => 0) (some longArgument) 1 1).1 = .failure ∧
        Unchanged childBoot (childBoot.execute shellImage (fun _ => 0) (some longArgument) 1 1)) := by
  have length := long_argument_length
  have tooLong : overruns longArgument = true := by
    have word : ¬ (firstWord longArgument).bytes = [] := by decide +kernel
    simp [overruns, word, length, page8KB]
  refine ⟨by decide +kernel, ?_, ?_, ?_⟩
  · exact Or.inr ⟨Or.inl (by decide +kernel), Or.inl (by decide +kernel)⟩
  · intro argDat onStack
    exact long_argument_reaches_pcb 1 0 argDat longArgument rfl onStack (Nat.le_of_eq length.symm)
  · rintro ⟨failed, _⟩
    rw [Machine.executeAnswer, if_pos tooLong] at failed
    cases failed

def fullBoot : Machine := Run.final (step shellImage) shellBoot (List.replicate 5 shellCall)

theorem full_table_refuses :
    (fullBoot.executeAnswer shellImage (fun _ => 0) (some shellCommand) fullBoot.current fullBoot.current).1 = .failure ∧
      Unchanged fullBoot (fullBoot.execute shellImage (fun _ => 0) (some shellCommand) fullBoot.current
        fullBoot.current) := by
  have full : ∀ p, fullBoot.pcbState p = true := by decide +kernel
  have other : isQuit shellCommand = false := by decide +kernel
  exact (rejected_execute_exact shellImage (fun _ => 0) (some shellCommand) fullBoot.current fullBoot.current fullBoot
    (Or.inr ⟨Or.inl other, Or.inr full⟩)).mpr (by decide +kernel)

end SimpleKernel.Process
