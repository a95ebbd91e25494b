import SimpleKernel.Process.Arguments

set_option autoImplicit false

namespace SimpleKernel.Process

def cmdsSize : Nat := 32

def argDatSize : Nat := 128

-- A copy stores at every index its loop comes to: the bytes it passes, and its
-- NUL where it ends. The traces are exact up to the first index outside the array.
def cmdsStores (command : CString) : List Nat :=
  List.range cmdsSize ++ Scan.visited (fun i => EndsWord (command.memory i)) 32 0

-- An empty word ends execute; strlen(cmds) is the length of the word.
def argDatStores (command : CString) : List Nat :=
  let len := (firstWord command).bytes.length
  List.range argDatSize ++
    if len = 0 then []
    else if command.memory len = 32 then
      Scan.visited (fun i => EndsArguments (command.memory (i + len + 1))) command.bytes.length 0
    else []

def argsStores (command : CString) : List Nat :=
  if (firstWord command).bytes.length = 0 then []
  else Scan.visited (fun i => (arguments command).getD i 0 = 0) (arguments command).length 0

structure StoresInside (command : CString) : Prop where
  cmds : ∀ i ∈ cmdsStores command, i < cmdsSize
  argDat : ∀ i ∈ argDatStores command, i < argDatSize
  args : (argsStores command).length ≤ argsSize

structure ShortCommand (command : CString) : Prop where
  word : ∃ k < 32, EndsWord (command.memory k)
  arguments : ∀ len, 0 < len → (∀ k < len, ¬ EndsWord (command.memory k)) → command.memory len = 32 →
    ∃ d < 128, EndsArguments (command.memory (d + len + 1))

theorem first_word_length (command : CString) : (firstWord command).bytes.length = wordEnd command.memory 32 0 := by
  simp [firstWord]

theorem append_range_inside (size : Nat) (stores : List Nat) :
    (∀ i ∈ List.range size ++ stores, i < size) ↔ ∀ i ∈ stores, i < size := by
  constructor
  · intro inside i member
    exact inside i (List.mem_append_right _ member)
  · intro inside i member
    cases List.mem_append.mp member with
    | inl cleared => exact List.mem_range.mp cleared
    | inr stored => exact inside i stored

section Command

variable (command : CString)

theorem cmds_stores_inside : (∀ i ∈ cmdsStores command, i < cmdsSize) ↔ wordEnd command.memory 32 0 < 32 := by
  rw [cmdsStores, append_range_inside, word_end_scan]
  exact Scan.visited_below (fun k => EndsWord (command.memory k)) 32 cmdsSize

theorem short_word : (∃ k < 32, EndsWord (command.memory k)) ↔ wordEnd command.memory 32 0 < 32 := by
  rw [word_end_scan, Scan.first_below]
  simp

theorem arguments_end (len : Nat) : argsEnd (fun k => command.memory (k + len + 1)) command.bytes.length 0 < 128 ↔
    ∃ d < 128, EndsArguments (command.memory (d + len + 1)) := by
  rw [args_end_scan, Scan.first_below]
  constructor
  · rintro (short | ⟨d, _, inside, stops⟩)
    · refine ⟨command.bytes.length, by omega, Or.inr ?_⟩
      exact List.getD_eq_default _ _ (by omega)
    · exact ⟨d, inside, stops⟩
  · rintro ⟨d, inside, stops⟩
    exact Or.inr ⟨d, Nat.zero_le d, inside, stops⟩

theorem arguments_short : (arguments command).length < 128 ↔
    (command.memory (wordEnd command.memory 32 0) = 32 →
      ∃ d < 128, EndsArguments (command.memory (d + wordEnd command.memory 32 0 + 1))) := by
  simp only [arguments, first_word_length]
  split
  · rename_i space
    rw [List.length_map, List.length_range, arguments_end]
    exact ⟨fun early _ => early, fun early => early space⟩
  · rename_i other
    exact iff_of_true (Nat.succ_pos 127) fun space => absurd space other

theorem arg_dat_stores_inside : (∀ i ∈ argDatStores command, i < argDatSize) ↔
    (0 < wordEnd command.memory 32 0 → (arguments command).length < 128) := by
  rw [arguments_short, argDatStores, append_range_inside, first_word_length]
  generalize wordEnd command.memory 32 0 = len
  cases len with
  | zero => simp
  | succ len =>
      rw [if_neg (Nat.succ_ne_zero len)]
      by_cases space : command.memory (len + 1) = 32
      · have copied := Scan.visited_below (fun k => EndsArguments (command.memory (k + (len + 1) + 1))) command.bytes.length
          argDatSize
        rw [if_pos space, copied, ← args_end_scan (fun k => command.memory (k + (len + 1) + 1))]
        exact (arguments_end command (len + 1)).trans ⟨fun early _ _ => early, fun early => early (Nat.succ_pos len) space⟩
      · rw [if_neg space]
        constructor
        · intro _ _ found
          exact absurd found space
        · intro _ i member
          cases member

theorem args_stores_length (short : 0 < wordEnd command.memory 32 0 → (arguments command).length < 128) :
    (argsStores command).length ≤ argsSize := by
  rw [argsStores, first_word_length]
  split
  · exact Nat.zero_le argsSize
  · rename_i nonempty
    have copied := Scan.visited_length (fun i => (arguments command).getD i 0 = 0) (arguments command).length 0
    exact Nat.le_trans copied (short (Nat.pos_of_ne_zero nonempty))

theorem stores_inside_iff : StoresInside command ↔
    wordEnd command.memory 32 0 < 32 ∧ (0 < wordEnd command.memory 32 0 → (arguments command).length < 128) := by
  constructor
  · intro inside
    exact ⟨(cmds_stores_inside command).mp inside.cmds, (arg_dat_stores_inside command).mp inside.argDat⟩
  · rintro ⟨word, short⟩
    exact ⟨(cmds_stores_inside command).mpr word, (arg_dat_stores_inside command).mpr short, args_stores_length command short⟩

theorem overruns_iff : overruns command = false ↔ StoresInside command := by
  have empty : (firstWord command).bytes = [] ↔ wordEnd command.memory 32 0 = 0 := by
    rw [← List.length_eq_zero_iff, first_word_length]
  rw [stores_inside_iff, overruns, Bool.or_eq_false_iff, first_word_length, decide_eq_false_iff_not, Nat.not_le]
  apply and_congr_right
  intro _
  rw [Bool.and_eq_false_iff, decide_eq_false_iff_not, decide_eq_false_iff_not, not_ne_iff, empty, Nat.not_le,
    Nat.pos_iff_ne_zero]
  exact or_iff_not_imp_left

theorem parsing_exact : StoresInside command ↔ ShortCommand command := by
  rw [stores_inside_iff, arguments_short, ← short_word]
  constructor
  · rintro ⟨word, ends⟩
    refine ⟨word, ?_⟩
    intro len some clean space
    have within : len ≤ 32 := by
      obtain ⟨k, inside, stops⟩ := word
      by_contra long
      exact clean k (by omega) stops
    have here : wordEnd command.memory 32 0 = len :=
      word_end_exact command.memory 32 len clean (Or.inr (Or.inl space)) within
    rw [← here]
    rw [← here] at some space
    exact ends some space
  · intro short
    refine ⟨short.word, ?_⟩
    intro some space
    exact short.arguments _ some (fun k before => word_end_clean command.memory 32 0 k (Nat.zero_le k) before) space

end Command

def longWord : CString where
  bytes := List.replicate 32 97
  noNul := by
    intro byte member
    rw [List.eq_of_mem_replicate member]
    decide

theorem long_word_overruns : ¬ ∀ command : CString, StoresInside command := by
  intro inside
  have last : 32 ∈ cmdsStores longWord := by decide
  exact absurd ((inside longWord).cmds 32 last) (by decide)

end SimpleKernel.Process
