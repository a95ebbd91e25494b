import SimpleKernel.Emulate.Execute
import SimpleKernel.Process.Arguments

set_option autoImplicit false

namespace SimpleKernel.Emulate

open Process (Spelled EndsWord)
open Text (Holds)

def endArgs (place : Nat) (nbytes : Int) (buf : Bytes) : Int × Bytes :=
  if nbytes < 1 then (-1, buf) else (0, Function.update buf place 0)

def argsLoop : List (List UInt8) → Nat → Int → Bytes → Int × Bytes
  | [], place, nbytes, buf => endArgs place nbytes buf
  | arg :: rest, place, nbytes, buf =>
      if nbytes < arg.length then (-1, buf)
      else
        let copied := ece391Strcpy arg place buf
        match rest with
        | [] => endArgs (place + arg.length) (nbytes - arg.length) copied
        | _ :: _ =>
            if nbytes - arg.length < 1 then (-1, copied)
            else argsLoop rest (place + arg.length + 1) (nbytes - arg.length - 1)
              (Function.update copied (place + arg.length) 32)

def ece391Getargs (argv : List (List UInt8)) (buf : Bytes) (nbytes : Int) : Int × Bytes := argsLoop (argv.drop 1) 0 nbytes buf

def joined (words : List (List UInt8)) : List UInt8 := [32].intercalate words

def Fills (words : List (List UInt8)) (nbytes : Int) : Prop :=
  ∃ n < words.length, ((joined (words.take (n + 1))).length : Int) = nbytes

section Joined

variable (arg second : List UInt8) (rest : List (List UInt8))

theorem joined_cons : joined (arg :: second :: rest) = arg ++ 32 :: joined (second :: rest) := by
  rw [joined, List.intercalate_cons_cons, List.append_assoc]
  rfl

theorem joined_length :
    ((joined (arg :: second :: rest)).length : Int) = arg.length + 1 + (joined (second :: rest)).length := by
  rw [joined_cons, List.length_append, List.length_cons]
  omega

theorem joined_short (words : List (List UInt8)) : arg.length ≤ (joined (arg :: words)).length := by
  cases words with
  | nil => rw [joined, List.intercalate_singleton]
  | cons second rest =>
      rw [joined_cons, List.length_append]
      exact Nat.le_add_right _ _

theorem fills_first (words : List (List UInt8)) : Fills (arg :: words) arg.length :=
  ⟨0, Nat.succ_pos _, by rw [List.take_succ_cons, List.take_zero, joined, List.intercalate_singleton]⟩

theorem fills_later (nbytes : Int) (more : (arg.length : Int) < nbytes) :
    Fills (arg :: second :: rest) nbytes ↔ Fills (second :: rest) (nbytes - arg.length - 1) := by
  constructor
  · rintro ⟨n, bound, length⟩
    cases n with
    | zero =>
        rw [List.take_succ_cons, List.take_zero, joined, List.intercalate_singleton] at length
        omega
    | succ n =>
        refine ⟨n, Nat.lt_of_succ_lt_succ bound, ?_⟩
        rw [List.take_succ_cons, List.take_succ_cons, joined_length, ← List.take_succ_cons] at length
        omega
  · rintro ⟨n, bound, length⟩
    refine ⟨n + 1, Nat.succ_lt_succ bound, ?_⟩
    rw [List.take_succ_cons, List.take_succ_cons, joined_length, ← List.take_succ_cons]
    omega

end Joined

structure Enough (text : List UInt8) (place : Nat) (buf : Bytes) (result : Int × Bytes) : Prop where
  returns : result.1 = 0
  stored : Holds result.2 place (text ++ [0])
  other : ∀ k, k < place ∨ place + text.length < k → result.2 k = buf k

structure Short (words : List (List UInt8)) (place : Nat) (nbytes : Int) (buf : Bytes) (result : Int × Bytes) : Prop where
  returns : result.1 = -1
  other : ∀ k : Nat, k < place ∨ place + nbytes < k → result.2 k = buf k
  overrun : Fills words nbytes → ∀ k : Nat, (k : Int) = place + nbytes → result.2 k = 0
  inside : ¬ Fills words nbytes → ∀ k : Nat, (k : Int) = place + nbytes → result.2 k = buf k

theorem end_enough (place : Nat) (nbytes : Int) (text : List UInt8) (old buf : Bytes) (room : 1 ≤ nbytes)
    (holds : Holds buf place text) (other : ∀ k, k < place ∨ place + text.length < k → buf k = old k) :
    Enough text place old (endArgs (place + text.length) nbytes buf) := by
  have positive : ¬ nbytes < 1 := by omega
  rw [endArgs, if_neg positive]
  refine ⟨rfl, (Text.holds_append _ _ _ _).mpr ⟨?_, Function.update_self _ _ _, trivial⟩, ?_⟩
  · exact Text.holds_update buf place text _ 0 (Or.inr (Nat.le_refl _)) holds
  · intro k apart
    exact (Function.update_of_ne (by omega) _ _).trans (other k apart)

theorem args_loop_enough (words : List (List UInt8)) (place : Nat) (nbytes : Int) (buf : Bytes)
    (room : ((joined words).length : Int) < nbytes) : Enough (joined words) place buf (argsLoop words place nbytes buf) := by
  induction words generalizing place nbytes buf with
  | nil => exact end_enough place nbytes [] buf buf (by omega) trivial fun _ _ => rfl
  | cons arg rest ih =>
      have short := joined_short arg rest
      have fits : ¬ nbytes < arg.length := by omega
      have copied := ((Text.holds_append _ _ _ _).mp (strcpy_holds arg place buf)).1
      have outside := strcpy_other arg place buf
      rw [argsLoop, if_neg fits]
      cases rest with
      | nil =>
          have single : joined [arg] = arg := List.intercalate_singleton
          rw [single] at room ⊢
          exact end_enough place (nbytes - arg.length) arg buf _ (by omega) copied outside
      | cons second rest =>
          rw [joined_length] at room
          have goes : ¬ nbytes - arg.length < 1 := by omega
          obtain ⟨returns, stored, other⟩ := ih (place + arg.length + 1) (nbytes - arg.length - 1)
            (Function.update (ece391Strcpy arg place buf) (place + arg.length) 32) (by omega)
          dsimp only
          rw [if_neg goes, joined_cons]
          refine ⟨returns, ?_, ?_⟩
          · rw [List.append_assoc, List.cons_append, Text.holds_append]
            refine ⟨?_, ?_, stored⟩
            · apply Text.holds_congr _ _ place arg _ copied
              intro i low high
              rw [other i (Or.inl (by omega)), Function.update_of_ne (by omega)]
            · rw [other _ (Or.inl (Nat.lt_succ_self _)), Function.update_self]
          · intro k apart
            rw [List.length_append, List.length_cons] at apart
            rw [other k (by omega), Function.update_of_ne (by omega), outside k (by omega)]

theorem args_loop_short (words : List (List UInt8)) (place : Nat) (nbytes : Int) (buf : Bytes)
    (room : nbytes ≤ (joined words).length) : Short words place nbytes buf (argsLoop words place nbytes buf) := by
  induction words generalizing place nbytes buf with
  | nil =>
      have none : nbytes < 1 := Int.lt_add_one_of_le room
      have empty : ¬ Fills [] nbytes := fun ⟨_, bound, _⟩ => absurd bound (Nat.not_lt_zero _)
      rw [argsLoop, endArgs, if_pos none]
      exact ⟨rfl, fun _ _ => rfl, fun fills => absurd fills empty, fun _ _ _ => rfl⟩
  | cons arg rest ih =>
      have outside := strcpy_other arg place buf
      have closed : ece391Strcpy arg place buf (place + arg.length) = 0 :=
        ((Text.holds_append _ _ _ _).mp (strcpy_holds arg place buf)).2.1
      have filled (same : nbytes = arg.length) : Short (arg :: rest) place nbytes buf (-1, ece391Strcpy arg place buf) := by
        refine ⟨rfl, fun k apart => outside k (by omega), fun _ k here => ?_, fun never => ?_⟩
        · have there : k = place + arg.length := by omega
          exact there ▸ closed
        · exact absurd (same ▸ fills_first arg rest) never
      rw [argsLoop]
      by_cases long : nbytes < arg.length
      · have never : ¬ Fills (arg :: rest) nbytes := by
          rintro ⟨n, _, length⟩
          rw [List.take_succ_cons] at length
          have short := joined_short arg (rest.take n)
          omega
        rw [if_pos long]
        exact ⟨rfl, fun _ _ => rfl, fun fills => absurd fills never, fun _ _ _ => rfl⟩
      · rw [if_neg long]
        cases rest with
        | nil =>
            have single : joined [arg] = arg := List.intercalate_singleton
            rw [single] at room
            have none : nbytes - arg.length < 1 := by omega
            dsimp only
            rw [endArgs, if_pos none]
            exact filled (by omega)
        | cons second rest =>
            dsimp only
            by_cases none : nbytes - arg.length < 1
            · rw [if_pos none]
              exact filled (by omega)
            · rw [joined_length] at room
              obtain ⟨returns, other, overrun, inside⟩ := ih (place + arg.length + 1) (nbytes - arg.length - 1)
                (Function.update (ece391Strcpy arg place buf) (place + arg.length) 32) (by omega)
              have elsewhere (k : Nat) (apart : k < place ∨ place + arg.length < k) :
                  Function.update (ece391Strcpy arg place buf) (place + arg.length) 32 k = buf k := by
                rw [Function.update_of_ne (by omega), outside k apart]
              rw [if_neg none]
              have later := fills_later arg second rest nbytes (by omega)
              refine ⟨returns, ?_, ?_, ?_⟩
              · intro k apart
                rw [other k (by push_cast; omega), elsewhere k (by omega)]
              · intro fills k here
                exact overrun (later.mp fills) k (by push_cast; omega)
              · intro never k here
                rw [inside (fun fills => never (later.mpr fills)) k (by push_cast; omega), elsewhere k (by omega)]

-- The call succeeds when there is room for the words and their NUL, and it
-- leaves them alone in the buffer. Else it fails, and overwrites the byte behind
-- the buffer in one case.
theorem ece391_getargs_exact (argv : List (List UInt8)) (buf : Bytes) (nbytes : Int) :
    (((joined (argv.drop 1)).length : Int) < nbytes → Enough (joined (argv.drop 1)) 0 buf (ece391Getargs argv buf nbytes)) ∧
      (nbytes ≤ (joined (argv.drop 1)).length → Short (argv.drop 1) 0 nbytes buf (ece391Getargs argv buf nbytes)) :=
  ⟨args_loop_enough (argv.drop 1) 0 nbytes buf, args_loop_short (argv.drop 1) 0 nbytes buf⟩

def Agree (argv : List (List UInt8)) (args : Bytes) : Prop :=
  ∀ buf nbytes, (ece391Getargs argv buf nbytes).1 = (Process.getargs args (some buf) nbytes).1 ∧
    ((ece391Getargs argv buf nbytes).1 = 0 →
      (Process.getargs args (some buf) nbytes).2 = some (ece391Getargs argv buf nbytes).2)

theorem strcpy_kernel (text : List UInt8) (buf stored : Bytes) (holds : Holds stored 0 (text ++ [0]))
    (other : ∀ k, text.length < k → stored k = buf k) : stored = Process.strcpy text buf := by
  funext k
  rw [Process.strcpy]
  split
  · rename_i inside
    have here := Text.holds_get stored 0 _ holds k (by rw [List.length_append, List.length_singleton]; omega) 0
    rw [Nat.zero_add] at here
    rw [here]
    rcases Nat.lt_or_ge k text.length with inText | atEnd
    · rw [List.getD_append _ _ _ _ inText]
    · have same : k = text.length := Nat.le_antisymm inside atEnd
      rw [same, List.getD_append_right _ _ _ _ (Nat.le_refl _), Nat.sub_self, List.getD_eq_default _ _ (Nat.le_refl _)]
      rfl
  · rename_i behind
    exact other k (by omega)

section Kernel

variable (args : List UInt8) (old : Bytes) (noNul : ∀ byte ∈ args, byte ≠ 0) (fits : args.length ≤ 127)

include noNul fits

theorem agree_joined (argv : List (List UInt8)) :
    Agree argv (Process.strcpy args old) ↔ args = joined (argv.drop 1) := by
  have enough (nbytes : Int) (buf : Bytes) := args_loop_enough (argv.drop 1) 0 nbytes buf
  have short (nbytes : Int) (buf : Bytes) := args_loop_short (argv.drop 1) 0 nbytes buf
  generalize whole : joined (argv.drop 1) = text at enough short
  constructor
  · intro agree
    have kernel := Process.getargs_text args old noNul fits
    have length : args.length = text.length := by
      rcases Nat.lt_trichotomy args.length text.length with less | same | more
      · have first := (agree (fun _ => 0) (args.length + 1)).1
        rw [kernel, if_pos (by omega), ece391Getargs, (short (args.length + 1) (fun _ => 0) (by omega)).returns] at first
        cases first
      · exact same
      · have first := (agree (fun _ => 0) (text.length + 1)).1
        rw [kernel, if_neg (by omega), ece391Getargs, (enough (text.length + 1) (fun _ => 0) (by omega)).returns] at first
        cases first
    have emulated := enough (text.length + 1) (fun _ => 0) (by omega)
    have second := (agree (fun _ => 0) (text.length + 1)).2 emulated.returns
    rw [kernel, if_pos (by omega), Option.some.injEq] at second
    have held := (Text.holds_append _ _ _ _).mp emulated.stored
    have same : (argsLoop (argv.drop 1) 0 (text.length + 1) fun _ => 0).2 = Process.strcpy args fun _ => 0 := second.symm
    rw [same] at held
    have mine : Holds (Process.strcpy args fun _ => 0) 0 args := by
      apply Text.holds_congr (fun i => (([] : List UInt8) ++ args).getD i 0) _ 0 args _ (Text.holds_list [] args 0)
      intro i _ bound
      rw [Process.strcpy, if_pos (by omega)]
      rfl
    exact Text.holds_unique _ 0 args text length mine held.1
  · rintro rfl
    intro buf nbytes
    rw [Process.getargs_text _ old noNul fits]
    by_cases room : (args.length : Int) < nbytes
    · obtain ⟨returns, stored, other⟩ := enough nbytes buf room
      rw [if_pos room]
      refine ⟨returns, fun _ => congrArg some (strcpy_kernel args buf _ stored fun k behind => ?_).symm⟩
      exact other k (Or.inr (by omega))
    · rw [if_neg room]
      have returns := (short nbytes buf (by omega)).returns
      refine ⟨returns, fun zero => ?_⟩
      rw [ece391Getargs, returns] at zero
      cases zero

end Kernel

theorem arguments_agree (command : CString) (name args : List UInt8) (words : List (List UInt8)) (stack old : Bytes)
    (spelled : Spelled command name args) (cut : Command command.bytes name words) (fits : command.bytes.length ≤ 1023) :
    ∃ argv, Parsed command stack argv ∧ argv.head? = some (path (Process.firstWord command).bytes) ∧
      (Agree argv (Process.strcpy (Process.arguments command) old) ↔ args = joined words) := by
  have noNul : ∀ byte ∈ args, byte ≠ 0 := fun byte member =>
    Process.spelled_bytes command name args spelled byte (Or.inr member)
  refine ⟨path name :: words, command_parsed command stack fits name words cut, ?_, ?_⟩
  · rw [Process.spelled_word command name args spelled]
    rfl
  · rw [Process.spelled_arguments command name args spelled]
    exact agree_joined args old noNul spelled.argsLength.2 (path name :: words)

theorem arguments_agree_words :
    ∃ command : CString, command.bytes = [99, 32, 97, 32, 98] ∧
      ∃ argv, Parsed command (fun _ => 7) argv ∧ argv.head? = some (path (Process.firstWord command).bytes) ∧
        (Agree argv (Process.strcpy (Process.arguments command) fun _ => 7) ↔ [97, 32, 98] = joined [[97], [98]]) := by
  have spelled : Spelled ⟨[99, 32, 97, 32, 98], by simp⟩ [99] [97, 32, 98] :=
    ⟨⟨[], rfl, by decide⟩, by decide, by decide, by simp, by simp⟩
  have word (byte : UInt8) (letter : 32 ∉ [byte] ∧ 10 ∉ [byte]) : Words.Word 32 10 [byte] :=
    ⟨List.cons_ne_nil _ _, letter.1, letter.2⟩
  have cut : Command [99, 32, 97, 32, 98] [99] [[97], [98]] :=
    Command.args [99] 32 [97, 32, 98] [[97], [98]] (by simp [EndsWord]) (Or.inl rfl)
      (Words.Cut.next 0 [97] 32 [98] [[98]] (word 97 (by decide)) (Or.inl rfl) (Words.Cut.last 0 [98] (word 98 (by decide))))
  exact ⟨⟨[99, 32, 97, 32, 98], by simp⟩, rfl, arguments_agree ⟨[99, 32, 97, 32, 98], by simp⟩ [99] [97, 32, 98] [[97], [98]]
    (fun _ => 7) (fun _ => 7) spelled cut (by decide)⟩

end SimpleKernel.Emulate
