import SimpleKernel.Grep.DoOneFile
import SimpleKernel.Library.Loop
import SimpleKernel.Library.Text
import SimpleKernel.Library.Words
import SimpleKernel.Process.Command

set_option autoImplicit false

namespace SimpleKernel.Emulate

open Process (EndsWord)
open Text (Holds)
open Words (Cut Word)

def bufSize : Nat := 1026
def argsSize : Nat := 1024

def ece391Strcpy : List UInt8 → Nat → Bytes → Bytes
  | [], dst, buf => Function.update buf dst 0
  | byte :: rest, dst, buf => ece391Strcpy rest (dst + 1) (Function.update buf dst byte)

-- The pointers in args and scan point into buf: they are indices of it.
structure Locals where
  buf : Bytes
  scan : Nat
  args : List Nat

def wordEnd (buf : Bytes) (scan : Nat) : Nat := Scan.first (fun i => EndsWord (buf i)) bufSize scan

def argRound (locals : Locals) : Option (Locals ⊕ Locals) :=
  let scan := Scan.first (fun i => locals.buf i ≠ 32) bufSize locals.scan
  if locals.buf scan = 0 ∨ locals.buf scan = 10 then some (.inr ⟨Function.update locals.buf scan 0, scan, locals.args⟩)
  else
    let behind := wordEnd locals.buf scan
    if locals.buf behind ≠ 0 then some (.inl ⟨Function.update locals.buf behind 0, behind + 1, locals.args ++ [scan]⟩)
    else some (.inl ⟨locals.buf, behind, locals.args ++ [scan]⟩)

def parse (command : CString) (stack : Bytes) : Option Locals :=
  let buf := ece391Strcpy command.bytes 2 (Function.update (Function.update stack 0 46) 1 47)
  let scan := wordEnd buf 2
  if buf scan ≠ 0 then Loop.run argRound bufSize ⟨Function.update buf scan 0, scan + 1, [0]⟩ else some ⟨buf, scan, [0]⟩

def stringAt (buf : Bytes) (start : Nat) : List UInt8 := nameIn (fun i => buf (start + i)) bufSize

inductive Status where
  | exited (code : UInt8)
  | signaled (signal : Nat)
deriving DecidableEq

-- What the parent makes of the child that it waits for; a child that cannot
-- execute the file kills itself with signal 9.
def waited (child : Option Status) : Int :=
  match child.getD (.signaled 9) with
  | .exited code => code.toNat
  | .signaled signal => if signal = 9 then -1 else 256

-- execv is that of the host: what becomes of the process that executes a file
-- with these arguments, `none` when execv comes back.
def ece391Execute (execv : List UInt8 → List (List UInt8) → Option Status) (command : CString) (stack : Bytes) : Option Int :=
  if 1023 < command.bytes.length then some (-1)
  else (parse command stack).map fun locals =>
    waited (execv (stringAt locals.buf 0) (locals.args.map (stringAt locals.buf)))

inductive Command : List UInt8 → List UInt8 → List (List UInt8) → Prop
  | alone (word : List UInt8) (clean : ∀ byte ∈ word, ¬ EndsWord byte) : Command word word []
  | args (word : List UInt8) (sep : UInt8) (text : List UInt8) (words : List (List UInt8))
      (clean : ∀ byte ∈ word, ¬ EndsWord byte) (separates : sep = 32 ∨ sep = 10) (cut : Cut 32 10 text words) :
      Command (word ++ sep :: text) word words

theorem strcpy_other (text : List UInt8) (dst : Nat) (buf : Bytes) (k : Nat) (apart : k < dst ∨ dst + text.length < k) :
    ece391Strcpy text dst buf k = buf k := by
  induction text generalizing dst buf with
  | nil => exact Function.update_of_ne (by rw [List.length_nil] at apart; omega) _ _
  | cons byte rest ih =>
      rw [List.length_cons] at apart
      rw [ece391Strcpy, ih (dst + 1) _ (by omega), Function.update_of_ne (by omega)]

theorem strcpy_holds (text : List UInt8) (dst : Nat) (buf : Bytes) : Holds (ece391Strcpy text dst buf) dst (text ++ [0]) := by
  induction text generalizing dst buf with
  | nil => exact ⟨Function.update_self _ _ _, trivial⟩
  | cons byte rest ih =>
      refine ⟨?_, ih (dst + 1) _⟩
      rw [ece391Strcpy, strcpy_other rest (dst + 1) _ dst (Or.inl (Nat.lt_succ_self dst)), Function.update_self]

section Scanning

variable (buf : Bytes) (scan : Nat)

theorem skips_blanks (n : Nat) (rest : List UInt8) (holds : Holds buf scan (List.replicate n 32 ++ rest))
    (other : buf (scan + n) ≠ 32) (fits : n ≤ bufSize) : Scan.first (fun i => buf i ≠ 32) bufSize scan = scan + n := by
  have blanks := ((Text.holds_append buf scan _ rest).mp holds).1
  apply Scan.first_exact _ bufSize scan n _ other fits
  intro k inside
  rw [not_not]
  exact List.eq_of_mem_replicate (Text.holds_member buf scan _ blanks k (by rwa [List.length_replicate]))

theorem ends_word (word rest : List UInt8) (sep : UInt8) (holds : Holds buf scan (word ++ sep :: rest))
    (clean : ∀ byte ∈ word, ¬ EndsWord byte) (ends : EndsWord sep) (fits : word.length ≤ bufSize) :
    wordEnd buf scan = scan + word.length := by
  obtain ⟨before, here, _⟩ := (Text.holds_append buf scan word _).mp holds
  apply Scan.first_exact _ bufSize scan word.length _ _ fits
  · intro k inside
    exact clean _ (Text.holds_member buf scan word before k inside)
  · rw [here]
    exact ends

theorem string_held (word : List UInt8) (holds : Holds buf scan (word ++ [0])) (clean : (0 : UInt8) ∉ word)
    (fits : word.length < bufSize) : stringAt buf scan = word := by
  obtain ⟨inside, stop, _⟩ := (Text.holds_append buf scan word _).mp holds
  refine name_from_stop word bufSize (fun i => buf (scan + i)) 0 (fun byte member zero => clean (zero ▸ member)) ?_ ?_ fits
  · intro k bound
    rw [Nat.zero_add]
    exact Text.holds_get buf scan word inside k bound 0
  · rw [Nat.zero_add]
    exact stop

end Scanning

abbrev Points (buf : Bytes) : List Nat → List (List UInt8) → Prop :=
  List.Forall₂ fun place word => Holds buf place (word ++ [0])

theorem word_clean (word : List UInt8) (clean : Word 32 10 word) (noNul : (0 : UInt8) ∉ word) :
    ∀ byte ∈ word, ¬ EndsWord byte := by
  rintro byte member (zero | blank | line)
  · exact noNul (zero ▸ member)
  · exact clean.noBlank (blank ▸ member)
  · exact clean.noBreak (line ▸ member)

theorem round_stops (buf : Bytes) (scan n : Nat) (args : List Nat) (rest : List UInt8) (byte : UInt8)
    (holds : Holds buf scan (List.replicate n 32 ++ byte :: rest)) (ends : byte = 0 ∨ byte = 10) (fits : n ≤ bufSize) :
    argRound ⟨buf, scan, args⟩ = some (.inr ⟨Function.update buf (scan + n) 0, scan + n, args⟩) := by
  have here : buf (scan + n) = byte := by
    have behind := ((Text.holds_append buf scan _ _).mp holds).2.1
    rwa [List.length_replicate] at behind
  have other : buf (scan + n) ≠ 32 := by
    rw [here]
    rcases ends with rfl | rfl <;> decide
  simp only [argRound, skips_blanks buf scan n _ holds other fits, here, if_pos ends]

theorem round_goes (buf : Bytes) (scan n : Nat) (args : List Nat) (word rest : List UInt8) (sep : UInt8)
    (holds : Holds buf scan (List.replicate n 32 ++ (word ++ sep :: rest))) (clean : Word 32 10 word)
    (noNul : (0 : UInt8) ∉ word) (ends : EndsWord sep) (fits : n + word.length ≤ bufSize) :
    argRound ⟨buf, scan, args⟩ =
      some (.inl
        (if sep ≠ 0 then
          ⟨Function.update buf (scan + n + word.length) 0, scan + n + word.length + 1, args ++ [scan + n]⟩
        else ⟨buf, scan + n + word.length, args ++ [scan + n]⟩)) := by
  have behind := ((Text.holds_append buf scan _ _).mp holds).2
  rw [List.length_replicate] at behind
  have none := word_clean word clean noNul
  have here : ¬ EndsWord (buf (scan + n)) := by
    have positive := List.length_pos_iff.mpr clean.nonempty
    have first := Text.holds_member buf (scan + n) word ((Text.holds_append _ _ _ _).mp behind).1 0 positive
    exact none _ first
  have closing : buf (scan + n + word.length) = sep := ((Text.holds_append _ _ _ _).mp behind).2.1
  have goes : ¬ (buf (scan + n) = 0 ∨ buf (scan + n) = 10) := by
    rintro (zero | line)
    · exact here (Or.inl zero)
    · exact here (Or.inr (Or.inr line))
  simp only [argRound, skips_blanks buf scan n _ holds (fun blank => here (Or.inr (Or.inl blank))) (by omega), if_neg goes,
    ends_word buf (scan + n) word rest sep behind none ends (by omega), closing]
  split <;> rfl

-- Induction on how the text is cut: every round takes one word.
theorem args_parsed (text : List UInt8) (words : List (List UInt8)) (cut : Cut 32 10 text words) (buf : Bytes) (scan : Nat)
    (args : List Nat) (noNul : (0 : UInt8) ∉ text) (holds : Holds buf scan (text ++ [0])) (fits : text.length < bufSize) :
    ∃ last places, Loop.run argRound (words.length + 1) ⟨buf, scan, args⟩ = some last ∧ last.args = args ++ places ∧
      Points last.buf places words ∧ ∀ k, k < scan ∨ scan + text.length < k → last.buf k = buf k := by
  induction cut generalizing buf scan args with
  | done n =>
      rw [List.length_replicate] at fits ⊢
      have stops := round_stops buf scan n args [] 0 holds (Or.inl rfl) (by omega)
      exact ⟨_, [], Loop.run_leaves argRound 0 _ _ stops, (List.append_nil args).symm, List.Forall₂.nil,
        fun k apart => Function.update_of_ne (by omega) _ _⟩
  | stop n rest =>
      rw [List.length_append, List.length_replicate, List.length_cons] at fits
      rw [List.append_assoc] at holds
      have stops := round_stops buf scan n args _ 10 holds (Or.inr rfl) (by omega)
      refine ⟨_, [], Loop.run_leaves argRound 0 _ _ stops, (List.append_nil args).symm, List.Forall₂.nil, ?_⟩
      intro k apart
      rw [List.length_append, List.length_replicate, List.length_cons] at apart
      exact Function.update_of_ne (by omega) _ _
  | last n word clean =>
      rw [List.length_append, List.length_replicate] at fits
      rw [List.append_assoc] at holds
      rw [List.mem_append, not_or] at noNul
      have goes := round_goes buf scan n args word [] 0 holds clean noNul.2 (Or.inl rfl) (by omega)
      rw [if_neg (not_not_intro rfl)] at goes
      have behind := ((Text.holds_append buf scan _ _).mp holds).2
      rw [List.length_replicate] at behind
      have closing := ((Text.holds_append buf (scan + n) _ _).mp behind).2
      have stops := round_stops buf (scan + n + word.length) 0 (args ++ [scan + n]) [] 0 closing (Or.inl rfl) (Nat.zero_le _)
      have same : Function.update buf (scan + n + word.length + 0) 0 = buf := by
        rw [Nat.add_zero, ← closing.1, Function.update_eq_self]
      rw [same] at stops
      refine ⟨⟨buf, scan + n + word.length, args ++ [scan + n]⟩, [scan + n], ?_, rfl,
        List.Forall₂.cons behind List.Forall₂.nil,
        fun _ _ => rfl⟩
      rw [List.length_singleton, Loop.run_continues argRound 1 _ _ goes]
      exact Loop.run_leaves argRound 0 _ _ stops
  | next n word sep rest words clean separates _ ih =>
      simp only [List.length_append, List.length_replicate, List.length_cons] at fits
      rw [List.append_assoc, List.append_assoc, List.cons_append] at holds
      simp only [List.mem_append, List.mem_cons, not_or] at noNul
      have goes := round_goes buf scan n args word _ sep holds clean noNul.2.1 (Or.inr separates) (by omega)
      rw [if_pos (fun zero => noNul.2.2.1 zero.symm)] at goes
      have behind := ((Text.holds_append buf scan _ _).mp holds).2
      rw [List.length_replicate] at behind
      obtain ⟨inWord, _, later⟩ := (Text.holds_append buf (scan + n) _ _).mp behind
      have closed : Holds (Function.update buf (scan + n + word.length) 0) (scan + n) (word ++ [0]) :=
        (Text.holds_append _ _ _ _).mpr
          ⟨Text.holds_update buf _ _ _ 0 (Or.inr (Nat.le_refl _)) inWord, Function.update_self _ _ _, trivial⟩
      obtain ⟨last, places, run, given, points, kept⟩ := ih (Function.update buf (scan + n + word.length) 0)
        (scan + n + word.length + 1) (args ++ [scan + n]) noNul.2.2.2
        (Text.holds_update buf _ _ _ 0 (Or.inl (Nat.lt_succ_self _)) later) (by omega)
      refine ⟨last, (scan + n) :: places, ?_, ?_, List.Forall₂.cons ?_ points, ?_⟩
      · rw [List.length_cons, Loop.run_continues argRound _ _ _ goes]
        exact run
      · rw [given, List.append_assoc]
        rfl
      · apply Text.holds_congr _ last.buf (scan + n) _ _ closed
        intro i low high
        rw [List.length_append, List.length_singleton] at high
        exact kept i (Or.inl (by omega))
      · intro k apart
        simp only [List.length_append, List.length_replicate, List.length_cons] at apart
        rw [kept k (by omega), Function.update_of_ne (by omega)]

theorem points_strings (buf : Bytes) (places : List Nat) (words : List (List UInt8)) (points : Points buf places words)
    (clean : ∀ word ∈ words, (0 : UInt8) ∉ word ∧ word.length < bufSize) : places.map (stringAt buf) = words := by
  induction points with
  | nil => rfl
  | cons held _ ih =>
      have here := clean _ List.mem_cons_self
      rw [List.map_cons, string_held buf _ _ held here.1 here.2, ih fun word member =>
        clean word (List.mem_cons_of_mem _ member)]

theorem command_exists (bytes : List UInt8) (noNul : (0 : UInt8) ∉ bytes) : ∃ word words, Command bytes word words := by
  obtain ⟨word, rest, whole, noBlank, noBreak, ends⟩ := Words.leading_word (32 : UInt8) 10 bytes
  have clean : ∀ byte ∈ word, ¬ EndsWord byte := by
    rintro byte member (zero | blank | line)
    · exact noNul (whole ▸ zero ▸ List.mem_append_left _ member)
    · exact noBlank (blank ▸ member)
    · exact noBreak (line ▸ member)
  cases ends with
  | inl none =>
      rw [whole, none, List.append_nil]
      exact ⟨word, [], Command.alone word clean⟩
  | inr some =>
      obtain ⟨sep, tail, split, separates⟩ := some
      obtain ⟨words, cut⟩ := Words.cut_exists (32 : UInt8) 10 tail
      rw [whole, split]
      exact ⟨word, words, Command.args word sep tail words clean separates cut⟩

theorem cut_part (text : List UInt8) (words : List (List UInt8)) (cut : Cut 32 10 text words) :
    ∀ word ∈ words, word <:+: text := by
  induction cut with
  | done n => exact fun word member => absurd member List.not_mem_nil
  | stop n rest => exact fun word member => absurd member List.not_mem_nil
  | last n word _ => exact fun other member => List.mem_singleton.mp member ▸ (List.suffix_append _ word).isInfix
  | next n word sep rest words _ _ _ ih =>
      intro other member
      cases List.mem_cons.mp member with
      | inl same => exact ⟨List.replicate n 32, sep :: rest, by rw [same, List.append_assoc]⟩
      | inr later =>
          have tail : rest <:+ List.replicate n 32 ++ (word ++ sep :: rest) :=
            ((List.suffix_cons sep rest).trans (List.suffix_append word _)).trans (List.suffix_append _ _)
          exact (ih other later).trans tail.isInfix

def path (word : List UInt8) : List UInt8 := 46 :: 47 :: word

structure Parsed (command : CString) (stack : Bytes) (argv : List (List UInt8)) : Prop where
  strings : ∃ locals, parse command stack = some locals ∧ locals.args.map (stringAt locals.buf) = argv ∧
    locals.args.head? = some 0 ∧ locals.args.length + 1 ≤ argsSize ∧ ∀ k, bufSize ≤ k → locals.buf k = stack k

theorem command_parsed (command : CString) (stack : Bytes) (fits : command.bytes.length ≤ 1023) (word : List UInt8)
    (words : List (List UInt8)) (cut : Command command.bytes word words) : Parsed command stack (path word :: words) := by
  have noNul : (0 : UInt8) ∉ command.bytes := fun member => command.noNul 0 member rfl
  have size : (1023 : Nat) + 3 = bufSize := rfl
  have copied := strcpy_holds command.bytes 2 (Function.update (Function.update stack 0 46) 1 47)
  have outside : ∀ k, bufSize ≤ k →
      ece391Strcpy command.bytes 2 (Function.update (Function.update stack 0 46) 1 47) k = stack k := by
    intro k behind
    rw [strcpy_other _ _ _ _ (Or.inr (by omega)), Function.update_of_ne (by omega), Function.update_of_ne (by omega)]
  have dot : ece391Strcpy command.bytes 2 (Function.update (Function.update stack 0 46) 1 47) 0 = 46 := by
    rw [strcpy_other _ _ _ _ (Or.inl (by omega)), Function.update_of_ne (by omega), Function.update_self]
  have slash : ece391Strcpy command.bytes 2 (Function.update (Function.update stack 0 46) 1 47) 1 = 47 := by
    rw [strcpy_other _ _ _ _ (Or.inl (by omega)), Function.update_self]
  constructor
  rw [parse]
  generalize ece391Strcpy command.bytes 2 (Function.update (Function.update stack 0 46) 1 47) = buf
    at copied outside dot slash
  generalize command.bytes = bytes at cut noNul copied fits
  have pathClean (clean : ∀ byte ∈ word, ¬ EndsWord byte) : (0 : UInt8) ∉ path word := by
    simp only [path, List.mem_cons, not_or]
    exact ⟨by decide, by decide, fun member => clean 0 member (Or.inl rfl)⟩
  cases cut with
  | alone _ clean =>
      have ends := ends_word buf 2 word [] 0 copied clean (Or.inl rfl) (by omega)
      have closing : buf (2 + word.length) = 0 := ((Text.holds_append buf 2 word _).mp copied).2.1
      have string := string_held buf 0 (path word) ⟨dot, slash, copied⟩ (pathClean clean)
        (by simp only [path, List.length_cons]; omega)
      refine ⟨⟨buf, 2 + word.length, [0]⟩, ?_, ?_, rfl, by rw [List.length_singleton]; decide, outside⟩
      · simp only [ends, closing, ne_eq, not_true_eq_false, if_false]
      · rw [List.map_singleton, string]
  | args _ sep text _ clean separates cut =>
      rw [List.append_assoc, List.cons_append] at copied
      simp only [List.length_append, List.length_cons] at fits
      simp only [List.mem_append, List.mem_cons, not_or] at noNul
      have ends := ends_word buf 2 word _ sep copied clean (Or.inr separates) (by omega)
      obtain ⟨inWord, closing, later⟩ := (Text.holds_append buf 2 word _).mp copied
      have nonzero : buf (2 + word.length) ≠ 0 := by
        rw [closing]
        exact fun zero => noNul.2.1 zero.symm
      have count := Words.cut_count (32 : UInt8) 10 text words cut
      obtain ⟨last, places, run, given, points, kept⟩ := args_parsed text words cut (Function.update buf (2 + word.length) 0)
        (2 + word.length + 1) [0] noNul.2.2 (Text.holds_update buf _ _ _ 0 (Or.inl (Nat.lt_succ_self _)) later) (by omega)
      have name : Holds last.buf 0 (path word ++ [0]) := by
        refine ⟨?_, ?_, (Text.holds_append _ _ _ _).mpr ⟨?_, ?_, trivial⟩⟩
        · rw [kept 0 (Or.inl (by omega)), Function.update_of_ne (by omega), dot]
        · rw [kept 1 (Or.inl (by omega)), Function.update_of_ne (by omega), slash]
        · apply Text.holds_congr buf last.buf 2 word _ inWord
          intro i low high
          rw [kept i (Or.inl (by omega)), Function.update_of_ne (by omega)]
        · change last.buf (2 + word.length) = 0
          rw [kept _ (Or.inl (by omega)), Function.update_self]
      have length := points.length_eq
      refine ⟨last, ?_, ?_, by rw [given]; rfl, ?_, ?_⟩
      · obtain ⟨more, enough⟩ : ∃ more, bufSize = words.length + 1 + more := ⟨bufSize - (words.length + 1), by omega⟩
        simp only [ends, nonzero, ne_eq, not_false_eq_true, if_true]
        rw [enough]
        exact Loop.run_longer argRound _ more _ last run
      · rw [given, List.singleton_append, List.map_cons, string_held last.buf 0 (path word) name (pathClean clean)
          (by simp only [path, List.length_cons]; omega), points_strings last.buf places words points ?_]
        intro other member
        have part := cut_part text words cut other member
        have short := part.length_le
        exact ⟨fun zero => noNul.2.2 (part.mem zero), by omega⟩
      · rw [given, List.length_append, List.length_singleton, length]
        have room : (1024 : Nat) = argsSize := rfl
        omega
      · intro k behind
        rw [kept k (Or.inr (by omega)), Function.update_of_ne (by omega), outside k behind]

theorem execute_exact (execv : List UInt8 → List (List UInt8) → Option Status) (command : CString) (stack : Bytes) :
    (∃ word words, Command command.bytes word words) ∧
      ∀ word words, Command command.bytes word words →
        (command.bytes.length ≤ 1023 → Parsed command stack (path word :: words)) ∧
          ece391Execute execv command stack =
            some (if 1023 < command.bytes.length then -1 else waited (execv (path word) (path word :: words))) := by
  refine ⟨command_exists command.bytes fun member => command.noNul 0 member rfl, ?_⟩
  intro word words cut
  have parsed (fits : command.bytes.length ≤ 1023) := command_parsed command stack fits word words cut
  refine ⟨parsed, ?_⟩
  rw [ece391Execute]
  split
  · rfl
  · rename_i fits
    obtain ⟨locals, done, strings, first, _, _⟩ := (parsed (Nat.le_of_not_lt fits)).strings
    obtain ⟨places, split⟩ : ∃ places, locals.args = 0 :: places := List.head?_eq_some_iff.mp first
    have name : stringAt locals.buf 0 = path word := by
      rw [split, List.map_cons, List.cons.injEq] at strings
      exact strings.1
    rw [done, Option.map_some, strings, name]

end SimpleKernel.Emulate
