import SimpleKernel.Output.Conversions

set_option autoImplicit false

namespace SimpleKernel.Output

def percent : UInt8 := 37
def hash : UInt8 := 35
def letterC : UInt8 := 99
def letterD : UInt8 := 100
def letterS : UInt8 := 115
def letterU : UInt8 := 117
def letterX : UInt8 := 120

-- What printf finds besides its format: the words behind it on the stack, the
-- strings the words point at, and what its arrays held before.
structure Environment where
  word : Nat → BitVec 32
  string : BitVec 32 → CString
  array : Nat → Bytes

-- astray: a byte behind the terminating NUL was read.
inductive Outcome where
  | returned (output : List UInt8) (consumed : Nat) (ret : Int)
  | astray (output : List UInt8) (consumed : Nat)
deriving DecidableEq

-- The two places in the loop that read a byte of the format.
inductive Label where
  | top
  | formatCharSwitch (alternate : Bool)

def convert (env : Environment) (alternate : Bool) (spec : UInt8) (buf esp : Nat) : Option (List UInt8 × Nat) :=
  let conv : Buffer := ⟨env.array buf, []⟩
  if spec = percent then some ([percent], 0)
  else if spec = letterX then
    (if alternate then printAlternate (env.word esp) conv else printHex (env.word esp) conv).map fun printed => (printed.1, 1)
  else if spec = letterU then (printUnsigned (env.word esp) conv).map fun printed => (printed.1, 1)
  else if spec = letterD then (printSigned (env.word esp) conv).map fun printed => (printed.1, 1)
  else if spec = letterC then some ([UInt8.ofNat (env.word esp).toNat], 1)
  else if spec = letterS then
    let s := env.string (env.word esp)
    (putsFrom s.memory (s.bytes.length + 1) 0).map fun shown => (shown, 1)
  else some ([], 0)

-- `rest` is what is left to read of the format, its NUL included; buf and esp
-- count the bytes and the words passed. int32_t holds the difference returned.
def printfFrom (env : Environment) : Label → List UInt8 → Nat → Nat → List UInt8 → Outcome
  | _, [], _, esp, output => .astray output esp
  | .top, c :: rest, buf, esp, output =>
      if c = 0 then .returned output esp (BitVec.ofNat 32 buf).toInt
      else if c = percent then printfFrom env (.formatCharSwitch false) rest (buf + 1) esp output
      else printfFrom env .top rest (buf + 1) esp (output ++ [c])
  | .formatCharSwitch alternate, c :: rest, buf, esp, output =>
      if c = hash then printfFrom env (.formatCharSwitch true) rest (buf + 1) esp output
      else
        match convert env alternate c buf esp with
        | none => .astray output esp
        | some (shown, used) => printfFrom env .top rest (buf + 1) (esp + used) (output ++ shown)

def printf (env : Environment) (format : CString) : Outcome := printfFrom env .top (format.bytes ++ [0]) 0 0 []

inductive Item where
  | literal (c : UInt8) (plain : c ≠ percent)
  | conversion (flags : Nat) (spec : UInt8) (ended : spec ≠ hash)

def Item.spell : Item → List UInt8
  | .literal c _ => [c]
  | .conversion flags spec _ => percent :: (List.replicate flags hash ++ [spec])

def takesWord (spec : UInt8) : Bool := spec = letterX || spec = letterU || spec = letterD || spec = letterC || spec = letterS

-- The manual: `#` alters %x alone, and an unknown conversion prints nothing.
def Item.expand (env : Environment) (esp : Nat) : Item → List UInt8
  | .literal c _ => [c]
  | .conversion flags spec _ =>
      let argument := env.word esp
      if spec = percent then [percent]
      else if spec = letterX then (if flags = 0 then numeral 16 argument.toNat else padded argument.toNat)
      else if spec = letterU then numeral 10 argument.toNat
      else if spec = letterD then signed argument.toInt
      else if spec = letterC then [UInt8.ofNat argument.toNat]
      else if spec = letterS then (env.string argument).bytes
      else []

def Item.words : Item → Nat
  | .literal _ _ => 0
  | .conversion _ spec _ => if takesWord spec then 1 else 0

def expand (env : Environment) : Nat → List Item → List UInt8
  | _, [] => []
  | esp, item :: rest => item.expand env esp ++ expand env (esp + item.words) rest

def wordsOf (items : List Item) : Nat := (items.map Item.words).sum

def spell (items : List Item) : List UInt8 := items.flatMap Item.spell

def Unfinished (tail : List UInt8) : Prop := ∃ flags, tail = percent :: List.replicate flags hash

def Tail (tail : List UInt8) : Prop := tail = [] ∨ Unfinished tail

def Lawful (env : Environment) (format : CString) : Prop :=
  ∀ items tail, Tail tail → format.bytes = spell items ++ tail →
    printf env format = .returned (expand env 0 items) (wordsOf items) format.bytes.length

def Complete (format : CString) : Prop := ∃ items, format.bytes = spell items

theorem puts_string (s : CString) : putsFrom s.memory (s.bytes.length + 1) 0 = some s.bytes := by
  apply puts_from_text s.memory _ 0 s.bytes s.noNul (Nat.lt_succ_self _)
  intro k bound
  rw [Nat.zero_add, CString.memory]
  by_cases early : k < s.bytes.length
  · rw [List.getD_append _ _ _ _ early]
  · have late : s.bytes.length ≤ k := Nat.not_lt.mp early
    have last : k - s.bytes.length = 0 := by omega
    rw [List.getD_append_right _ _ _ _ late, List.getD_eq_default _ _ late, last]
    rfl

theorem convert_expands (env : Environment) (flags : Nat) (spec : UInt8) (ended : spec ≠ hash) (buf esp : Nat) :
    convert env (decide (0 < flags)) spec buf esp =
      some ((Item.conversion flags spec ended).expand env esp, (Item.conversion flags spec ended).words) := by
  obtain ⟨_, hex, _⟩ := print_hex_prints (env.word esp) (env.array buf)
  obtain ⟨_, alternate, _⟩ := print_alternate_prints (env.word esp) (env.array buf)
  obtain ⟨_, unsigned, _⟩ := print_unsigned_prints (env.word esp) (env.array buf)
  obtain ⟨_, decimal, _⟩ := print_signed_prints (env.word esp) (env.array buf)
  by_cases literal : spec = percent
  · subst literal
    rfl
  by_cases x : spec = letterX
  · subst x
    by_cases flag : 0 < flags
    · have some : flags ≠ 0 := Nat.pos_iff_ne_zero.mp flag
      simp only [convert, Item.expand, Item.words, if_neg literal, if_true, flag, decide_true, some, if_false, alternate,
        Option.map_some]
      rfl
    · have none : flags = 0 := by omega
      subst none
      simp only [convert, Item.expand, Item.words, if_neg literal, if_true, decide_eq_false flag, Bool.false_eq_true,
        if_false, hex,
        Option.map_some]
      rfl
  by_cases u : spec = letterU
  · subst u
    simp only [convert, Item.expand, Item.words, if_neg literal, if_neg x, if_true, unsigned, Option.map_some]
    rfl
  by_cases d : spec = letterD
  · subst d
    simp only [convert, Item.expand, Item.words, if_neg literal, if_neg x, if_neg u, if_true, decimal, Option.map_some]
    rfl
  by_cases c : spec = letterC
  · subst c
    rfl
  by_cases s : spec = letterS
  · subst s
    simp only [convert, Item.expand, Item.words, if_neg literal, if_neg x, if_neg u, if_neg d, if_neg c, if_true,
      puts_string, Option.map_some]
    rfl
  have plain : takesWord spec = false := by simp only [takesWord, x, u, d, c, s, decide_false, Bool.or_self]
  simp only [convert, Item.expand, Item.words, if_neg literal, if_neg x, if_neg u, if_neg d, if_neg c, if_neg s, plain,
    Bool.false_eq_true, if_false]

theorem scan_flags (env : Environment) (flags : Nat) (alternate : Bool) (rest : List UInt8) (buf esp : Nat)
    (output : List UInt8) :
    printfFrom env (.formatCharSwitch alternate) (List.replicate flags hash ++ rest) buf esp output =
      printfFrom env (.formatCharSwitch (alternate || decide (0 < flags))) rest (buf + flags) esp output := by
  induction flags generalizing alternate buf with
  | zero =>
      have same : (alternate || decide (0 < 0)) = alternate := by rw [decide_eq_false (Nat.lt_irrefl 0), Bool.or_false]
      rw [same]
      rfl
  | succ flags ih =>
      have set : (alternate || decide (0 < flags + 1)) = true := by rw [decide_eq_true (Nat.succ_pos flags), Bool.or_true]
      have count : buf + 1 + flags = buf + (flags + 1) := by omega
      rw [List.replicate_succ, List.cons_append, printfFrom, if_pos rfl, ih true (buf + 1), Bool.true_or, set, count]

theorem scan_item (env : Environment) (item : Item) (rest : List UInt8) (buf esp : Nat) (output : List UInt8)
    (noNul : ∀ c ∈ item.spell, c ≠ 0) :
    printfFrom env .top (item.spell ++ rest) buf esp output =
      printfFrom env .top rest (buf + item.spell.length) (esp + item.words) (output ++ item.expand env esp) := by
  cases item with
  | literal c plain =>
      have nonzero : c ≠ 0 := noNul c List.mem_cons_self
      change printfFrom env .top (c :: rest) buf esp output = _
      rw [printfFrom, if_neg nonzero, if_neg plain]
      rfl
  | conversion flags spec ended =>
      have size : (Item.conversion flags spec ended).spell.length = flags + 2 := by
        rw [Item.spell, List.length_cons, List.length_append, List.length_replicate, List.length_singleton]
      have count : buf + 1 + flags + 1 = buf + (flags + 2) := by omega
      have percentByte : percent ≠ 0 := by decide
      change printfFrom env .top (percent :: (List.replicate flags hash ++ [spec] ++ rest)) buf esp output = _
      rw [List.append_assoc, printfFrom, if_neg percentByte, if_pos rfl, scan_flags, Bool.false_or, List.singleton_append,
        printfFrom, if_neg ended, convert_expands env flags spec ended, size, count]

theorem scan_items (env : Environment) (items : List Item) (rest : List UInt8) (buf esp : Nat) (output : List UInt8)
    (noNul : ∀ c ∈ spell items, c ≠ 0) :
    printfFrom env .top (spell items ++ rest) buf esp output =
      printfFrom env .top rest (buf + (spell items).length) (esp + wordsOf items) (output ++ expand env esp items) := by
  induction items generalizing buf esp output with
  | nil =>
      change printfFrom env .top rest buf esp output = printfFrom env .top rest buf esp (output ++ [])
      rw [List.append_nil]
  | cons item later ih =>
      have whole : spell (item :: later) = item.spell ++ spell later := List.flatMap_cons
      have words : wordsOf (item :: later) = item.words + wordsOf later := List.sum_cons
      rw [whole] at noNul ⊢
      rw [List.append_assoc, scan_item env item _ buf esp output fun c member => noNul c (List.mem_append_left _ member),
        ih _ _ _ fun c member => noNul c (List.mem_append_right _ member), words, List.length_append, expand,
        ← List.append_assoc, Nat.add_assoc, Nat.add_assoc]

theorem printf_complete (env : Environment) (format : CString) (items : List Item) (spelled : format.bytes = spell items) :
    printf env format = .returned (expand env 0 items) (wordsOf items) (BitVec.ofNat 32 format.bytes.length).toInt := by
  have noNul := format.noNul
  rw [spelled] at noNul
  rw [printf, spelled, scan_items env items [0] 0 0 [] noNul, Nat.zero_add, Nat.zero_add, List.nil_append]
  rfl

-- The inner switch takes the NUL for a conversion, and the loop steps over it.
theorem printf_unfinished (env : Environment) (format : CString) (items : List Item) (tail : List UInt8)
    (unfinished : Unfinished tail) (spelled : format.bytes = spell items ++ tail) :
    printf env format = .astray (expand env 0 items) (wordsOf items) := by
  obtain ⟨flags, same⟩ := unfinished
  have noNul := format.noNul
  rw [spelled] at noNul
  have percentByte : percent ≠ 0 := by decide
  have nulPlain : (0 : UInt8) ≠ hash := by decide
  have nothing (alternate : Bool) (buf esp : Nat) : convert env alternate 0 buf esp = some ([], 0) := rfl
  rw [printf, spelled, List.append_assoc, scan_items env items (tail ++ [0]) 0 0 []
    fun c member => noNul c (List.mem_append_left _ member), same, List.cons_append, printfFrom, if_neg percentByte,
      if_pos rfl,
    scan_flags, Bool.false_or, printfFrom, if_neg nulPlain, nothing, Nat.zero_add, List.nil_append]
  simp only [printfFrom, List.append_nil, Nat.add_zero]

theorem format_decomposes (bytes : List UInt8) :
    (∃ items tail, Tail tail ∧ bytes = spell items ++ tail) ∧
      ∀ flags, ∃ items tail, Tail tail ∧ percent :: (List.replicate flags hash ++ bytes) = spell items ++ tail := by
  induction bytes with
  | nil =>
      refine ⟨⟨[], [], Or.inl rfl, rfl⟩, fun flags => ⟨[], _, Or.inr ⟨flags, rfl⟩, ?_⟩⟩
      rw [List.append_nil]
      rfl
  | cons c rest ih =>
      obtain ⟨items, tail, shape, spelled⟩ := ih.1
      constructor
      · by_cases literal : c = percent
        · rw [literal]
          exact ih.2 0
        · refine ⟨.literal c literal :: items, tail, shape, ?_⟩
          rw [spelled]
          rfl
      · intro flags
        by_cases flag : c = hash
        · obtain ⟨more, end_, shapeMore, spelledMore⟩ := ih.2 (flags + 1)
          refine ⟨more, end_, shapeMore, ?_⟩
          rw [← spelledMore, flag, List.replicate_succ', List.append_assoc]
          rfl
        · refine ⟨.conversion flags c flag :: items, tail, shape, ?_⟩
          have whole : spell (.conversion flags c flag :: items) = percent :: (List.replicate flags hash ++ [c]) ++
            spell items :=
            List.flatMap_cons
          rw [whole, spelled]
          simp only [List.cons_append, List.append_assoc, List.nil_append]

theorem int32_length (length : Nat) : (BitVec.ofNat 32 length).toInt = length ↔ length < 2 ^ 31 := by
  rw [BitVec.toInt_eq_toNat_cond, BitVec.toNat_ofNat]
  constructor
  · intro same
    split at same
    · omega
    · omega
  · intro small
    rw [Nat.mod_eq_of_lt (by omega), if_pos (by omega)]

theorem printf_exact (env : Environment) (format : CString) :
    Lawful env format ↔ Complete format ∧ format.bytes.length < 2 ^ 31 := by
  constructor
  · intro lawful
    obtain ⟨items, tail, shape, spelled⟩ := (format_decomposes format.bytes).1
    have returned := lawful items tail shape spelled
    cases shape with
    | inl none =>
        rw [none, List.append_nil] at spelled
        rw [printf_complete env format items spelled] at returned
        injection returned with _ _ ret
        exact ⟨⟨items, spelled⟩, (int32_length _).mp ret⟩
    | inr unfinished =>
        rw [printf_unfinished env format items tail unfinished spelled] at returned
        cases returned
  · intro condition items tail shape spelled
    obtain ⟨⟨whole, complete⟩, short⟩ := condition
    cases shape with
    | inl none =>
        rw [none, List.append_nil] at spelled
        rw [printf_complete env format items spelled, (int32_length _).mpr short]
    | inr unfinished =>
        have astray := printf_unfinished env format items tail unfinished spelled
        rw [printf_complete env format whole complete] at astray
        cases astray

theorem lone_percent_runs_on :
    let format : CString := ⟨[53, 48, percent], by simp [percent]⟩
    let env : Environment := ⟨fun _ => 0, fun _ => ⟨[], by simp⟩, fun _ _ => 0⟩
    printf env format = .astray [53, 48] 0 ∧ ¬ Lawful env format := by
  intro format env
  have astray : printf env format = .astray [53, 48] 0 := by decide +kernel
  refine ⟨astray, fun lawful => ?_⟩
  have returned := lawful [.literal 53 (by decide), .literal 48 (by decide)] [percent] (Or.inr ⟨0, rfl⟩) rfl
  rw [astray] at returned
  cases returned

end SimpleKernel.Output
