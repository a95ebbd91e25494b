import SimpleKernel.Grep.DoOneFile
import SimpleKernel.Library.Text

set_option autoImplicit false

namespace SimpleKernel.Grep

open Text (Holds each)

def entry (fname : CString) (line : List UInt8) : List UInt8 := fname.bytes ++ [colon] ++ line ++ [newline]

def printed (s fname : CString) (line : List UInt8) : List UInt8 :=
  if s.memory 0 < 128 ∧ s.bytes <:+: line then entry fname line else []

variable (s fname : CString)

theorem c_string_holds : Holds s.memory 0 s.bytes := Text.holds_list [] s.bytes 0

theorem c_string_clean : (0 : UInt8) ∉ s.bytes := fun member => s.noNul 0 member rfl

theorem strlen_holds (memory : Bytes) (line : List UInt8) (holds : Holds memory 0 line) (clean : (0 : UInt8) ∉ line) :
    ece391Strlen memory line.length = line.length := by
  rw [ece391Strlen, Text.first_passes_line memory 0 line 0 holds clean, Nat.zero_add]

theorem fdputs_holds (memory : Bytes) (line : List UInt8) (holds : Holds memory 0 line) (clean : (0 : UInt8) ∉ line) :
    ece391Fdputs memory line.length = line := by
  have whole := Text.holds_range memory 0 line holds
  simp only [Nat.zero_add] at whole
  rw [ece391Fdputs, strlen_holds memory line holds clean]
  exact whole

theorem strncmp_loop_zero (s1 s2 : Bytes) (i : Nat) (rest : List UInt8) (holds : Holds s2 i rest)
    (clean : (0 : UInt8) ∉ rest) : strncmpLoop s1 s2 rest.length i = 0 ↔ Holds s1 i rest := by
  induction rest generalizing i with
  | nil => exact iff_of_true rfl trivial
  | cons byte rest ih =>
      rw [List.mem_cons, not_or] at clean
      rw [List.length_cons, strncmpLoop, holds.1]
      by_cases same : s1 i = byte
      · rw [if_pos same]
        cases rest with
        | nil => exact iff_of_true (if_pos (Or.inr rfl)) ⟨same, trivial⟩
        | cons next rest =>
            have goes : ¬ (s1 i = 0 ∨ (next :: rest).length = 0) := by
              rw [not_or, same]
              exact ⟨fun zero => clean.1 zero.symm, Nat.succ_ne_zero _⟩
            rw [if_neg goes, ih (i + 1) holds.2 clean.2]
            exact ⟨fun later => ⟨same, later⟩, fun both => both.2⟩
      · rw [if_neg same]
        refine iff_of_false (fun zero => same (UInt8.toNat_inj.mp ?_)) (fun both => same both.1)
        omega

theorem signed_char (c : UInt8) : c.toInt8.toInt = c.toNat ↔ c < 128 := by
  have signed : c.toInt8.toInt = BitVec.toInt c.toBitVec := rfl
  rw [signed, BitVec.toInt_eq_toNat_cond, UInt8.lt_iff_toNat_lt]
  have bound := c.toBitVec.isLt
  change (if 2 * c.toNat < 2 ^ 8 then (c.toNat : Int) else c.toNat - (2 ^ 8 : Nat)) = c.toNat ↔ c.toNat < 128
  split <;> omega

theorem found_holds (data : Bytes) (check : Nat) (nonempty : s.bytes ≠ []) :
    Found s data check ↔ s.memory 0 < 128 ∧ Holds data check s.bytes := by
  have length := strlen_holds s.memory s.bytes (c_string_holds s) (c_string_clean s)
  have compared := strncmp_loop_zero (fun i => data (check + i)) s.memory 0 s.bytes (c_string_holds s) (c_string_clean s)
  rw [Text.holds_shift, Nat.add_zero] at compared
  rw [Found, length, ece391Strncmp, compared]
  constructor
  · rintro ⟨first, holds⟩
    rw [Text.holds_same_start data s.memory check 0 s.bytes nonempty holds (c_string_holds s)] at first
    exact ⟨(signed_char _).mp first, holds⟩
  · rintro ⟨ascii, holds⟩
    rw [Text.holds_same_start data s.memory check 0 s.bytes nonempty holds (c_string_holds s)]
    exact ⟨(signed_char _).mpr ascii, holds⟩

-- The string cannot run over the NUL that ends the line.
theorem held_in_line (data : Bytes) (lineStart : Nat) (line : List UInt8) (holds : Holds data lineStart line)
    (closed : data (lineStart + line.length) = 0) (nonempty : s.bytes ≠ []) :
    (∃ check, lineStart ≤ check ∧ check < lineStart + line.length ∧ Holds data check s.bytes) ↔ s.bytes <:+: line := by
  rw [← Text.holds_infix data lineStart line s.bytes holds]
  have positive := List.length_pos_iff.mpr nonempty
  constructor
  · rintro ⟨check, low, high, found⟩
    refine ⟨check, low, ?_, found⟩
    by_contra beyond
    have member := Text.holds_member data check s.bytes found (lineStart + line.length - check) (by omega)
    rw [Nat.add_sub_cancel' (Nat.le_of_lt high), closed] at member
    exact c_string_clean s member
  · rintro ⟨check, low, high, found⟩
    exact ⟨check, low, by omega, found⟩

theorem search_line_printed (data : Bytes) (lineStart : Nat) (line : List UInt8) (holds : Holds data lineStart line)
    (closed : data (lineStart + line.length) = 0) (clean : (0 : UInt8) ∉ line) (nonempty : s.bytes ≠ []) :
    searchLine s fname data lineStart (lineStart + line.length) = printed s fname line := by
  have name := fdputs_holds fname.memory fname.bytes (c_string_holds fname) (c_string_clean fname)
  have shown := fdputs_holds (fun i => data (lineStart + i)) line ((Text.holds_shift data lineStart 0 line).mpr holds) clean
  have stops : Scan.first (Found s data) line.length lineStart < lineStart + line.length ↔
      s.memory 0 < 128 ∧ s.bytes <:+: line := by
    rw [Scan.first_below, ← held_in_line s data lineStart line holds closed nonempty]
    constructor
    · rintro (beyond | ⟨check, low, high, found⟩)
      · exact absurd beyond (Nat.lt_irrefl _)
      · obtain ⟨ascii, here⟩ := (found_holds s data check nonempty).mp found
        exact ⟨ascii, check, low, high, here⟩
    · rintro ⟨ascii, check, low, high, here⟩
      exact Or.inr ⟨check, low, high, (found_holds s data check nonempty).mpr ⟨ascii, here⟩⟩
  rw [searchLine, Nat.add_sub_cancel_left, name, shown, printed]
  exact if_congr stops rfl rfl

theorem printed_nil (nonempty : s.bytes ≠ []) : printed s fname [] = [] := by
  apply if_neg
  rintro ⟨_, part⟩
  exact nonempty (List.infix_nil.mp part)

def searched (lineEnd : Nat) (line : List UInt8) (locals : Locals) : Locals :=
  { locals with
    data := Function.update locals.data lineEnd 0
    output := locals.output ++ printed s fname line }

theorem line_loop_newline (cnt : Int) (fuel lineStart : Nat) (locals : Locals) (line rest : List UInt8)
    (holds : Holds locals.data lineStart (line ++ newline :: rest))
    (last : locals.last = lineStart + (line.length + 1 + rest.length)) (noBreak : newline ∉ line) (noNul : (0 : UInt8) ∉ line)
    (nonempty : s.bytes ≠ []) :
    lineLoop s fname cnt (fuel + 1) lineStart locals =
      if rest = [] then some { searched s fname (lineStart + line.length) line locals with last := 0 }
      else lineLoop s fname cnt fuel (lineStart + line.length + 1)
        (searched s fname (lineStart + line.length) line locals) := by
  have ends := Text.first_of_holds locals.data lineStart line rest newline (locals.last - lineStart) holds noBreak (by omega)
  obtain ⟨before, here, _⟩ := (Text.holds_append locals.data lineStart line (newline :: rest)).mp holds
  have kept := Text.holds_update locals.data lineStart line (lineStart + line.length) 0 (Or.inr (Nat.le_refl _)) before
  have shown := search_line_printed s fname _ lineStart line kept (Function.update_self _ _ _) noNul nonempty
  have goes : ¬ (locals.data (lineStart + line.length) ≠ newline ∧ 0 ≠ cnt ∧ lineStart ≠ 0) := fun stops => stops.1 here
  rw [lineLoop]
  dsimp only
  rw [ends, if_neg goes, shown]
  cases rest with
  | nil =>
      have beyond : lineStart + line.length + 1 ≥ locals.last := by
        rw [last]
        exact Nat.le_refl _
      rw [if_pos beyond, if_pos rfl]
      rfl
  | cons byte rest =>
      have inside : ¬ lineStart + line.length + 1 ≥ locals.last := by
        rw [last, List.length_cons]
        omega
      rw [if_neg inside, if_neg (List.cons_ne_nil byte rest)]
      rfl

theorem line_loop_rest (cnt : Int) (fuel lineStart : Nat) (locals : Locals) (line : List UInt8)
    (holds : Holds locals.data lineStart line) (last : locals.last = lineStart + line.length) (noBreak : newline ∉ line)
    (noNul : (0 : UInt8) ∉ line) (nonempty : s.bytes ≠ []) :
    lineLoop s fname cnt (fuel + 1) lineStart locals =
      if locals.data locals.last ≠ newline ∧ 0 ≠ cnt ∧ lineStart ≠ 0 then
        some { locals with
          data := ece391Strcpy (bufSize + 1) 0 lineStart (Function.update locals.data locals.last 0)
          last := line.length }
      else some { searched s fname locals.last line locals with last := 0 } := by
  have ends := Text.first_passes_line locals.data lineStart line newline holds noBreak
  have kept := Text.holds_update locals.data lineStart line (lineStart + line.length) 0 (Or.inr (Nat.le_refl _)) holds
  have shown := search_line_printed s fname _ lineStart line kept (Function.update_self _ _ _) noNul nonempty
  have length : locals.last - lineStart = line.length := by omega
  rw [lineLoop]
  dsimp only
  rw [length, ends, shown, ← last, if_pos (Nat.le_succ locals.last)]
  rfl

theorem strcpy_moves (fuel dst src : Nat) (data : Bytes) (line : List UInt8) (holds : Holds data src line)
    (closed : data (src + line.length) = 0) (clean : (0 : UInt8) ∉ line) (down : dst < src) (enough : line.length < fuel) :
    Holds (ece391Strcpy fuel dst src data) dst line ∧
      ∀ i, i < dst ∨ dst + line.length < i → ece391Strcpy fuel dst src data i = data i := by
  induction line generalizing fuel dst src data with
  | nil =>
      cases fuel with
      | zero => cases enough
      | succ fuel =>
          have zero : data src = 0 := closed
          rw [ece391Strcpy, if_pos zero]
          refine ⟨trivial, fun i outside => Function.update_of_ne ?_ _ _⟩
          rw [List.length_nil] at outside
          omega
  | cons byte rest ih =>
      cases fuel with
      | zero => cases enough
      | succ fuel =>
          rw [List.mem_cons, not_or] at clean
          rw [List.length_cons] at closed enough
          have goes : data src ≠ 0 := fun zero => clean.1 (zero.symm.trans holds.1)
          have later := Text.holds_update data (src + 1) rest dst (data src) (Or.inl (by omega)) holds.2
          have ended : Function.update data dst (data src) (src + 1 + rest.length) = 0 := by
            rw [Function.update_of_ne (by omega), ← closed]
            congr 1
            omega
          obtain ⟨copied, apart⟩ := ih fuel (dst + 1) (src + 1) _ later ended clean.2 (Nat.succ_lt_succ down)
            (Nat.lt_of_succ_lt_succ enough)
          rw [ece391Strcpy, if_neg goes]
          refine ⟨⟨?_, copied⟩, fun i outside => ?_⟩
          · rw [apart dst (Or.inl (Nat.lt_succ_self dst)), Function.update_self]
            exact holds.1
          · rw [List.length_cons] at outside
            rw [apart i (by omega), Function.update_of_ne (by omega)]

theorem lines_before (cnt : Int) (lines rest : List UInt8) (fuel lineStart : Nat) (locals : Locals)
    (holds : Holds locals.data lineStart (lines ++ newline :: rest))
    (last : locals.last = lineStart + (lines.length + 1 + rest.length)) (noNul : (0 : UInt8) ∉ lines) (more : rest ≠ [])
    (enough : lines.length + 1 + rest.length < fuel) (nonempty : s.bytes ≠ []) :
    ∃ left after, lineLoop s fname cnt fuel lineStart locals =
        lineLoop s fname cnt left (lineStart + lines.length + 1) after ∧ rest.length < left ∧
      after.last = locals.last ∧ after.remaining = locals.remaining ∧
      after.output = locals.output ++ each newline (printed s fname) lines ∧
      ∀ i, lineStart + lines.length < i → after.data i = locals.data i := by
  induction lines using Text.by_lines newline generalizing fuel lineStart locals with
  | line line noBreak =>
      cases fuel with
      | zero => cases enough
      | succ left =>
          have round := line_loop_newline s fname cnt left lineStart locals line rest holds last noBreak noNul nonempty
          rw [if_neg more] at round
          refine ⟨left, _, round, by omega, rfl, rfl, ?_, fun i above => ?_⟩
          · rw [Text.each_line newline _ line noBreak]
            rfl
          · exact Function.update_of_ne (Nat.ne_of_gt above) _ _
  | cut line lines noBreak ih =>
      cases fuel with
      | zero => cases enough
      | succ left =>
          rw [List.length_append, List.length_cons] at last enough
          rw [List.append_assoc, List.cons_append] at holds
          rw [List.mem_append, List.mem_cons, not_or, not_or] at noNul
          have behind : lines ++ newline :: rest ≠ [] := by
            intro empty
            cases (List.append_eq_nil_iff.mp empty).2
          have length : (lines ++ newline :: rest).length = lines.length + 1 + rest.length := by
            rw [List.length_append, List.length_cons]
            omega
          have round := line_loop_newline s fname cnt left lineStart locals line (lines ++ newline :: rest) holds
            (by rw [length]; omega) noBreak noNul.1 nonempty
          rw [if_neg behind] at round
          have later := ((Text.holds_append _ _ _ _).mp holds).2.2
          have untouched := Text.holds_update locals.data _ _ (lineStart + line.length) 0 (Or.inl (Nat.lt_succ_self _)) later
          obtain ⟨fewer, after, goes, bound, sameLast, remaining, output, data⟩ := ih left (lineStart + line.length + 1)
            (searched s fname (lineStart + line.length) line locals) untouched (last.trans (by omega)) noNul.2.2 (by omega)
          have place : lineStart + line.length + 1 + lines.length + 1 =
              lineStart + (line ++ newline :: lines).length + 1 := by
            rw [List.length_append, List.length_cons]
            omega
          rw [place] at goes
          refine ⟨fewer, after, round.trans goes, bound, sameLast, remaining, ?_, fun i above => ?_⟩
          · rw [output, Text.each_break, Text.each_line newline _ line noBreak, ← List.append_assoc]
            rfl
          · rw [List.length_append, List.length_cons] at above
            exact (data i (by omega)).trans (Function.update_of_ne (by omega) _ _)

theorem buffer_of_lines (cnt : Int) (lines : List UInt8) (locals : Locals) (holds : Holds locals.data 0 (lines ++ [newline]))
    (last : locals.last = lines.length + 1) (fits : locals.last ≤ bufSize) (noNul : (0 : UInt8) ∉ lines)
    (nonempty : s.bytes ≠ []) :
    ∃ after, lineLoop s fname cnt (bufSize + 1) 0 locals = some after ∧ after.last = 0 ∧
      after.remaining = locals.remaining ∧ after.output = locals.output ++ each newline (printed s fname) lines ∧
      ∀ i, locals.last ≤ i → after.data i = locals.data i := by
  obtain ⟨line, noBreak, whole | ⟨front, cut⟩⟩ := Text.ends_in_line newline lines
  · subst whole
    have round := line_loop_newline s fname cnt bufSize 0 locals lines [] holds (last.trans (by rw [List.length_nil]; omega))
      noBreak noNul nonempty
    rw [if_pos rfl] at round
    refine ⟨_, round, rfl, rfl, ?_, fun i above => ?_⟩
    · rw [Text.each_line newline _ lines noBreak]
      rfl
    · exact Function.update_of_ne (by omega) _ _
  · subst cut
    rw [List.append_assoc, List.cons_append] at holds
    rw [List.length_append, List.length_cons] at last
    rw [List.mem_append, List.mem_cons, not_or, not_or] at noNul
    have length : (line ++ [newline]).length = line.length + 1 := List.length_append
    obtain ⟨left, reached, goes, bound, sameLast, remaining, output, data⟩ := lines_before s fname cnt front
      (line ++ [newline])
      (bufSize + 1) 0 locals holds (by rw [last, length]; omega) noNul.1
      (List.append_ne_nil_of_right_ne_nil _ (List.cons_ne_nil _ _)) (by rw [length]; omega) nonempty
    cases left with
    | zero => cases bound
    | succ left =>
        have later := ((Text.holds_append _ _ _ _).mp holds).2.2
        have untouched : Holds reached.data (0 + front.length + 1) (line ++ [newline]) := by
          apply Text.holds_congr locals.data _ _ _ _ later
          intro i low _
          exact data i (by omega)
        have round := line_loop_newline s fname cnt left (0 + front.length + 1) reached line [] untouched
          (by rw [sameLast, last, List.length_nil]; omega) noBreak noNul.2.2 nonempty
        rw [if_pos rfl] at round
        refine ⟨_, goes.trans round, rfl, remaining, ?_, fun i above => ?_⟩
        · rw [Text.each_break, Text.each_line newline _ line noBreak, ← List.append_assoc, ← output]
          rfl
        · exact (Function.update_of_ne (by omega) _ _).trans (data i (by omega))

theorem buffer_of_one_line (cnt : Int) (line : List UInt8) (locals : Locals) (holds : Holds locals.data 0 line)
    (last : locals.last = line.length) (noBreak : newline ∉ line) (noNul : (0 : UInt8) ∉ line) (nonempty : s.bytes ≠ []) :
    lineLoop s fname cnt (bufSize + 1) 0 locals = some { searched s fname locals.last line locals with last := 0 } := by
  have round := line_loop_rest s fname cnt bufSize 0 locals line holds (last.trans (Nat.zero_add _).symm) noBreak
    noNul nonempty
  rwa [if_neg (fun stops => stops.2.2 rfl)] at round

theorem buffer_with_rest (cnt : Int) (front line : List UInt8) (locals : Locals)
    (holds : Holds locals.data 0 (front ++ newline :: line)) (last : locals.last = front.length + 1 + line.length)
    (fits : locals.last ≤ bufSize) (noBreak : newline ∉ line) (noNulFront : (0 : UInt8) ∉ front) (noNul : (0 : UInt8) ∉ line)
    (more : line ≠ []) (nonempty : s.bytes ≠ []) :
    ∃ after, lineLoop s fname cnt (bufSize + 1) 0 locals = some after ∧ after.remaining = locals.remaining ∧
      (after.data bufSize = 0 ∨ after.data bufSize = locals.data bufSize) ∧
      if locals.data locals.last ≠ newline ∧ 0 ≠ cnt then
        after.last = line.length ∧ Holds after.data 0 line ∧
          after.output = locals.output ++ each newline (printed s fname) front
      else
        after.last = 0 ∧ after.data locals.last = 0 ∧
          after.output = locals.output ++ each newline (printed s fname) (front ++ newline :: line) := by
  obtain ⟨left, reached, goes, bound, sameLast, remaining, output, data⟩ := lines_before s fname cnt front line
    (bufSize + 1) 0
    locals holds (by omega) noNulFront more (by omega) nonempty
  cases left with
  | zero => cases bound
  | succ left =>
      have later := ((Text.holds_append _ _ _ _).mp holds).2.2
      have untouched : Holds reached.data (0 + front.length + 1) line := by
        apply Text.holds_congr locals.data _ _ _ _ later
        intro i low _
        exact data i (by omega)
      have round := line_loop_rest s fname cnt left (0 + front.length + 1) reached line untouched (by omega) noBreak noNul
        nonempty
      have positive : 0 < line.length := List.length_pos_iff.mpr more
      rw [sameLast, data locals.last (by omega)] at round
      have atEnd : Function.update reached.data locals.last 0 bufSize = 0 ∨
          Function.update reached.data locals.last 0 bufSize = locals.data bufSize := by
        by_cases full : bufSize = locals.last
        · rw [full, Function.update_self]
          exact Or.inl rfl
        · rw [Function.update_of_ne full]
          exact Or.inr (data bufSize (by omega))
      by_cases stays : locals.data locals.last ≠ newline ∧ 0 ≠ cnt
      · rw [if_pos ⟨stays.1, stays.2, Nat.succ_ne_zero _⟩] at round
        have closed : Function.update reached.data locals.last 0 (0 + front.length + 1 + line.length) = 0 := by
          have place : 0 + front.length + 1 + line.length = locals.last := by omega
          rw [place, Function.update_self]
        have held := Text.holds_update reached.data (0 + front.length + 1) line locals.last 0 (Or.inr (by omega)) untouched
        obtain ⟨moved, apart⟩ := strcpy_moves (bufSize + 1) 0 (0 + front.length + 1) _ line held closed noNul
          (by omega) (by omega)
        refine ⟨_, goes.trans round, remaining, ?_, ?_⟩
        · rw [← apart bufSize (Or.inr (by omega))] at atEnd
          exact atEnd
        · rw [if_pos stays]
          exact ⟨rfl, moved, output⟩
      · rw [if_neg (fun all => stays ⟨all.1, all.2.1⟩)] at round
        refine ⟨_, goes.trans round, remaining, ?_, ?_⟩
        · exact atEnd
        · rw [if_neg stays]
          refine ⟨rfl, ?_, ?_⟩
          · exact Function.update_self _ _ _
          · rw [Text.each_break, Text.each_line newline _ line noBreak, ← List.append_assoc, ← output]
            rfl

end SimpleKernel.Grep
