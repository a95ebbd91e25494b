import SimpleKernel.Grep.Buffer

set_option autoImplicit false

namespace SimpleKernel.Grep

open Text (Holds each)

def counted (requested : Nat) (remaining : List UInt8) : Int := (min requested remaining.length : Nat)

structure Pending (locals : Locals) (line : List UInt8) : Prop where
  last : locals.last = line.length
  holds : Holds locals.data 0 line
  noBreak : newline ∉ line

def Short (text : List UInt8) : Prop := ∀ run, run <:+: text → newline ∉ run → run.length < bufSize

def Locals.count (locals : Locals) : Nat := min (bufSize - locals.last) locals.remaining.length

def Locals.filled (locals : Locals) : Locals :=
  { locals with
    data := store locals.data locals.last (locals.remaining.take locals.count)
    last := locals.last + locals.count
    remaining := locals.remaining.drop locals.count }

variable (s fname : CString)

theorem short_suffix (text later : List UInt8) (part : later <:+ text) (short : Short text) : Short later := by
  intro run inside
  exact short run (inside.trans part.isInfix)

theorem read_round (fuel : Nat) (locals : Locals) :
    readLoop s fname counted (fuel + 1) locals =
      match lineLoop s fname locals.count (bufSize + 1) 0 locals.filled with
      | none => none
      | some after => if locals.count = 0 then some (0, after) else readLoop s fname counted fuel after := by
  have count : counted (bufSize - locals.last) locals.remaining = locals.count := rfl
  have succeeds : ¬ (-1 : Int) = locals.count := by omega
  have zero : (0 : Int) = locals.count ↔ locals.count = 0 := by omega
  rw [readLoop]
  dsimp only
  rw [count, if_neg succeeds, Int.toNat_natCast]
  change (match lineLoop s fname locals.count (bufSize + 1) 0 locals.filled with
    | none => none
    | some after => if (0 : Int) = locals.count then some (0, after) else readLoop s fname counted fuel after) = _
  simp only [zero]

theorem store_holds (data : Bytes) (line bytes : List UInt8) (holds : Holds data 0 line) :
    Holds (store data line.length bytes) 0 (line ++ bytes) := by
  rw [Text.holds_append]
  constructor
  · apply Text.holds_congr data _ 0 line _ holds
    intro i _ high
    exact if_neg (by omega)
  · rw [Nat.zero_add]
    have stored := Text.holds_list [] bytes 0
    have shifted := (Text.holds_shift (store data line.length bytes) line.length 0 bytes).mp
    rw [Nat.add_zero] at shifted
    apply shifted
    apply Text.holds_congr _ _ 0 bytes _ stored
    intro i _ high
    rw [Nat.zero_add] at high
    have inside : line.length ≤ line.length + i ∧ line.length + i < line.length + bytes.length := by omega
    rw [store, if_pos inside, Nat.add_sub_cancel_left]
    rfl

structure Filled (locals : Locals) (line buffer : List UInt8) : Prop where
  holds : Holds locals.filled.data 0 buffer
  last : locals.filled.last = buffer.length
  fits : locals.filled.last ≤ bufSize
  whole : line ++ locals.remaining = buffer ++ locals.filled.remaining
  behind : ∀ i, locals.filled.last ≤ i → locals.filled.data i = locals.data i
  ended : locals.filled.last < bufSize → locals.filled.remaining = []

theorem pending_filled (locals : Locals) (line : List UInt8) (pending : Pending locals line) (room : line.length ≤ bufSize) :
    Filled locals line (line ++ locals.remaining.take locals.count) := by
  have length : (locals.remaining.take locals.count).length = locals.count := by
    rw [List.length_take]
    exact Nat.min_eq_left (Nat.min_le_right _ _)
  have limit : locals.count ≤ bufSize - locals.last := Nat.min_le_left _ _
  have last := pending.last
  constructor
  · rw [Locals.filled, last]
    exact store_holds locals.data line _ pending.holds
  · rw [List.length_append, length, ← last]
    rfl
  · change locals.last + locals.count ≤ bufSize
    omega
  · rw [List.append_assoc]
    exact congrArg (line ++ ·) (List.take_append_drop locals.count locals.remaining).symm
  · intro i above
    change locals.last + locals.count ≤ i at above
    exact if_neg (by rw [length]; omega)
  · intro more
    change locals.last + locals.count < bufSize at more
    apply List.drop_eq_nil_of_le
    rw [Locals.count] at more ⊢
    omega

theorem buffer_keeps (cnt : Int) (buffer later : List UInt8) (locals : Locals) (holds : Holds locals.data 0 buffer)
    (last : locals.last = buffer.length) (fits : locals.last ≤ bufSize) (noNul : (0 : UInt8) ∉ buffer)
    (good : later = [] ∨ newline ∈ buffer ∧ locals.data locals.last ≠ newline ∧ 0 ≠ cnt) (nonempty : s.bytes ≠ []) :
    ∃ after line, lineLoop s fname cnt (bufSize + 1) 0 locals = some after ∧ Pending after line ∧
      after.remaining = locals.remaining ∧ (after.data bufSize = 0 ∨ after.data bufSize = locals.data bufSize) ∧
      line <:+ buffer ∧ after.output ++ each newline (printed s fname) (line ++ later) =
        locals.output ++ each newline (printed s fname) (buffer ++ later) := by
  have none : each newline (printed s fname) [] = [] := by
    rw [Text.each_line newline _ [] List.not_mem_nil, printed_nil s fname nonempty]
  obtain ⟨line, noBreak, whole | ⟨front, cut⟩⟩ := Text.ends_in_line newline buffer
  · subst whole
    have nothing : later = [] := good.resolve_right fun more => noBreak more.1
    refine ⟨_, [], buffer_of_one_line s fname cnt buffer locals holds last noBreak noNul nonempty,
      ⟨rfl, trivial, List.not_mem_nil⟩, rfl, ?_, List.nil_suffix, ?_⟩
    · by_cases full : bufSize = locals.last
      · rw [full]
        exact Or.inl (Function.update_self _ _ _)
      · exact Or.inr (Function.update_of_ne full _ _)
    · rw [nothing, List.append_nil, List.append_nil, none, List.append_nil, Text.each_line newline _ buffer noBreak]
      rfl
  · subst cut
    rw [List.mem_append, List.mem_cons, not_or, not_or] at noNul
    cases line with
    | nil =>
        obtain ⟨after, looped, ended, remaining, output, data⟩ := buffer_of_lines s fname cnt front locals holds
          (last.trans List.length_append) fits noNul.1 nonempty
        refine ⟨after, [], looped, ⟨ended, trivial, List.not_mem_nil⟩, remaining, Or.inr (data bufSize fits),
          List.nil_suffix, ?_⟩
        rw [output, List.append_assoc, List.append_assoc, List.cons_append, Text.each_break]
    | cons byte rest =>
        rw [List.length_append, List.length_cons] at last
        obtain ⟨after, looped, remaining, data, outcome⟩ := buffer_with_rest s fname cnt front (byte :: rest) locals holds
          (by omega) fits noBreak noNul.1 noNul.2.2 (List.cons_ne_nil byte rest) nonempty
        by_cases stays : locals.data locals.last ≠ newline ∧ 0 ≠ cnt
        · rw [if_pos stays] at outcome
          obtain ⟨kept, moved, output⟩ := outcome
          refine ⟨after, byte :: rest, looped, ⟨kept, moved, noBreak⟩, remaining, data, ?_, ?_⟩
          · exact ⟨front ++ [newline], by rw [List.append_assoc]; rfl⟩
          · rw [output, List.append_assoc, List.append_assoc, ← Text.each_break]
            rfl
        · rw [if_neg stays] at outcome
          obtain ⟨ended, _, output⟩ := outcome
          have nothing : later = [] := good.resolve_right fun more => stays more.2
          refine ⟨after, [], looped, ⟨ended, trivial, List.not_mem_nil⟩, remaining, data, List.nil_suffix, ?_⟩
          rw [nothing, List.append_nil, List.append_nil, none, List.append_nil, output]

def Clear (locals : Locals) (text : List UInt8) : Prop := locals.data bufSize ≠ newline ∨ text.length < bufSize

theorem filled_good (locals : Locals) (line buffer : List UInt8) (filled : Filled locals line buffer)
    (clear : Clear locals (line ++ locals.remaining)) (short : Short (line ++ locals.remaining)) (reads : locals.count ≠ 0) :
    locals.filled.remaining = [] ∨
      newline ∈ buffer ∧ locals.filled.data locals.filled.last ≠ newline ∧ (0 : Int) ≠ locals.count := by
  by_cases more : locals.filled.last < bufSize
  · exact Or.inl (filled.ended more)
  · have full : locals.filled.last = bufSize := Nat.le_antisymm filled.fits (Nat.le_of_not_lt more)
    have length := filled.last
    have split := filled.whole
    have clean : locals.data bufSize ≠ newline := by
      apply clear.resolve_right
      rw [split, List.length_append, ← length]
      omega
    refine Or.inr ⟨?_, ?_, by omega⟩
    · by_contra noBreak
      have inside : buffer <:+: line ++ locals.remaining := by
        rw [split]
        exact (List.prefix_append _ _).isInfix
      have bound := short buffer inside noBreak
      omega
    · rw [filled.behind _ (Nat.le_refl _), full]
      exact clean

theorem read_loop_whole (fuel : Nat) (locals : Locals) (line : List UInt8) (pending : Pending locals line)
    (clear : Clear locals (line ++ locals.remaining)) (noNul : (0 : UInt8) ∉ line ++ locals.remaining)
    (short : Short (line ++ locals.remaining)) (enough : locals.remaining.length < fuel) (nonempty : s.bytes ≠ []) :
    ∃ after, readLoop s fname counted fuel locals = some (0, after) ∧
      after.output = locals.output ++ each newline (printed s fname) (line ++ locals.remaining) := by
  induction fuel generalizing locals line with
  | zero => cases enough
  | succ fuel ih =>
      have room := short line (List.prefix_append _ _).isInfix pending.noBreak
      have filled := pending_filled locals line pending (Nat.le_of_lt room)
      have start := pending.last
      rw [read_round]
      by_cases nothing : locals.count = 0
      · have empty : locals.remaining = [] := by
          rw [Locals.count] at nothing
          exact List.length_eq_zero_iff.mp (by omega)
        have whole := filled.holds
        rw [empty, List.take_nil, List.append_nil] at whole
        rw [empty, List.append_nil] at noNul ⊢
        have looped := buffer_of_one_line s fname locals.count line locals.filled whole
          (by change locals.last + locals.count = _; omega) pending.noBreak noNul nonempty
        rw [looped]
        refine ⟨_, if_pos nothing, ?_⟩
        rw [Text.each_line newline _ line pending.noBreak]
        rfl
      · have split := filled.whole
        have good := filled_good locals line _ filled clear short nothing
        rw [split] at clear noNul short ⊢
        obtain ⟨after, kept, looped, next, remaining, data, suffix, output⟩ := buffer_keeps s fname locals.count _
          locals.filled.remaining locals.filled filled.holds filled.last filled.fits
          (fun member => noNul (List.mem_append_left _ member)) good nonempty
        obtain ⟨front, behind⟩ := suffix
        have later : kept ++ after.remaining <:+ line ++ locals.remaining.take locals.count ++ locals.filled.remaining :=
          ⟨front, by rw [remaining, ← List.append_assoc, behind]⟩
        have stillClear : Clear after (kept ++ after.remaining) := by
          cases clear with
          | inl clean =>
              rw [filled.behind bufSize filled.fits] at data
              apply Or.inl
              cases data with
              | inl zero => rw [zero]; decide
              | inr same => rwa [same]
          | inr small => exact Or.inr (Nat.lt_of_le_of_lt later.length_le small)
        have reads : locals.count ≤ locals.remaining.length := Nat.min_le_right _ _
        have fewer : after.remaining.length < fuel := by
          rw [remaining, Locals.filled, List.length_drop]
          omega
        obtain ⟨final, ended, reported⟩ := ih after kept next stillClear (fun member => noNul (later.subset member))
          (short_suffix _ _ later short) fewer
        rw [looped]
        refine ⟨final, (if_neg nothing).trans ended, ?_⟩
        rw [reported, remaining, output]
        rfl

structure Cut (file : List UInt8) (k : Nat) : Prop where
  positive : 0 < k
  inside : bufSize * k ≤ file.length
  earlier : ∀ j, 0 < j → j < k → file[bufSize * j - 1]? = some newline
  broken : file[bufSize * k - 1]? ≠ some newline

theorem cut_first (file : List UInt8) (inside : bufSize ≤ file.length) (broken : file[bufSize - 1]? ≠ some newline) :
    Cut file 1 :=
  ⟨Nat.one_pos, inside, fun _ low high => absurd high (Nat.not_lt.mpr low), broken⟩

theorem cut_next (file : List UInt8) (k : Nat) (inside : bufSize ≤ file.length) (ends : file[bufSize - 1]? = some newline) :
    Cut file (k + 1) ↔ Cut (file.drop bufSize) k := by
  have positive : 0 < bufSize := by decide
  have shift (j : Nat) (low : 0 < j) : (file.drop bufSize)[bufSize * j - 1]? = file[bufSize * (j + 1) - 1]? := by
    rw [List.getElem?_drop]
    congr 1
    have scaled : bufSize * 1 ≤ bufSize * j := Nat.mul_le_mul_left bufSize low
    rw [Nat.mul_succ]
    omega
  constructor
  · intro cut
    have more : 0 < k := by
      apply Nat.pos_of_ne_zero
      rintro rfl
      exact cut.broken ends
    refine ⟨more, ?_, fun j low high => ?_, ?_⟩
    · have bound := cut.inside
      rw [Nat.mul_succ] at bound
      rw [List.length_drop]
      omega
    · rw [shift j low]
      exact cut.earlier (j + 1) (Nat.succ_pos j) (Nat.succ_lt_succ high)
    · rw [shift k more]
      exact cut.broken
  · intro cut
    refine ⟨Nat.succ_pos k, ?_, fun j low high => ?_, ?_⟩
    · have bound := cut.inside
      rw [List.length_drop] at bound
      rw [Nat.mul_succ]
      omega
    · cases j with
      | zero => cases low
      | succ j =>
          cases Nat.eq_zero_or_pos j with
          | inl zero => rw [zero]; exact ends
          | inr more =>
              rw [← shift j more]
              exact cut.earlier j more (Nat.lt_of_succ_lt_succ high)
    · rw [← shift k cut.positive]
      exact cut.broken

theorem full_filled (locals : Locals) (start : locals.last = 0) (room : bufSize ≤ locals.remaining.length) :
    locals.count = bufSize ∧ Filled locals [] (locals.remaining.take bufSize) := by
  have count : locals.count = bufSize := by
    rw [Locals.count, start]
    omega
  have filled := pending_filled locals [] ⟨start, trivial, List.not_mem_nil⟩ (Nat.zero_le _)
  rw [count, List.nil_append] at filled
  exact ⟨count, filled⟩

theorem full_last (file front line : List UInt8) (room : bufSize ≤ file.length)
    (split : file.take bufSize = front ++ newline :: line) (noBreak : newline ∉ line) :
    file[bufSize - 1]? = some newline ↔ line = [] := by
  have length : front.length + (line.length + 1) = bufSize := by
    rw [← List.length_cons, ← List.length_append, ← split, List.length_take]
    omega
  have inside : bufSize - 1 < bufSize := by decide
  rw [← List.getElem?_take_of_lt inside, split]
  cases line with
  | nil =>
      have place : bufSize - 1 = front.length := by
        rw [List.length_nil] at length
        omega
      rw [place, List.getElem?_append_right (Nat.le_refl _), Nat.sub_self]
      exact iff_of_true rfl rfl
  | cons byte rest =>
      rw [List.length_cons] at length
      have place : bufSize - 1 - front.length = rest.length + 1 := by omega
      rw [List.getElem?_append_right (by omega), place, List.getElem?_cons_succ]
      refine iff_of_false (fun same => ?_) (List.cons_ne_nil byte rest)
      exact noBreak (List.mem_of_getElem? same)

def CutReport (file reported : List UInt8) : Prop :=
  (∃ k, Cut file k ∧ reported = each newline (printed s fname) (file.take (bufSize * k)) ++
    each newline (printed s fname) (file.drop (bufSize * k))) ∨
  ((∀ k, ¬ Cut file k) ∧ reported = each newline (printed s fname) file)

theorem cut_report_next (file front reported : List UInt8) (room : bufSize ≤ file.length)
    (split : file.take bufSize = front ++ [newline]) (later : CutReport s fname (file.drop bufSize) reported) :
    CutReport s fname file (each newline (printed s fname) front ++ reported) := by
  have ends : file[bufSize - 1]? = some newline := (full_last file front [] room split List.not_mem_nil).mpr rfl
  have whole : file = front ++ newline :: file.drop bufSize := by
    have parts := List.take_append_drop bufSize file
    rw [split, List.append_assoc] at parts
    exact parts.symm
  cases later with
  | inl torn =>
      obtain ⟨k, cut, reported⟩ := torn
      refine Or.inl ⟨k + 1, (cut_next file k room ends).mpr cut, ?_⟩
      rw [reported, Nat.mul_succ, Nat.add_comm, List.take_add, split, List.append_assoc, List.singleton_append,
        Text.each_break, List.append_assoc, List.drop_drop]
  | inr uncut =>
      refine Or.inr ⟨fun k cut => ?_, ?_⟩
      · cases k with
        | zero => exact absurd cut.positive (Nat.lt_irrefl 0)
        | succ k => exact uncut.1 k ((cut_next file k room ends).mp cut)
      · rw [uncut.2, ← Text.each_break, ← whole]

-- A newline on the stack behind the buffer: the first line that goes on behind
-- a full buffer is taken for two.
theorem read_loop_stale (fuel : Nat) (locals : Locals) (start : locals.last = 0) (stale : locals.data bufSize = newline)
    (noNul : (0 : UInt8) ∉ locals.remaining) (short : Short locals.remaining)
    (enough : locals.remaining.length < fuel) (nonempty : s.bytes ≠ []) :
    ∃ after reported, readLoop s fname counted fuel locals = some (0, after) ∧ after.output = locals.output ++ reported ∧
      CutReport s fname locals.remaining reported := by
  induction fuel generalizing locals with
  | zero => cases enough
  | succ fuel ih =>
      have pending : Pending locals [] := ⟨start, trivial, List.not_mem_nil⟩
      by_cases small : locals.remaining.length < bufSize
      · obtain ⟨after, ended, output⟩ := read_loop_whole s fname (fuel + 1) locals [] pending
          (Or.inr small) noNul short enough
          nonempty
        refine ⟨after, _, ended, output, Or.inr ⟨fun k cut => ?_, rfl⟩⟩
        have scaled : bufSize * 1 ≤ bufSize * k := Nat.mul_le_mul_left bufSize cut.positive
        have bound := cut.inside
        omega
      · have room := Nat.le_of_not_lt small
        obtain ⟨count, filled⟩ := full_filled locals start room
        have size : (locals.remaining.take bufSize).length = bufSize := List.length_take_of_le room
        have whole := List.take_append_drop bufSize locals.remaining
        have rest : locals.filled.remaining = locals.remaining.drop bufSize := by rw [Locals.filled, count]
        have full : locals.filled.last = bufSize := filled.last.trans size
        have fewer : (locals.remaining.drop bufSize).length < fuel := by
          have positive : 0 < bufSize := by decide
          rw [List.length_drop]
          omega
        have later : locals.remaining.drop bufSize <:+ locals.remaining := List.drop_suffix _ _
        have reads : ¬ locals.count = 0 := by
          rw [count]
          decide
        rw [read_round]
        obtain ⟨line, noBreak, one | ⟨front, cut⟩⟩ := Text.ends_in_line newline (locals.remaining.take bufSize)
        · rw [← one] at noBreak
          have bound := short _ (List.take_prefix _ _).isInfix noBreak
          omega
        · have last := full_last locals.remaining front line room cut noBreak
          have held := filled.holds
          have clean : (0 : UInt8) ∉ front ++ newline :: line := by
            rw [← cut]
            exact fun member => noNul (List.mem_of_mem_take member)
          rw [List.mem_append, List.mem_cons, not_or, not_or] at clean
          rw [cut] at held size
          rw [List.length_append, List.length_cons] at size
          by_cases ends : line = []
          · subst ends
            obtain ⟨after, looped, ended, remaining, output, data⟩ := buffer_of_lines s fname locals.count front locals.filled
              held (by rw [full, ← size]; rfl) filled.fits clean.1 nonempty
            rw [rest] at remaining
            have again : after.data bufSize = newline := by
              rw [data bufSize filled.fits, filled.behind bufSize filled.fits, stale]
            obtain ⟨final, reported, finished, shown, report⟩ := ih after ended again
              (remaining ▸ fun member => noNul (later.subset member)) (remaining ▸ short_suffix _ _ later short)
              (remaining ▸ fewer)
            rw [remaining] at report
            rw [looped]
            refine ⟨final, _, (if_neg reads).trans finished, ?_, cut_report_next s fname _ front reported room cut report⟩
            rw [shown, output, List.append_assoc]
            rfl
          · obtain ⟨after, looped, remaining, _, outcome⟩ :=
              buffer_with_rest s fname locals.count front line locals.filled held
              (by omega) filled.fits noBreak clean.1 clean.2.2 ends nonempty
            have onNewline : ¬ (locals.filled.data locals.filled.last ≠ newline ∧ (0 : Int) ≠ locals.count) := by
              rw [filled.behind _ (Nat.le_refl _), full, stale]
              exact fun both => both.1 rfl
            rw [if_neg onNewline, full] at outcome
            obtain ⟨ended, closed, output⟩ := outcome
            rw [rest] at remaining
            have clear : Clear after ([] ++ after.remaining) := Or.inl (by rw [closed]; decide)
            obtain ⟨final, finished, reported⟩ := read_loop_whole s fname fuel after [] ⟨ended, trivial,
              List.not_mem_nil⟩ clear
              (remaining ▸ fun member => noNul (later.subset member)) (remaining ▸ short_suffix _ _ later short)
              (remaining ▸ fewer) nonempty
            rw [looped]
            refine ⟨final, _, (if_neg reads).trans finished, ?_, Or.inl ⟨1, cut_first _ room ?_, rfl⟩⟩
            · rw [reported, output, Nat.mul_one, cut, remaining, List.append_assoc]
              rfl
            · exact fun same => ends (last.mp same)

end SimpleKernel.Grep
