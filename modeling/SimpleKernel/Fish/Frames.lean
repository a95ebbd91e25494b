import SimpleKernel.Fish.Blink
import SimpleKernel.Library.Loop
import SimpleKernel.Library.Text

set_option autoImplicit false

namespace SimpleKernel.Fish

def newline : UInt8 := 10
def space : UInt8 := 32
def digitZero : UInt8 := 48

-- A frame file as add_frames holds it: what its descriptor has not delivered
-- yet, the last character, and whether a read has returned 0.
structure Frame where
  rest : List UInt8
  c : UInt8
  eof : Bool
deriving DecidableEq

def Frame.readChar (frame : Frame) : Frame :=
  if frame.c ≠ newline then
    match frame.rest with
    | [] => { frame with c := newline, eof := true }
    | byte :: rest => { frame with rest := rest, c := byte }
  else frame

-- The one blink_struct on the stack, filled anew for each call.
def frameBlink (stack : Blink) (row col : Nat) (c0 c1 : UInt8) : Blink :=
  { stack with
    onLength := 15
    offLength := 15
    onChar := if c0 = newline then space else c0
    offChar := if c1 = newline then space else c1
    location := BitVec.ofNat 16 (row * 80 + col + 40) }

structure Row where
  first : Frame
  second : Frame
  col : Nat
  added : List Blink

def colRound (stack : Blink) (row : Nat) (line : Row) : Option (Row ⊕ Row) :=
  let first := line.first.readChar
  let second := line.second.readChar
  if first.c = newline ∧ second.c = newline then some (.inr { line with first := first, second := second })
  else
    let added :=
      if (first.c ≠ space ∧ first.c ≠ newline) ∨ (second.c ≠ space ∧ second.c ≠ newline) then
        line.added ++ [frameBlink stack row line.col first.c second.c]
      else line.added
    some (.inl ⟨first, second, line.col + 1, added⟩)

def Frame.nextRow (frame : Frame) : Frame := { frame with c := if frame.eof then newline else digitZero }

structure Frames where
  first : Frame
  second : Frame
  row : Nat
  added : List Blink

def rowRound (stack : Blink) (frames : Frames) : Option (Frames ⊕ List Blink) :=
  if frames.first.eof = false ∨ frames.second.eof = false then
    (Loop.run (colRound stack frames.row) (frames.first.rest.length + frames.second.rest.length + 1)
      ⟨frames.first, frames.second, 0, frames.added⟩).map fun line =>
        .inl ⟨line.first.nextRow, line.second.nextRow, frames.row + 1, line.added⟩
  else some (.inr frames.added)

def addFrames (stack : Blink) (file0 file1 : List UInt8) : Option (List Blink) :=
  Loop.run (rowRound stack) (file0.length + file1.length + 2) ⟨⟨file0, digitZero, false⟩, ⟨file1, digitZero, false⟩, 0, []⟩

-- A position is blinked unless both pictures are blank there; what lies behind
-- the end of a line, or below the last one, is blank.
def cell (stack : Blink) (row : Nat) (line0 line1 : List UInt8) (col : Nat) : Option Blink :=
  if line0.getD col space = space ∧ line1.getD col space = space then none
  else some (frameBlink stack row col (line0.getD col space) (line1.getD col space))

def rowBlinks (stack : Blink) (row : Nat) (line0 line1 : List UInt8) : List Blink :=
  (List.range (max line0.length line1.length)).filterMap (cell stack row line0 line1)

def blinksFrom (stack : Blink) (row : Nat) (lines0 lines1 : List (List UInt8)) : List Blink :=
  (List.range (max lines0.length lines1.length)).flatMap fun i =>
    rowBlinks stack (row + i) (lines0.getD i []) (lines1.getD i [])

def unread (part : List UInt8) : Option (List UInt8) → List UInt8
  | none => part
  | some behind => part ++ newline :: behind

structure Passed (frame : Frame) (behind : Option (List UInt8)) : Prop where
  rest : frame.rest = behind.getD []
  c : frame.c = newline
  eof : frame.eof = behind.isNone

structure Reading (frame : Frame) (part : List UInt8) (behind : Option (List UInt8)) : Prop where
  rest : frame.rest = unread part behind
  c : frame.c ≠ newline
  eof : frame.eof = false

def AtColumn (frame : Frame) (line : List UInt8) (behind : Option (List UInt8)) (col : Nat) : Prop :=
  Reading frame (line.drop col) behind ∨ Passed frame behind ∧ line.length ≤ col

theorem digit_zero_char : digitZero ≠ newline := by
  decide

theorem read_char_passed (frame : Frame) (behind : Option (List UInt8)) (passed : Passed frame behind) :
    Passed frame.readChar behind := by
  have kept : frame.readChar = frame := if_neg (not_not.mpr passed.c)
  rw [kept]
  exact passed

theorem read_char_end (frame : Frame) (behind : Option (List UInt8)) (reading : Reading frame [] behind) :
    Passed frame.readChar behind := by
  have rest := reading.rest
  rw [Frame.readChar, if_pos reading.c]
  cases behind with
  | none =>
      have empty : frame.rest = [] := rest
      rw [empty]
      exact ⟨rfl, rfl, rfl⟩
  | some later =>
      have next : frame.rest = newline :: later := rest
      rw [next]
      exact ⟨rfl, rfl, reading.eof⟩

theorem read_char_inside (frame : Frame) (byte : UInt8) (part : List UInt8) (behind : Option (List UInt8))
    (inLine : byte ≠ newline) (reading : Reading frame (byte :: part) behind) :
    frame.readChar.c = byte ∧ Reading frame.readChar part behind := by
  have next : frame.rest = byte :: unread part behind := by
    rw [reading.rest]
    cases behind <;> rfl
  rw [Frame.readChar, if_pos reading.c, next]
  exact ⟨rfl, rfl, inLine, reading.eof⟩

theorem read_char_column (frame : Frame) (letters : List UInt8) (behind : Option (List UInt8)) (col : Nat)
    (clean : newline ∉ letters) (column : AtColumn frame letters behind col) :
    frame.readChar.c = letters.getD col newline ∧ AtColumn frame.readChar letters behind (col + 1) := by
  by_cases inside : col < letters.length
  · cases column with
    | inl reading =>
        rw [List.drop_eq_getElem_cons inside] at reading
        have inLine : letters[col] ≠ newline := fun same => clean (same ▸ List.getElem_mem inside)
        obtain ⟨read, later⟩ := read_char_inside frame letters[col] (letters.drop (col + 1)) behind inLine reading
        rw [read, List.getD_eq_getElem letters newline inside]
        exact ⟨rfl, Or.inl later⟩
    | inr passed => exact absurd inside (Nat.not_lt.mpr passed.2)
  · have past : letters.length ≤ col := Nat.le_of_not_lt inside
    have passed : Passed frame.readChar behind := by
      cases column with
      | inl reading =>
          rw [List.drop_eq_nil_of_le past] at reading
          exact read_char_end frame behind reading
      | inr passed => exact read_char_passed frame behind passed.1
    rw [List.getD_eq_default letters newline past]
    exact ⟨passed.c, Or.inr ⟨passed, Nat.le_succ_of_le past⟩⟩

theorem column_passed (frame : Frame) (line : List UInt8) (behind : Option (List UInt8)) (col : Nat)
    (ends : frame.c = newline) (column : AtColumn frame line behind col) : Passed frame behind := by
  cases column with
  | inl reading => exact absurd ends reading.c
  | inr passed => exact passed.1

theorem drawn_char (letters : List UInt8) (col : Nat) (clean : newline ∉ letters) :
    (if letters.getD col newline = newline then space else letters.getD col newline) = letters.getD col space := by
  by_cases inside : col < letters.length
  · have inLine : letters[col] ≠ newline := fun same => clean (same ▸ List.getElem_mem inside)
    rw [List.getD_eq_getElem letters newline inside, List.getD_eq_getElem letters space inside, if_neg inLine]
  · have past : letters.length ≤ col := Nat.le_of_not_lt inside
    rw [List.getD_eq_default letters newline past, List.getD_eq_default letters space past, if_pos rfl]

theorem never_newline (line : List UInt8) (col : Nat) (clean : newline ∉ line) : line.getD col space ≠ newline := by
  by_cases inside : col < line.length
  · rw [List.getD_eq_getElem line space inside]
    exact fun same => clean (same ▸ List.getElem_mem inside)
  · rw [List.getD_eq_default line space (Nat.le_of_not_lt inside)]
    decide

theorem blank_char (line : List UInt8) (col : Nat) (clean : newline ∉ line) :
    ¬ (line.getD col newline ≠ space ∧ line.getD col newline ≠ newline) ↔ line.getD col space = space := by
  rw [← drawn_char line col clean]
  by_cases ended : line.getD col newline = newline
  · rw [if_pos ended]
    exact ⟨fun _ => rfl, fun _ both => both.2 ended⟩
  · rw [if_neg ended]
    exact ⟨fun blank => by_contra fun other => blank ⟨other, ended⟩, fun same both => both.1 same⟩

structure InRow (line : Row) (line0 line1 : List UInt8) (behind0 behind1 : Option (List UInt8)) : Prop where
  first : AtColumn line.first line0 behind0 line.col
  second : AtColumn line.second line1 behind1 line.col

theorem col_round_cell (stack : Blink) (row : Nat) (line : Row) (line0 line1 : List UInt8)
    (behind0 behind1 : Option (List UInt8)) (clean0 : newline ∉ line0) (clean1 : newline ∉ line1)
    (inRow : InRow line line0 line1 behind0 behind1) (inside : line.col < max line0.length line1.length) :
    ∃ next : Row, colRound stack row line = some (.inl next) ∧ next.col = line.col + 1 ∧
      next.added = line.added ++ (cell stack row line0 line1 line.col).toList ∧
      InRow next line0 line1 behind0 behind1 := by
  obtain ⟨read0, later0⟩ := read_char_column line.first line0 behind0 line.col clean0 inRow.first
  obtain ⟨read1, later1⟩ := read_char_column line.second line1 behind1 line.col clean1 inRow.second
  have goesOn : ¬ (line.first.readChar.c = newline ∧ line.second.readChar.c = newline) := by
    rw [read0, read1]
    intro both
    cases lt_max_iff.mp inside with
    | inl here =>
        rw [List.getD_eq_getElem line0 newline here] at both
        exact clean0 (both.1 ▸ List.getElem_mem here)
    | inr here =>
        rw [List.getD_eq_getElem line1 newline here] at both
        exact clean1 (both.2 ▸ List.getElem_mem here)
  refine ⟨_, if_neg goesOn, rfl, ?_, later0, later1⟩
  have drawn : frameBlink stack row line.col line.first.readChar.c line.second.readChar.c =
      frameBlink stack row line.col (line0.getD line.col space) (line1.getD line.col space) := by
    simp only [frameBlink, read0, read1, drawn_char line0 line.col clean0, drawn_char line1 line.col clean1,
      if_neg (never_newline line0 line.col clean0), if_neg (never_newline line1 line.col clean1)]
  have blank0 := blank_char line0 line.col clean0
  have blank1 := blank_char line1 line.col clean1
  rw [← read0] at blank0
  rw [← read1] at blank1
  by_cases blank : line0.getD line.col space = space ∧ line1.getD line.col space = space
  · rw [cell, if_pos blank, if_neg (not_or.mpr ⟨blank0.mpr blank.1, blank1.mpr blank.2⟩), Option.toList_none, List.append_nil]
  · have visible := not_and_or.mp fun both => blank ⟨blank0.mp both.1, blank1.mp both.2⟩
    rw [not_not, not_not] at visible
    rw [cell, if_neg blank, if_pos visible, drawn, Option.toList_some]

theorem col_round_end (stack : Blink) (row : Nat) (line : Row) (line0 line1 : List UInt8)
    (behind0 behind1 : Option (List UInt8)) (clean0 : newline ∉ line0) (clean1 : newline ∉ line1)
    (inRow : InRow line line0 line1 behind0 behind1) (past : max line0.length line1.length ≤ line.col) :
    ∃ result : Row, colRound stack row line = some (.inr result) ∧ result.added = line.added ∧
      Passed result.first behind0 ∧ Passed result.second behind1 := by
  obtain ⟨read0, later0⟩ := read_char_column line.first line0 behind0 line.col clean0 inRow.first
  obtain ⟨read1, later1⟩ := read_char_column line.second line1 behind1 line.col clean1 inRow.second
  rw [List.getD_eq_default line0 newline (le_trans (Nat.le_max_left _ _) past)] at read0
  rw [List.getD_eq_default line1 newline (le_trans (Nat.le_max_right _ _) past)] at read1
  exact ⟨_, if_pos ⟨read0, read1⟩, rfl, column_passed _ line0 behind0 _ read0 later0,
    column_passed _ line1 behind1 _ read1 later1⟩

theorem col_loop (stack : Blink) (row : Nat) (line : Row) (line0 line1 : List UInt8)
    (behind0 behind1 : Option (List UInt8)) (clean0 : newline ∉ line0) (clean1 : newline ∉ line1) (left fuel : Nat)
    (inRow : InRow line line0 line1 behind0 behind1) (toGo : line.col + left = max line0.length line1.length)
    (enough : left < fuel) :
    ∃ result : Row, Loop.run (colRound stack row) fuel line = some result ∧
      result.added = line.added ++ (List.range' line.col left).filterMap (cell stack row line0 line1) ∧
      Passed result.first behind0 ∧ Passed result.second behind1 := by
  induction left generalizing line fuel with
  | zero =>
      obtain ⟨fuel, rfl⟩ := Nat.exists_eq_succ_of_ne_zero (Nat.ne_zero_of_lt enough)
      obtain ⟨result, leaves, added, passed⟩ := col_round_end stack row line line0 line1 behind0 behind1 clean0 clean1 inRow
        (Nat.le_of_eq toGo.symm)
      exact ⟨result, Loop.run_leaves _ fuel line result leaves, by rw [added]; exact (List.append_nil _).symm, passed⟩
  | succ left ih =>
      obtain ⟨fuel, rfl⟩ := Nat.exists_eq_succ_of_ne_zero (Nat.ne_zero_of_lt enough)
      obtain ⟨next, continues, col, added, later⟩ := col_round_cell stack row line line0 line1 behind0 behind1 clean0 clean1
        inRow (by omega)
      obtain ⟨result, ended, sum, passed⟩ := ih next fuel later (by omega) (Nat.lt_of_succ_lt_succ enough)
      refine ⟨result, (Loop.run_continues _ fuel line next continues).trans ended, ?_, passed⟩
      rw [sum, added, col, List.append_assoc, List.range'_succ, List.filterMap_cons]
      cases cell stack row line0 line1 line.col <;> rfl

def Left (frame : Frame) : Option (List UInt8) → Prop
  | none => Passed frame none
  | some text => Reading frame text none

def linesLeft : Option (List UInt8) → List (List UInt8)
  | none => []
  | some text => text.splitOn newline

theorem next_row_left (frame : Frame) (behind : Option (List UInt8)) (passed : Passed frame behind) :
    Left frame.nextRow behind := by
  have eof := passed.eof
  cases behind with
  | none => exact ⟨passed.rest, if_pos eof, eof⟩
  | some text =>
      have goesOn : ¬ frame.eof = true := by
        rw [eof]
        exact Bool.false_ne_true
      have zero : frame.nextRow.c = digitZero := if_neg goesOn
      exact ⟨passed.rest, by rw [zero]; exact digit_zero_char, eof⟩

theorem left_line (frame : Frame) (text : Option (List UInt8)) (left : Left frame text) :
    ∃ line behind, newline ∉ line ∧ AtColumn frame line behind 0 ∧ line.length ≤ frame.rest.length ∧
      (linesLeft text).headD [] = line ∧ (linesLeft text).tail = linesLeft behind := by
  cases text with
  | none => exact ⟨[], none, List.not_mem_nil, Or.inr ⟨left, Nat.le_refl 0⟩, Nat.zero_le _, rfl, rfl⟩
  | some text =>
      have clean := Text.first_line_clean newline text
      have split := Text.first_line_split newline text
      generalize Text.firstLine newline text = line at clean split
      cases split with
      | inl whole =>
          subst whole
          have lines : linesLeft (some text) = [text] := List.splitOn_eq_singleton clean
          rw [lines]
          exact ⟨text, none, clean, Or.inl left, Nat.le_of_eq (congrArg List.length left.rest.symm), rfl, rfl⟩
      | inr cut =>
          obtain ⟨behind, rfl⟩ := cut
          have lines : linesLeft (some (line ++ newline :: behind)) = line :: behind.splitOn newline :=
            List.splitOn_append_cons_self_of_not_mem clean behind
          have shorter : line.length ≤ frame.rest.length := by
            rw [left.rest, unread, List.length_append]
            exact Nat.le_add_right _ _
          rw [lines]
          exact ⟨line, some behind, clean, Or.inl ⟨left.rest, left.c, left.eof⟩, shorter, rfl, rfl⟩

theorem blinks_from_first (stack : Blink) (row : Nat) (lines0 lines1 : List (List UInt8))
    (some : 0 < max lines0.length lines1.length) :
    blinksFrom stack row lines0 lines1 =
      rowBlinks stack row (lines0.headD []) (lines1.headD []) ++ blinksFrom stack (row + 1) lines0.tail lines1.tail := by
  have count : max lines0.length lines1.length = max lines0.tail.length lines1.tail.length + 1 := by
    rw [List.length_tail, List.length_tail]
    omega
  rw [blinksFrom, count, List.range_succ_eq_map, List.flatMap_cons, List.flatMap_map]
  congr 1
  · cases lines0 <;> cases lines1 <;> rfl
  · apply List.flatMap_congr
    intro i _
    have shift : row + (i + 1) = row + 1 + i := by omega
    cases lines0 <;> cases lines1 <;>
      simp only [Nat.succ_eq_add_one, shift, List.getD_cons_succ, List.getD_nil, List.tail_cons, List.tail_nil]

theorem lines_left_some (text : List UInt8) : 0 < (linesLeft (some text)).length :=
  List.length_pos_iff.mpr (List.splitOn_ne_nil _ _)

theorem left_eof (frame : Frame) (text : Option (List UInt8)) (left : Left frame text) : frame.eof = text.isNone := by
  cases text with
  | none => exact left.eof
  | some text => exact left.eof

theorem row_round_end (stack : Blink) (frames : Frames) (first : Left frames.first none) (second : Left frames.second none) :
    rowRound stack frames = some (.inr frames.added) := by
  have ended : ¬ (frames.first.eof = false ∨ frames.second.eof = false) := by
    rw [left_eof _ none first, left_eof _ none second]
    decide
  exact if_neg ended

theorem row_round_line (stack : Blink) (frames : Frames) (text0 text1 : Option (List UInt8))
    (first : Left frames.first text0) (second : Left frames.second text1)
    (some : 0 < max (linesLeft text0).length (linesLeft text1).length) :
    ∃ next behind0 behind1, rowRound stack frames = .some (.inl next) ∧ next.row = frames.row + 1 ∧
      next.added = frames.added ++ rowBlinks stack frames.row ((linesLeft text0).headD []) ((linesLeft text1).headD []) ∧
      Left next.first behind0 ∧ Left next.second behind1 ∧
      linesLeft behind0 = (linesLeft text0).tail ∧ linesLeft behind1 = (linesLeft text1).tail := by
  obtain ⟨line0, behind0, clean0, column0, short0, head0, tail0⟩ := left_line frames.first text0 first
  obtain ⟨line1, behind1, clean1, column1, short1, head1, tail1⟩ := left_line frames.second text1 second
  have goesOn : frames.first.eof = false ∨ frames.second.eof = false := by
    rw [left_eof _ text0 first, left_eof _ text1 second]
    cases text0 with
    | some text => exact Or.inl rfl
    | none =>
        cases text1 with
        | some text => exact Or.inr rfl
        | none => exact absurd some (Nat.lt_irrefl 0)
  obtain ⟨result, ended, added, passed0, passed1⟩ := col_loop stack frames.row ⟨frames.first, frames.second, 0, frames.added⟩
    line0 line1 behind0 behind1 clean0 clean1 (max line0.length line1.length)
    (frames.first.rest.length + frames.second.rest.length + 1) ⟨column0, column1⟩ (Nat.zero_add _) (by omega)
  have round : rowRound stack frames =
      .some (.inl ⟨result.first.nextRow, result.second.nextRow, frames.row + 1, result.added⟩) := by
    rw [rowRound, if_pos goesOn, ended]
    rfl
  refine ⟨_, behind0, behind1, round, rfl, ?_, next_row_left _ _ passed0, next_row_left _ _ passed1, tail0.symm, tail1.symm⟩
  rw [head0, head1, rowBlinks, List.range_eq_range']
  exact added

theorem row_loop (stack : Blink) (frames : Frames) (text0 text1 : Option (List UInt8)) (left fuel : Nat)
    (first : Left frames.first text0) (second : Left frames.second text1)
    (toGo : max (linesLeft text0).length (linesLeft text1).length = left) (enough : left < fuel) :
    Loop.run (rowRound stack) fuel frames =
      some (frames.added ++ blinksFrom stack frames.row (linesLeft text0) (linesLeft text1)) := by
  induction left generalizing frames text0 text1 fuel with
  | zero =>
      obtain ⟨fuel, rfl⟩ := Nat.exists_eq_succ_of_ne_zero (Nat.ne_zero_of_lt enough)
      have ended (text : Option (List UInt8)) (empty : (linesLeft text).length = 0) : text = none := by
        cases text with
        | none => rfl
        | some text => exact absurd empty (Nat.ne_of_gt (lines_left_some text))
      have none0 := ended text0 (by omega)
      have none1 := ended text1 (by omega)
      subst none0
      subst none1
      rw [Loop.run_leaves _ fuel frames _ (row_round_end stack frames first second)]
      exact congrArg some (List.append_nil _).symm
  | succ left ih =>
      obtain ⟨fuel, rfl⟩ := Nat.exists_eq_succ_of_ne_zero (Nat.ne_zero_of_lt enough)
      obtain ⟨next, behind0, behind1, continues, row, added, later0, later1, tail0, tail1⟩ :=
        row_round_line stack frames text0 text1 first second (by omega)
      have fewer : max (linesLeft behind0).length (linesLeft behind1).length = left := by
        rw [tail0, tail1, List.length_tail, List.length_tail]
        omega
      rw [Loop.run_continues _ fuel frames next continues, ih next behind0 behind1 fuel later0 later1 fewer
        (Nat.lt_of_succ_lt_succ enough), added, row, tail0, tail1, List.append_assoc,
        ← blinks_from_first stack frames.row _ _ (by omega)]

theorem split_on_length (text : List UInt8) : (text.splitOn newline).length ≤ text.length + 1 := by
  induction text using Text.by_lines newline with
  | line line clean =>
      rw [List.splitOn_eq_singleton clean]
      exact Nat.le_add_left 1 _
  | cut line rest clean ih =>
      rw [List.splitOn_append_cons_self_of_not_mem clean, List.length_cons, List.length_append, List.length_cons]
      omega

theorem add_frames_blinks (stack : Blink) (file0 file1 : List UInt8) :
    addFrames stack file0 file1 = some (blinksFrom stack 0 (file0.splitOn newline) (file1.splitOn newline)) := by
  have fresh (file : List UInt8) : Left ⟨file, digitZero, false⟩ (some file) := ⟨rfl, digit_zero_char, rfl⟩
  have lines0 := split_on_length file0
  have lines1 := split_on_length file1
  have started := row_loop stack ⟨⟨file0, digitZero, false⟩, ⟨file1, digitZero, false⟩, 0, []⟩ (some file0) (some file1)
    (max (file0.splitOn newline).length (file1.splitOn newline).length) (file0.length + file1.length + 2)
    (fresh file0) (fresh file1) rfl (by omega)
  rw [addFrames, started, List.nil_append]
  rfl

end SimpleKernel.Fish
