import Mathlib.Data.List.GetD
import SimpleKernel.Console.Bounds

set_option autoImplicit false

namespace SimpleKernel.Console

-- `num` is the length of `buf`; the return value is the count written.
def writeTerminal (buf : List UInt8) (screen : Screen) : Screen × Nat :=
  (buf.foldl (fun current c => putc c current) screen, buf.length)

structure Text where
  above : List (List UInt8)
  row : List UInt8

def Text.rows (text : Text) : List (List UInt8) := text.above ++ [text.row]

def Text.append (text : Text) (c : UInt8) : Text :=
  if c = newline ∨ c = carriageReturn then { above := text.above ++ [text.row], row := [] }
  else if c = 0 then text
  else if text.row.length + 1 = numCols then { above := text.above ++ [text.row ++ [c]], row := [] }
  else { text with row := text.row ++ [c] }

def textOf (bytes : List UInt8) : Text := bytes.foldl Text.append { above := [], row := [] }

def shown (c : UInt8) : UInt8 := if c = 0 then space else c

def lastRows (rows : List (List UInt8)) : List (List UInt8) := rows.drop (rows.length - numRows)

def charAt (rows : List (List UInt8)) (k j : Nat) : UInt8 := ((lastRows rows).getD k []).getD j space

def look (screen : Screen) (k j : Nat) : UInt8 × UInt8 :=
  let held := cell screen (numCols * k + j)
  (shown held.1, held.2)

def Shows (screen : Screen) (rows : List (List UInt8)) : Prop :=
  ∀ k j, k < numRows → j < numCols → look screen k j = (shown (charAt rows k j), attrib)

structure Follows (screen : Screen) (text : Text) : Prop where
  shows : Shows screen text.rows
  column : screen.screenX = text.row.length
  line : screen.screenY = (min text.above.length 24 : Nat)
  fits : text.row.length < 80

theorem get_concat (above : List (List UInt8)) (row : List UInt8) (n : Nat) :
    (above ++ [row]).getD n [] = if n = above.length then row else above.getD n [] := by
  by_cases before : n < above.length
  · rw [if_neg (Nat.ne_of_lt before), List.getD_append above [row] [] n before]
  · have after : above.length ≤ n := Nat.not_lt.mp before
    rw [List.getD_append_right above [row] [] n after, List.getD_eq_default above [] after]
    by_cases here : n = above.length
    · rw [if_pos here, here, Nat.sub_self]
      rfl
    · rw [if_neg here, List.getD_eq_default [row] []]
      change 1 ≤ n - above.length
      omega

theorem char_at_rows (rows : List (List UInt8)) (k j : Nat) :
    charAt rows k j = (rows.getD (rows.length - 25 + k) []).getD j space := by
  simp only [charAt, lastRows, List.getD_eq_getElem?_getD, List.getElem?_drop]
  rfl

theorem char_at_concat (above : List (List UInt8)) (row : List UInt8) (k j : Nat) :
    charAt (above ++ [row]) k j =
      if k = min above.length 24 then row.getD j space else (above.getD (above.length - 24 + k) []).getD j space := by
  have size : (above ++ [row]).length - 25 = above.length - 24 := by
    rw [List.length_append, List.length_singleton]
    omega
  have here : above.length - 24 + k = above.length ↔ k = min above.length 24 := by omega
  rw [char_at_rows, size, get_concat]
  by_cases bottom : k = min above.length 24
  · rw [if_pos (here.mpr bottom), if_pos bottom]
  · rw [if_neg (mt here.mp bottom), if_neg bottom]

theorem char_at_short (rows : List (List UInt8)) (k j : Nat) (short : rows.length ≤ 24) :
    charAt (rows ++ [[]]) k j = charAt rows k j := by
  have none : rows.length - 24 = 0 ∧ rows.length - 25 = 0 := by omega
  rw [char_at_concat, char_at_rows, none.1, none.2]
  by_cases bottom : k = min rows.length 24
  · have beyond : rows.length ≤ 0 + k := by omega
    rw [if_pos bottom, List.getD_eq_default rows [] beyond]
  · rw [if_neg bottom]

theorem char_at_scrolled (rows : List (List UInt8)) (k j : Nat) (bound : k < 25) (full : 25 ≤ rows.length) :
    charAt (rows ++ [[]]) k j = if k < 24 then charAt rows (k + 1) j else space := by
  have bottom : k = min rows.length 24 ↔ k = 24 := by omega
  rw [char_at_concat, char_at_rows]
  by_cases last : k = 24
  · rw [if_pos (bottom.mpr last), if_neg (by omega)]
    rfl
  · have index : rows.length - 24 + k = rows.length - 25 + (k + 1) := by omega
    rw [if_neg (mt bottom.mp last), if_pos (by omega), index]

theorem look_store (screen : Screen) (c : UInt8) (y x k j : Nat) (column : x < 80) (bound : j < 80) :
    look (storeCell (numCols * y + x) c screen) k j =
      if k = y ∧ j = x then (shown c, attrib) else look screen k j := by
  have place : (numCols : Int) * k + j = numCols * y + x ↔ k = y ∧ j = x := by
    rw [numCols]
    omega
  simp only [look, cell_store]
  by_cases here : k = y ∧ j = x
  · rw [if_pos (place.mpr here), if_pos here]
  · rw [if_neg (mt place.mp here), if_neg here]

theorem shows_newline (screen : Screen) (rows : List (List UInt8)) (shows : Shows screen rows)
    (short : rows.length ≤ 24) : Shows screen (rows ++ [[]]) := by
  intro k j row column
  rw [shows k j row column, char_at_short rows k j short]

theorem shows_scroll (screen : Screen) (rows : List (List UInt8)) (shows : Shows screen rows)
    (full : 25 ≤ rows.length) : Shows (scroll screen) (rows ++ [[]]) := by
  intro k j row column
  simp only [numRows, numCols] at row column
  have low : (0 : Int) ≤ numCols * k + j := by
    rw [numCols]
    omega
  have high : (numCols : Int) * k + j < 2000 := by
    rw [numCols]
    omega
  rw [char_at_scrolled rows k j row full, look, cell_scroll screen _ low high]
  by_cases moved : k < 24
  · have above : (numCols : Int) * k + j < 1920 := by
      rw [numCols]
      omega
    have next : (numCols : Int) * k + j + 80 = numCols * (k + 1 : Nat) + j := by
      rw [numCols]
      omega
    rw [if_pos above, if_pos moved, next]
    exact shows (k + 1) j (Nat.succ_lt_succ moved) column
  · have bottom : ¬ (numCols : Int) * k + j < 1920 := by
      rw [numCols]
      omega
    rw [if_neg bottom, if_neg moved]
    rfl

theorem shows_put (screen : Screen) (above : List (List UInt8)) (row : List UInt8) (c : UInt8)
    (shows : Shows screen (above ++ [row])) (room : row.length < 80) :
    Shows (storeCell (numCols * (min above.length 24 : Nat) + row.length) c screen) (above ++ [row ++ [c]]) := by
  intro k j line column
  have old := shows k j line column
  rw [char_at_concat] at old ⊢
  rw [look_store screen c _ row.length k j room column]
  by_cases bottom : k = min above.length 24
  · rw [if_pos bottom] at old ⊢
    by_cases here : j = row.length
    · rw [if_pos ⟨bottom, here⟩, here, List.getD_append_right row [c] space _ (Nat.le_refl _), Nat.sub_self]
      rfl
    · rw [if_neg fun both => here both.2, old]
      by_cases before : j < row.length
      · rw [List.getD_append row [c] space j before]
      · have after : (row ++ [c]).length ≤ j := by
          rw [List.length_append, List.length_singleton]
          omega
        rw [List.getD_eq_default row space (Nat.not_lt.mp before), List.getD_eq_default _ space after]
  · rw [if_neg bottom] at old ⊢
    rw [if_neg fun both => bottom both.1, old]

theorem shows_nul (screen : Screen) (above : List (List UInt8)) (row : List UInt8)
    (shows : Shows screen (above ++ [row])) (room : row.length < 80) :
    Shows (storeCell (numCols * (min above.length 24 : Nat) + row.length) 0 screen) (above ++ [row]) := by
  intro k j line column
  have old := shows k j line column
  rw [look_store screen 0 _ row.length k j room column]
  by_cases here : k = min above.length 24 ∧ j = row.length
  · rw [if_pos here, char_at_concat, if_pos here.1, here.2, List.getD_eq_default row space (Nat.le_refl _)]
    rfl
  · rw [if_neg here, old]

theorem shows_clear_last (screen : Screen) (above : List (List UInt8)) (shows : Shows screen (above ++ [[]])) :
    Shows (clearTopRow (byte (min above.length 24 : Nat)) screen) (above ++ [[]]) := by
  intro k j line column
  have old := shows k j line column
  simp only [numRows, numCols] at line column
  have row : min above.length 24 ≤ 24 := Nat.min_le_right _ _
  rw [clear_top_row_fill _ screen (Int.natCast_nonneg _) (by omega), look, cell_fill, Int.toNat_natCast]
  by_cases below : min above.length 24 ≤ k
  · have inside : (((min above.length 24) * numCols : Nat) : Int) ≤ numCols * k + j ∧
        (numCols : Int) * k + j < ((min above.length 24) * numCols : Nat) +
          (cells - (min above.length 24) * numCols : Nat) := by
      simp only [cells_size, numCols]
      omega
    rw [if_pos inside, char_at_concat]
    by_cases bottom : k = min above.length 24
    · rw [if_pos bottom]
      rfl
    · have beyond : above.length ≤ above.length - 24 + k := by omega
      rw [if_neg bottom, List.getD_eq_default above [] beyond]
      rfl
  · have outside : ¬ ((((min above.length 24) * numCols : Nat) : Int) ≤ numCols * k + j ∧
        (numCols : Int) * k + j < ((min above.length 24) * numCols : Nat) +
          (cells - (min above.length 24) * numCols : Nat)) := by
      simp only [cells_size, numCols]
      omega
    rw [if_neg outside]
    exact old

theorem next_row_follows (screen : Screen) (above : List (List UInt8)) (row : List UInt8)
    (shows : Shows screen (above ++ [row])) (line : screen.screenY = (min above.length 24 : Nat)) :
    Shows (nextRow screen) (above ++ [row] ++ [[]]) ∧
      (nextRow screen).screenY = (min (above ++ [row]).length 24 : Nat) := by
  have size : (above ++ [row]).length = above.length + 1 := by simp
  by_cases last : 24 ≤ screen.screenY
  · have full : 25 ≤ (above ++ [row]).length := by omega
    have bottom : min (above ++ [row]).length 24 = 24 := by omega
    rw [next_row_last screen last, scroll_y, bottom]
    exact ⟨shows_scroll _ _ shows full, rfl⟩
  · have short : (above ++ [row]).length ≤ 24 := by omega
    rw [next_row_above screen (Int.not_le.mp last)]
    refine ⟨shows_newline _ _ shows short, ?_⟩
    change screen.screenY + 1 = _
    omega

theorem put_newline_follows (screen : Screen) (text : Text) (follows : Follows screen text) :
    Follows (putNewline screen) { above := text.above ++ [text.row], row := [] } := by
  obtain ⟨shows, line⟩ := next_row_follows screen text.above text.row follows.shows follows.line
  exact ⟨shows, rfl, line, Nat.zero_lt_succ 79⟩

theorem put_nul_follows (screen : Screen) (text : Text) (follows : Follows screen text) :
    Follows (putCell 0 screen) text := by
  have cleared := shows_nul screen text.above text.row follows.shows follows.fits
  rw [← follows.line, ← follows.column] at cleared
  exact ⟨cleared, follows.column, follows.line, follows.fits⟩

theorem put_cell_shows (c : UInt8) (screen : Screen) (text : Text) (follows : Follows screen text) :
    Shows (putCell c screen) (text.above ++ [text.row ++ [c]]) := by
  have stored := shows_put screen text.above text.row c follows.shows follows.fits
  rw [← follows.line, ← follows.column] at stored
  exact stored

theorem put_char_follows (c : UInt8) (screen : Screen) (text : Text) (follows : Follows screen text) :
    Follows (putChar c screen)
      (if text.row.length + 1 = numCols then { above := text.above ++ [text.row ++ [c]], row := [] }
       else { text with row := text.row ++ [c] }) := by
  have stored := put_cell_shows c screen text follows
  have column := follows.column
  have fits := follows.fits
  by_cases full : text.row.length + 1 = numCols
  · have last : 79 ≤ screen.screenX := by
      rw [numCols] at full
      omega
    have start : Shows { putCell c screen with screenX := 0 } (text.above ++ [text.row ++ [c]]) := stored
    obtain ⟨shows, line⟩ := next_row_follows _ text.above (text.row ++ [c]) start follows.line
    rw [if_pos full, put_char_full c screen last]
    refine ⟨?_, ?_, ?_, Nat.zero_lt_succ 79⟩
    · rw [line]
      exact shows_clear_last _ _ shows
    · rw [clear_top_row_x]
      by_cases bottom : 24 ≤ (putCell c screen).screenY
      · rw [next_row_last { putCell c screen with screenX := 0 } bottom, scroll_x]
        rfl
      · rw [next_row_above { putCell c screen with screenX := 0 } (Int.not_le.mp bottom)]
        rfl
    · rw [clear_top_row_y]
      exact line
  · have room : screen.screenX < 79 := by
      rw [numCols] at full
      omega
    rw [if_neg full, put_char_right c screen room]
    refine ⟨stored, ?_, follows.line, ?_⟩
    · change screen.screenX + 1 = _
      rw [List.length_append, List.length_singleton, column]
      rfl
    · rw [numCols] at full
      rw [List.length_append, List.length_singleton]
      omega

theorem putc_follows (c : UInt8) (screen : Screen) (text : Text) (follows : Follows screen text) (other : c ≠ backspace) :
    Follows (putc c screen) (text.append c) := by
  by_cases line : c = newline ∨ c = carriageReturn
  · simp only [putc, Text.append, if_pos line]
    have next := put_newline_follows screen text follows
    exact ⟨next.shows, next.column, next.line, next.fits⟩
  · by_cases nul : c = 0
    · simp only [putc, Text.append, if_neg line, if_neg other, if_pos nul]
      have next := put_nul_follows screen text follows
      rw [← nul] at next
      exact ⟨next.shows, next.column, next.line, next.fits⟩
    · simp only [putc, Text.append, if_neg line, if_neg other, if_neg nul]
      have next := put_char_follows c screen text follows
      exact ⟨next.shows, next.column, next.line, next.fits⟩

theorem cell_placed (screen : Screen) (a b : UInt8) (x y j : Int) :
    cell (placeCursor a b { screen with screenX := x, screenY := y }) j = cell screen j := rfl

theorem clear_follows (screen : Screen) : Follows (clear screen) (textOf []) := by
  refine ⟨fun k j row column => ?_, rfl, rfl, Nat.zero_lt_succ 79⟩
  simp only [numRows, numCols] at row column
  have inside : ((0 : Nat) : Int) ≤ numCols * k + j ∧ (numCols : Int) * k + j < (0 : Nat) + (cells : Nat) := by
    rw [cells_size, numCols]
    omega
  have filled : cell (clear screen) (numCols * k + j) = (space, attrib) := by
    have all := cell_fill space 0 cells screen (numCols * k + j)
    rw [if_pos inside] at all
    rw [clear, cell_placed]
    exact all
  have blank : charAt (textOf []).rows k j = space := by
    change charAt ([] ++ [[]]) k j = space
    rw [char_at_concat]
    exact ite_self space
  rw [look, filled, blank]

theorem follows_on_screen (screen : Screen) (text : Text) (follows : Follows screen text) :
    OnScreen screen.screenX screen.screenY := by
  obtain ⟨_, column, line, fits⟩ := follows
  exact ⟨⟨by omega, by omega⟩, by omega, by omega⟩

theorem write_shows_text (screen : Screen) (bytes : List UInt8) (noBackspace : backspace ∉ bytes) :
    Follows (writeTerminal bytes (clear screen)).1 (textOf bytes) ∧ Placed (writeTerminal bytes (clear screen)).1 := by
  have all : ∀ (rest : List UInt8) (current : Screen) (text : Text), Follows current text → Placed current →
      backspace ∉ rest → Follows (rest.foldl (fun now c => putc c now) current) (rest.foldl Text.append text) ∧
        Placed (rest.foldl (fun now c => putc c now) current) := by
    intro rest
    induction rest with
    | nil => exact fun _ _ follows placed _ => ⟨follows, placed⟩
    | cons c later ih =>
        intro current text follows _ absent
        have other : c ≠ backspace := fun same => absent (same ▸ List.mem_cons_self)
        have next := putc_follows c current text follows other
        have placed := putc_placed c current (follows_on_screen _ _ next)
        exact ih (putc c current) (text.append c) next placed fun member => absent (List.mem_cons_of_mem c member)
  exact all bytes (clear screen) (textOf []) (clear_follows screen) (clear_placed screen) noBackspace

theorem write_shows_text_wrapped :
    Follows (writeTerminal [104, 105, newline, 33] (clear (powerOn fun _ => 0))).1
        { above := [[104, 105]], row := [33] } ∧
      Placed (writeTerminal [104, 105, newline, 33] (clear (powerOn fun _ => 0))).1 :=
  write_shows_text (powerOn fun _ => 0) [104, 105, newline, 33] (by decide)

end SimpleKernel.Console
