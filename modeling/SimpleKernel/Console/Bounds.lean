import SimpleKernel.Console.Screen
import SimpleKernel.Library.Run

set_option autoImplicit false

namespace SimpleKernel.Console

def StoresInside (screen : Screen) : Prop :=
  ∀ address ∈ screen.stores, videoMemory ≤ address ∧ address < videoMemory + 80 * 25 * 2

instance (screen : Screen) : Decidable (StoresInside screen) := inferInstanceAs (Decidable (∀ _ ∈ _, _))

def InBounds (screen : Screen) : Prop := OnScreen screen.screenX screen.screenY ∧ StoresInside screen

structure Kept (P : Screen → Prop) : Prop where
  poke : ∀ screen address value, videoMemory ≤ address → address < videoMemory + 80 * 25 * 2 → P screen →
    P (poke address value screen)
  cursor : ∀ screen x y, P screen → P { screen with screenX := x, screenY := y }
  placed : ∀ screen a b, P screen → P (placeCursor a b screen)

section
variable (P : Screen → Prop) (kept : Kept P)
include kept

theorem store_cell_kept (i : Int) (value : UInt8) (screen : Screen) (low : 0 ≤ i) (high : i < 2000) (holds : P screen) :
    P (storeCell i value screen) := by
  have char := kept.poke screen (videoMemory + 2 * i) value (by omega) (by omega) holds
  exact kept.poke _ (videoMemory + 2 * i + 1) attrib (by omega) (by omega) char

theorem fill_kept (value : UInt8) (i count : Nat) (screen : Screen) (fits : i + count ≤ 2000 ∨ count = 0)
    (holds : P screen) : P (fillCells value i count screen) := by
  induction count generalizing i screen with
  | zero => exact holds
  | succ count ih =>
      apply ih (i + 1) (storeCell i value screen) (by omega)
      exact store_cell_kept P kept i value screen (Int.natCast_nonneg i) (by omega) holds

theorem clear_top_row_kept (r : UInt8) (screen : Screen) (holds : P screen) : P (clearTopRow r screen) := by
  apply fill_kept P kept 0 _ _ screen _ holds
  rw [cells_size]
  omega

theorem move_up_kept (i count : Nat) (screen : Screen) (fits : i + count ≤ 2000) (holds : P screen) :
    P (moveUp i count screen) := by
  induction count generalizing i screen with
  | zero => exact holds
  | succ count ih =>
      apply ih (i + 1) _ (by omega)
      apply kept.poke _ _ _ (by omega) (by omega)
      exact kept.poke _ _ _ (by omega) (by omega) holds

theorem scroll_kept (screen : Screen) (holds : P screen) : P (scroll screen) := by
  have moved : P (moveUp 0 ((numRows - 1) * numCols) screen) := by
    apply move_up_kept P kept 0 _ screen _ holds
    simp only [numRows, numCols]
    omega
  exact clear_top_row_kept P kept _ _ (kept.cursor _ 0 (numRows - 1) moved)

theorem next_row_kept (screen : Screen) (holds : P screen) : P (nextRow screen) := by
  have down := kept.cursor screen screen.screenX (screen.screenY + 1) holds
  by_cases last : 24 ≤ screen.screenY
  · rw [next_row_last screen last]
    exact scroll_kept P kept _ down
  · rw [next_row_above screen (Int.not_le.mp last)]
    exact down

theorem put_cell_kept (c : UInt8) (screen : Screen) (on : OnScreen screen.screenX screen.screenY) (holds : P screen) :
    P (putCell c screen) := by
  obtain ⟨low, high⟩ := cursor_cell screen.screenX screen.screenY on
  exact store_cell_kept P kept _ c screen low high holds

theorem put_newline_kept (screen : Screen) (holds : P screen) : P (putNewline screen) :=
  kept.cursor _ 0 (nextRow screen).screenY (next_row_kept P kept screen holds)

theorem put_char_kept (c : UInt8) (screen : Screen) (on : OnScreen screen.screenX screen.screenY) (holds : P screen) :
    P (putChar c screen) := by
  have stored := put_cell_kept P kept c screen on holds
  by_cases full : 79 ≤ screen.screenX
  · rw [put_char_full c screen full]
    exact clear_top_row_kept P kept _ _ (next_row_kept P kept _ (kept.cursor _ 0 screen.screenY stored))
  · rw [put_char_right c screen (Int.not_le.mp full)]
    exact kept.cursor _ (screen.screenX + 1) screen.screenY stored

end

theorem put_backspace_right (screen : Screen) (inner : 0 < screen.screenX) :
    putBackspace screen = putCell space { screen with screenX := screen.screenX - 1 } := by
  have inside : ¬ screen.screenX - 1 < 0 := by omega
  simp only [putBackspace, inside, and_false, if_false]

theorem put_backspace_first (screen : Screen) (first : screen.screenX = 0) (low : 0 ≤ screen.screenY) :
    putBackspace screen = putCell space
      { clearTopRow (byte screen.screenY) { screen with screenX := screen.screenX - 1 } with
        screenX := numCols - 1, screenY := screen.screenY - 1 } := by
  have above : ¬ screen.screenY < 0 := Int.not_lt.mpr low
  have before : screen.screenX - 1 < 0 := by omega
  simp only [putBackspace, above, before, false_and, if_false, if_true]

theorem start_of_row : (0 : Int) ≤ 0 ∧ (0 : Int) < 80 := by decide

theorem next_row_line (screen : Screen) (low : 0 ≤ screen.screenY) (high : screen.screenY < 25) :
    0 ≤ (nextRow screen).screenY ∧ (nextRow screen).screenY < 25 := by
  by_cases last : 24 ≤ screen.screenY
  · rw [next_row_last screen last, scroll_y]
    decide
  · rw [next_row_above screen (Int.not_le.mp last)]
    exact ⟨Int.add_nonneg low Int.one_nonneg, by dsimp only; omega⟩

theorem next_row_start (screen : Screen) (start : screen.screenX = 0) : (nextRow screen).screenX = 0 := by
  by_cases last : 24 ≤ screen.screenY
  · rw [next_row_last screen last, scroll_x]
  · rw [next_row_above screen (Int.not_le.mp last)]
    exact start

theorem put_char_on_screen (c : UInt8) (screen : Screen) (on : OnScreen screen.screenX screen.screenY) :
    OnScreen (putChar c screen).screenX (putChar c screen).screenY := by
  by_cases full : 79 ≤ screen.screenX
  · rw [put_char_full c screen full, clear_top_row_x, clear_top_row_y]
    rw [next_row_start { putCell c screen with screenX := 0 } rfl]
    exact ⟨start_of_row, next_row_line { putCell c screen with screenX := 0 } on.2.1 on.2.2⟩
  · rw [put_char_right c screen (Int.not_le.mp full)]
    exact ⟨⟨Int.add_nonneg on.1.1 Int.one_nonneg, by dsimp only; omega⟩, on.2⟩

theorem put_backspace_on_screen (screen : Screen) (on : OnScreen screen.screenX screen.screenY) :
    OnScreen (putBackspace screen).screenX (putBackspace screen).screenY ↔
      ¬ (screen.screenX = 0 ∧ screen.screenY = 0) := by
  obtain ⟨⟨left, right⟩, low, high⟩ := on
  by_cases first : screen.screenX = 0
  · rw [put_backspace_first screen first low]
    constructor
    · intro after corner
      have under : 0 ≤ screen.screenY - 1 := after.2.1
      omega
    · intro other
      have row : screen.screenY ≠ 0 := fun top => other ⟨first, top⟩
      have end_of_row : 0 ≤ (numCols : Int) - 1 ∧ (numCols : Int) - 1 < 80 := by decide
      exact ⟨end_of_row, by change 0 ≤ screen.screenY - 1; omega, by change screen.screenY - 1 < 25; omega⟩
  · rw [put_backspace_right screen (by omega)]
    refine iff_of_true ⟨⟨?_, ?_⟩, low, high⟩ fun corner => first corner.1
    · change 0 ≤ screen.screenX - 1
      omega
    · change screen.screenX - 1 < 80
      omega

theorem step_on_screen (screen : Screen) (call : Call) (on : OnScreen screen.screenX screen.screenY) :
    OnScreen (step screen call).screenX (step screen call).screenY ↔ atCorner screen call = false := by
  cases call with
  | clear =>
      refine iff_of_true ?_ rfl
      rw [step, clear_x, clear_y]
      decide
  | putc c =>
      by_cases line : c = newline ∨ c = carriageReturn
      · have other : c ≠ backspace := by rcases line with same | same <;> rw [same] <;> decide
        simp only [step, putc, if_pos line, place_cursor_x, place_cursor_y]
        exact iff_of_true ⟨start_of_row, next_row_line screen on.2.1 on.2.2⟩ (by simp [atCorner, other])
      · by_cases back : c = backspace
        · simp only [step, putc, if_neg line, if_pos back, place_cursor_x, place_cursor_y]
          rw [put_backspace_on_screen screen on]
          simp [atCorner, back]
        · have away : atCorner screen (.putc c) = false := by simp [atCorner, back]
          by_cases nul : c = 0
          · simp only [step, putc, if_neg line, if_neg back, if_pos nul, place_cursor_x, place_cursor_y]
            exact iff_of_true on away
          · simp only [step, putc, if_neg line, if_neg back, if_neg nul, place_cursor_x, place_cursor_y]
            exact iff_of_true (put_char_on_screen c screen on) away

section
variable (P : Screen → Prop) (kept : Kept P)
include kept

theorem put_backspace_kept (screen : Screen) (on : OnScreen screen.screenX screen.screenY)
    (away : ¬ (screen.screenX = 0 ∧ screen.screenY = 0)) (holds : P screen) : P (putBackspace screen) := by
  have after := (put_backspace_on_screen screen on).mpr away
  by_cases first : screen.screenX = 0
  · rw [put_backspace_first screen first on.2.1] at after ⊢
    apply put_cell_kept P kept space
    · exact after
    · exact kept.cursor _ _ _ (clear_top_row_kept P kept _ _ (kept.cursor screen _ screen.screenY holds))
  · have left := on.1.1
    rw [put_backspace_right screen (by omega)] at after ⊢
    apply put_cell_kept P kept space
    · exact after
    · exact kept.cursor screen _ screen.screenY holds

theorem step_kept (screen : Screen) (call : Call) (on : OnScreen screen.screenX screen.screenY)
    (away : atCorner screen call = false) (holds : P screen) : P (step screen call) := by
  cases call with
  | clear =>
      have filled : P (fillCells space 0 cells screen) := by
        apply fill_kept P kept space 0 cells screen _ holds
        rw [cells_size]
        omega
      exact kept.placed _ 0 0 (kept.cursor _ 0 0 filled)
  | putc c =>
      by_cases line : c = newline ∨ c = carriageReturn
      · simp only [step, putc, if_pos line]
        exact kept.placed _ _ _ (put_newline_kept P kept screen holds)
      · by_cases back : c = backspace
        · have apart : ¬ (screen.screenX = 0 ∧ screen.screenY = 0) := by simpa [atCorner, back] using away
          simp only [step, putc, if_neg line, if_pos back]
          exact kept.placed _ _ _ (put_backspace_kept P kept screen on apart holds)
        · by_cases nul : c = 0
          · simp only [step, putc, if_neg line, if_neg back, if_pos nul]
            exact kept.placed _ _ _ (put_cell_kept P kept c screen on holds)
          · simp only [step, putc, if_neg line, if_neg back, if_neg nul]
            exact kept.placed _ _ _ (put_char_kept P kept c screen on holds)

end

theorem stores_inside_kept : Kept StoresInside where
  poke := fun _ _ _ low high inside => List.forall_mem_cons.mpr ⟨⟨low, high⟩, inside⟩
  cursor := fun _ _ _ inside => inside
  placed := fun _ _ _ inside => inside

theorem step_in_bounds (screen : Screen) (call : Call) (good : InBounds screen) :
    InBounds (step screen call) ↔ atCorner screen call = false := by
  constructor
  · intro next
    exact (step_on_screen screen call good.1).mp next.1
  · intro away
    exact ⟨(step_on_screen screen call good.1).mpr away, step_kept StoresInside stores_inside_kept screen call good.1
      away good.2⟩

theorem clear_in_bounds (screen : Screen) (inside : StoresInside screen) : InBounds (clear screen) := by
  have filled : StoresInside (fillCells space 0 cells screen) := by
    apply fill_kept StoresInside stores_inside_kept space 0 cells screen _ inside
    rw [cells_size]
    omega
  refine ⟨?_, stores_inside_kept.placed _ 0 0 (stores_inside_kept.cursor _ 0 0 filled)⟩
  rw [clear_x, clear_y]
  decide

def Placed (screen : Screen) : Prop := screen.position = (numCols * screen.screenY + screen.screenX).toNat

theorem place_cursor_position (screen : Screen) (x y : Int) (on : OnScreen x y) :
    (placeCursor (byte x) (byte y) screen).position = (numCols * y + x).toNat := by
  obtain ⟨⟨left, right⟩, low, high⟩ := on
  simp only [placeCursor, byte_small x left (by omega), byte_small y low (by omega), Nat.shiftRight_eq_div_pow, numCols]
  omega

theorem putc_placed (c : UInt8) (screen : Screen) (on : OnScreen (putc c screen).screenX (putc c screen).screenY) :
    Placed (putc c screen) :=
  place_cursor_position _ _ _ on

theorem clear_placed (screen : Screen) : Placed (clear screen) := rfl

-- The kernel image leaves the screen variables zero; the memory is arbitrary.
def powerOn (memory : Int → UInt8) : Screen :=
  { memory := memory, screenX := 0, screenY := 0, position := 0, stores := [] }

theorem backspace_leaves_screen :
    ¬ InBounds (Run.final step (clear (powerOn fun _ => 0)) [.putc backspace]) := by
  intro good
  exact absurd good.1.2.1 (by decide +kernel)

theorem bounds_exact (memory : Int → UInt8) (calls : List Call) :
    (∀ before after, calls = before ++ after → InBounds (Run.final step (clear (powerOn memory)) before)) ↔
      Run.Guarded step (fun screen call => atCorner screen call = false) (clear (powerOn memory)) calls := by
  have initial : InBounds (clear (powerOn memory)) := clear_in_bounds _ fun _ member => absurd member List.not_mem_nil
  rw [Run.reached_iff_guarded step InBounds _ calls initial]
  exact Run.guarded_congr step _ _ InBounds (fun _ _ _ next => next) step_in_bounds _ calls initial

end SimpleKernel.Console
