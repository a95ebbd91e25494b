import Mathlib.Logic.Function.Basic
import SimpleKernel.Library.Memory

set_option autoImplicit false

namespace SimpleKernel.Console

def videoMemory : Int := 0xB8000
def numCols : Nat := 80
def numRows : Nat := 25
def cells : Nat := numRows * numCols
def attrib : UInt8 := 0x7

def newline : UInt8 := 10
def carriageReturn : UInt8 := 13
def backspace : UInt8 := 8
def space : UInt8 := 32

structure Screen where
  memory : Int → UInt8
  screenX : Int
  screenY : Int
  -- the location in the cursor registers of the display
  position : Nat
  -- every address stored to, the latest first
  stores : List Int

def byte (value : Int) : UInt8 := UInt8.ofNat (value % 256).toNat

def poke (address : Int) (value : UInt8) (screen : Screen) : Screen :=
  { screen with memory := Function.update screen.memory address value, stores := address :: screen.stores }

def storeCell (i : Int) (value : UInt8) (screen : Screen) : Screen :=
  poke (videoMemory + 2 * i + 1) attrib (poke (videoMemory + 2 * i) value screen)

def fillCells (value : UInt8) : Nat → Nat → Screen → Screen
  | _, 0, screen => screen
  | i, count + 1, screen => fillCells value (i + 1) count (storeCell i value screen)

def placeCursor (x y : UInt8) (screen : Screen) : Screen :=
  let pos := x.toNat + y.toNat * numCols
  let high := (pos >>> 8) % 256
  let low := pos % 256
  { screen with position := high * 256 + low }

def clear (screen : Screen) : Screen :=
  let blank := fillCells space 0 cells screen
  placeCursor 0 0 { blank with screenX := 0, screenY := 0 }

-- Clears row r and every row below it, not row r alone.
def clearTopRow (r : UInt8) (screen : Screen) : Screen :=
  fillCells 0 (r.toNat * numCols) (cells - r.toNat * numCols) screen

def moveUp : Nat → Nat → Screen → Screen
  | _, 0, screen => screen
  | i, count + 1, screen =>
      let char := poke (videoMemory + 2 * i) (screen.memory (videoMemory + 2 * (i + numCols))) screen
      let both := poke (videoMemory + 2 * i + 1) (char.memory (videoMemory + 2 * (i + numCols) + 1)) char
      moveUp (i + 1) count both

def scroll (screen : Screen) : Screen :=
  let moved := moveUp 0 ((numRows - 1) * numCols) screen
  clearTopRow (byte (numRows - 1)) { moved with screenX := 0, screenY := numRows - 1 }

def putCell (c : UInt8) (screen : Screen) : Screen :=
  storeCell (numCols * screen.screenY + screen.screenX) c screen

def nextRow (screen : Screen) : Screen :=
  let down := { screen with screenY := screen.screenY + 1 }
  if (numRows : Int) ≤ down.screenY then scroll down else down

def putNewline (screen : Screen) : Screen :=
  { nextRow screen with screenX := 0 }

def putBackspace (screen : Screen) : Screen :=
  let back := { screen with screenX := screen.screenX - 1 }
  let moved :=
    -- the corner is tested with y < 0, so at (0, 0) the next branch runs
    if back.screenY < 0 ∧ back.screenX < 0 then { back with screenX := 0, screenY := 0 }
    else if back.screenX < 0 then
      { clearTopRow (byte back.screenY) back with screenX := numCols - 1, screenY := back.screenY - 1 }
    else back
  putCell space moved

def putChar (c : UInt8) (screen : Screen) : Screen :=
  let right := { putCell c screen with screenX := screen.screenX + 1 }
  if (numCols : Int) ≤ right.screenX then
    let down := nextRow { right with screenX := 0 }
    clearTopRow (byte down.screenY) down
  else right

def putc (c : UInt8) (screen : Screen) : Screen :=
  let written :=
    if c = newline ∨ c = carriageReturn then putNewline screen
    else if c = backspace then putBackspace screen
    else if c = 0 then putCell c screen
    else putChar c screen
  placeCursor (byte written.screenX) (byte written.screenY) written

inductive Call where
  | clear
  | putc (c : UInt8)
deriving DecidableEq

def step (screen : Screen) : Call → Screen
  | .clear => clear screen
  | .putc c => putc c screen

theorem cells_size : cells = 2000 := rfl

@[simp] theorem store_cell_x (i : Int) (value : UInt8) (screen : Screen) :
    (storeCell i value screen).screenX = screen.screenX := rfl

@[simp] theorem store_cell_y (i : Int) (value : UInt8) (screen : Screen) :
    (storeCell i value screen).screenY = screen.screenY := rfl

@[simp] theorem place_cursor_x (x y : UInt8) (screen : Screen) : (placeCursor x y screen).screenX = screen.screenX := rfl

@[simp] theorem place_cursor_y (x y : UInt8) (screen : Screen) : (placeCursor x y screen).screenY = screen.screenY := rfl

theorem fill_cursor (value : UInt8) (i count : Nat) (screen : Screen) :
    (fillCells value i count screen).screenX = screen.screenX ∧
      (fillCells value i count screen).screenY = screen.screenY := by
  induction count generalizing i screen with
  | zero => exact ⟨rfl, rfl⟩
  | succ count ih => exact ih (i + 1) (storeCell i value screen)

@[simp] theorem clear_top_row_x (r : UInt8) (screen : Screen) : (clearTopRow r screen).screenX = screen.screenX :=
  (fill_cursor 0 _ _ screen).1

@[simp] theorem clear_top_row_y (r : UInt8) (screen : Screen) : (clearTopRow r screen).screenY = screen.screenY :=
  (fill_cursor 0 _ _ screen).2

@[simp] theorem scroll_x (screen : Screen) : (scroll screen).screenX = 0 := clear_top_row_x _ _

@[simp] theorem scroll_y (screen : Screen) : (scroll screen).screenY = 24 := clear_top_row_y _ _

@[simp] theorem clear_x (screen : Screen) : (clear screen).screenX = 0 := rfl

@[simp] theorem clear_y (screen : Screen) : (clear screen).screenY = 0 := rfl

theorem next_row_last (screen : Screen) (last : 24 ≤ screen.screenY) :
    nextRow screen = scroll { screen with screenY := screen.screenY + 1 } := by
  apply if_pos
  change (25 : Int) ≤ screen.screenY + 1
  omega

theorem next_row_above (screen : Screen) (above : screen.screenY < 24) :
    nextRow screen = { screen with screenY := screen.screenY + 1 } := by
  apply if_neg
  change ¬ (25 : Int) ≤ screen.screenY + 1
  omega

theorem put_char_full (c : UInt8) (screen : Screen) (full : 79 ≤ screen.screenX) :
    putChar c screen = clearTopRow (byte (nextRow { putCell c screen with screenX := 0 }).screenY)
      (nextRow { putCell c screen with screenX := 0 }) := by
  apply if_pos
  change (80 : Int) ≤ screen.screenX + 1
  omega

theorem put_char_right (c : UInt8) (screen : Screen) (room : screen.screenX < 79) :
    putChar c screen = { putCell c screen with screenX := screen.screenX + 1 } := by
  apply if_neg
  change ¬ (80 : Int) ≤ screen.screenX + 1
  omega

theorem byte_small (value : Int) (low : 0 ≤ value) (high : value < 256) : (byte value).toNat = value.toNat := by
  have same : value % 256 = value := Int.emod_eq_of_lt low high
  rw [byte, same]
  exact UInt8.toNat_ofNat_of_lt' (by change value.toNat < 256; omega)

theorem clear_top_row_fill (row : Int) (screen : Screen) (low : 0 ≤ row) (high : row < 256) :
    clearTopRow (byte row) screen = fillCells 0 (row.toNat * numCols) (cells - row.toNat * numCols) screen := by
  rw [clearTopRow, byte_small row low high]

def cell (screen : Screen) (i : Int) : UInt8 × UInt8 :=
  (screen.memory (videoMemory + 2 * i), screen.memory (videoMemory + 2 * i + 1))

theorem cell_cursor (screen : Screen) (x y j : Int) :
    cell { screen with screenX := x, screenY := y } j = cell screen j := rfl

theorem cell_store (i : Int) (value : UInt8) (screen : Screen) (j : Int) :
    cell (storeCell i value screen) j = if j = i then (value, attrib) else cell screen j := by
  have odd : videoMemory + 2 * j ≠ videoMemory + 2 * i + 1 := by omega
  by_cases same : j = i
  · rw [same] at odd
    simp only [cell, storeCell, poke, same, if_true, Function.update_self, Function.update_of_ne odd]
  · have char : videoMemory + 2 * j ≠ videoMemory + 2 * i := by omega
    have colour : videoMemory + 2 * j + 1 ≠ videoMemory + 2 * i + 1 := by omega
    have even : videoMemory + 2 * j + 1 ≠ videoMemory + 2 * i := by omega
    simp only [cell, storeCell, poke, if_neg same, Function.update_of_ne odd, Function.update_of_ne char,
      Function.update_of_ne colour, Function.update_of_ne even]

theorem cell_fill (value : UInt8) (i count : Nat) (screen : Screen) (j : Int) :
    cell (fillCells value i count screen) j =
      if (i : Int) ≤ j ∧ j < i + count then (value, attrib) else cell screen j := by
  induction count generalizing i screen with
  | zero =>
      have empty : ¬ ((i : Int) ≤ j ∧ j < i + (0 : Nat)) := by omega
      rw [if_neg empty]
      rfl
  | succ count ih =>
      rw [fillCells, ih (i + 1) (storeCell i value screen), cell_store]
      by_cases first : j = i
      · have inside : (i : Int) ≤ j ∧ j < i + (count + 1 : Nat) := by omega
        rw [if_pos first, ite_self, if_pos inside]
      · have shift : ((i + 1 : Nat) : Int) ≤ j ∧ j < (i + 1 : Nat) + count ↔ (i : Int) ≤ j ∧ j < i + (count + 1 : Nat) := by
          omega
        rw [if_neg first]
        simp only [shift]

-- The rows move upwards, so a source cell is read before the loop writes it.
theorem cell_move_up (i count : Nat) (screen : Screen) (j : Int) :
    cell (moveUp i count screen) j =
      if (i : Int) ≤ j ∧ j < i + count then cell screen (j + numCols) else cell screen j := by
  induction count generalizing i screen with
  | zero =>
      have empty : ¬ ((i : Int) ≤ j ∧ j < i + (0 : Nat)) := by omega
      rw [if_neg empty]
      rfl
  | succ count ih =>
      rw [moveUp, ih (i + 1)]
      have moved : ∀ k : Int, cell (poke (videoMemory + 2 * i + 1) (screen.memory (videoMemory + 2 * (i + numCols) + 1))
          (poke (videoMemory + 2 * i) (screen.memory (videoMemory + 2 * (i + numCols))) screen)) k =
            if k = i then cell screen (i + numCols) else cell screen k := by
        intro k
        by_cases same : k = i
        · have odd : videoMemory + 2 * (i : Int) ≠ videoMemory + 2 * i + 1 := by omega
          simp only [cell, poke, same, if_true, Function.update_self, Function.update_of_ne odd]
        · have char : videoMemory + 2 * k ≠ videoMemory + 2 * i := by omega
          have odd : videoMemory + 2 * k ≠ videoMemory + 2 * i + 1 := by omega
          have colour : videoMemory + 2 * k + 1 ≠ videoMemory + 2 * i + 1 := by omega
          have even : videoMemory + 2 * k + 1 ≠ videoMemory + 2 * i := by omega
          simp only [cell, poke, if_neg same, Function.update_of_ne odd, Function.update_of_ne char,
            Function.update_of_ne colour, Function.update_of_ne even]
      have source : videoMemory + 2 * ((i : Int) + numCols) + 1 ≠ videoMemory + 2 * i := by
        rw [numCols]
        omega
      simp only [poke, Function.update_of_ne source] at moved ⊢
      simp only [moved]
      by_cases first : j = i
      · have inside : (i : Int) ≤ j ∧ j < i + (count + 1 : Nat) := by omega
        have before : ¬ (((i + 1 : Nat) : Int) ≤ j ∧ j < (i + 1 : Nat) + count) := by omega
        rw [if_neg before, if_pos first, if_pos inside, first]
      · have later : (i : Int) ≤ j → j + numCols ≠ i := by
          rw [numCols]
          omega
        have shift : ((i + 1 : Nat) : Int) ≤ j ∧ j < (i + 1 : Nat) + count ↔ (i : Int) ≤ j ∧ j < i + (count + 1 : Nat) := by
          omega
        by_cases inside : (i : Int) ≤ j ∧ j < i + (count + 1 : Nat)
        · rw [if_pos (shift.mpr inside), if_neg (later inside.1), if_pos inside]
        · rw [if_neg (mt shift.mp inside), if_neg first, if_neg inside]

theorem cell_scroll (screen : Screen) (j : Int) (low : 0 ≤ j) (high : j < 2000) :
    cell (scroll screen) j = if j < 1920 then cell screen (j + 80) else (0, attrib) := by
  have last : clearTopRow (byte (numRows - 1)) = fillCells 0 1920 80 := rfl
  rw [scroll, last, cell_fill]
  by_cases moved : j < 1920
  · have above : ¬ (((1920 : Nat) : Int) ≤ j ∧ j < (1920 : Nat) + (80 : Nat)) := by omega
    have inside : ((0 : Nat) : Int) ≤ j ∧ j < (0 : Nat) + ((numRows - 1) * numCols : Nat) := by
      simp only [numRows, numCols]
      omega
    have row := cell_move_up 0 ((numRows - 1) * numCols) screen j
    rw [if_pos inside] at row
    rw [if_neg above, if_pos moved, cell_cursor]
    exact row
  · have bottom : ((1920 : Nat) : Int) ≤ j ∧ j < (1920 : Nat) + (80 : Nat) := by omega
    rw [if_pos bottom, if_neg moved]

def OnScreen (x y : Int) : Prop := (0 ≤ x ∧ x < 80) ∧ 0 ≤ y ∧ y < 25

instance (x y : Int) : Decidable (OnScreen x y) := inferInstanceAs (Decidable (_ ∧ _))

theorem cursor_cell (x y : Int) (on : OnScreen x y) : 0 ≤ numCols * y + x ∧ numCols * y + x < 2000 := by
  obtain ⟨⟨_, _⟩, _, _⟩ := on
  rw [numCols]
  omega

def atCorner (screen : Screen) : Call → Bool
  | .clear => false
  | .putc c => c == backspace && screen.screenX == 0 && screen.screenY == 0

end SimpleKernel.Console
