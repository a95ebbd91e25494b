import Mathlib.Logic.Function.Basic
import SimpleKernel.Keyboard.Scancodes

set_option autoImplicit false

namespace SimpleKernel.Keyboard

abbrev Term := Fin 3

def terminal1 : Term := 0
def terminal2 : Term := 1

def keyboardSize : Nat := 127

-- index[t], enter_read[t] and, of terminals[t], keyboard_buf and buffer_enable.
structure Line where
  keyboardBuf : Nat → UInt8
  index : Int
  enterRead : Bool
  bufferEnable : BitVec 32

def setByte (k : Nat) (byte : UInt8) (word : BitVec 32) : BitVec 32 :=
  (word &&& ~~~(255#32 <<< (8 * k))) ||| (byte.toBitVec.setWidth 32 <<< (8 * k))

-- Behind the 128 cells stand terminal_flag, three bytes of padding and
-- buffer_enable. A store below 0 or from 136 on hits screen_y or what else
-- surrounds them, neighbouring terminals included, which is not kept here.
def Line.write (position : Int) (byte : UInt8) (line : Line) : Line :=
  if 0 ≤ position ∧ position < 128 then
    { line with keyboardBuf := Function.update line.keyboardBuf position.toNat byte }
  else if 132 ≤ position ∧ position < 136 then
    { line with bufferEnable := setByte (position - 132).toNat byte line.bufferEnable }
  else line

def Line.append (byte : UInt8) (line : Line) : Line :=
  { line.write line.index byte with index := line.index + 1 }

def Line.erase (line : Line) : Line :=
  { line.write (line.index - 1) 0 with index := line.index - 1 }

def Line.enter (line : Line) : Line :=
  { line.append 10 with enterRead := line.enterRead || decide ((line.append 10).bufferEnable ≠ 0) }

def Line.clearEnter (line : Line) : Line := { line with enterRead := false }

-- `stores` is a history: where keyboard_buf was written, latest first.
structure State where
  modifiers : Modifiers
  numberPrintedLine : Int
  lines : Term → Line
  dispTermK : Term
  activeTerminal : Term
  stores : List (Term × Int)

def State.displayed (kb : State) : Line := kb.lines kb.dispTermK

def State.onDisplayed (change : Line → Line) (kb : State) : State :=
  { kb with lines := Function.update kb.lines kb.dispTermK (change kb.displayed) }

def State.store (position : Int) (change : Line → Line) (number : Int) (kb : State) : State :=
  { kb.onDisplayed change with
    numberPrintedLine := number
    stores := (kb.dispTermK, position) :: kb.stores }

def emptyLine : Line := ⟨fun _ => 0, 0, false, 0⟩

-- The zeroed globals after init_keyboard and process_init.
def initKeyboard : State where
  modifiers := ⟨.lower, false, false, false⟩
  numberPrintedLine := 0
  lines := fun _ => emptyLine
  dispTermK := 0
  activeTerminal := 0
  stores := []

-- `index != 0` in the source compares the address of the array, which is never
-- zero, so the shared counter is the only guard.
def keyNoprint (keyPressed : UInt8) (kb : State) : State :=
  if keyPressed = 8 then
    if kb.numberPrintedLine ≠ 0 then
      kb.store (kb.displayed.index - 1) Line.erase (kb.numberPrintedLine - 1)
    else kb
  else if keyPressed = 10 then
    kb.store kb.displayed.index Line.enter 0
  else kb

-- Terminal switching as the keyboard sees it: screen and processes aside,
-- display_switch sets active_terminal.
def displaySwitch (termId : Term) (kb : State) : State := { kb with activeTerminal := termId }

def altFunction (data : UInt8) (kb : State) : State :=
  if data = f1Scancode then displaySwitch 0 { kb with dispTermK := 0 }
  else if data = f2Scancode then displaySwitch 1 { kb with dispTermK := 1 }
  else if data = f3Scancode then displaySwitch 2 { kb with dispTermK := 2 }
  else kb

def latch (data : UInt8) (kb : State) : State :=
  let kb := { kb with dispTermK := kb.activeTerminal }
  let kb := kb.onDisplayed Line.clearEnter
  { kb with modifiers := keyStatus data kb.modifiers }

-- cntl_l_check clears the screen and touches nothing the keyboard keeps.
def keyboardHandler (data : UInt8) (kb : State) : State :=
  let kb := latch data kb
  let print := kb.modifiers.pointer.key data
  let kb := keyNoprint print kb
  if kb.modifiers.controlStatus = true ∧ (print = 108 ∨ print = 76) then kb
  else if kb.modifiers.altStatus = true then altFunction data kb
  else if print ≠ 0 ∧ print ≠ 8 then
    kb.store kb.displayed.index (Line.append print) (kb.numberPrintedLine + 1)
  else kb

-- What one key does to the line of the active terminal. Enter is stored by
-- key_noprint and, unless Alt is down, a second time by the handler.
inductive Action where
  | keep
  | erase
  | enter
  | enterTwice
  | insert (print : UInt8)
deriving DecidableEq, Repr

def actionOf (m : Modifiers) (numberPrintedLine : Int) (print : UInt8) : Action :=
  if print = 8 then if numberPrintedLine = 0 then .keep else .erase
  else if print = 10 then if m.altStatus then .enter else .enterTwice
  else if print = 0 ∨ m.altStatus = true ∨ m.controlStatus = true ∧ (print = 108 ∨ print = 76) then .keep
  else .insert print

def Action.line : Action → Line → Line
  | .keep, line => line
  | .erase, line => line.erase
  | .enter, line => line.enter
  | .enterTwice, line => line.enter.append 10
  | .insert print, line => line.append print

def Action.number : Action → Int → Int
  | .keep, number => number
  | .erase, number => number - 1
  | .enter, _ => 0
  | .enterTwice, _ => 1
  | .insert _, number => number + 1

def Action.places : Action → Int → List Int
  | .keep, _ => []
  | .erase, index => [index - 1]
  | .enter, index => [index]
  | .enterTwice, index => [index + 1, index]
  | .insert _, index => [index]

def pressedStatus (data : UInt8) (kb : State) : Modifiers := keyStatus data kb.modifiers

def pressedChar (data : UInt8) (kb : State) : UInt8 := (pressedStatus data kb).pointer.key data

def keyAction (data : UInt8) (kb : State) : Action :=
  actionOf (pressedStatus data kb) kb.numberPrintedLine (pressedChar data kb)

structure Handled (data : UInt8) (kb next : State) : Prop where
  modifiers : next.modifiers = pressedStatus data kb
  number : next.numberPrintedLine = (keyAction data kb).number kb.numberPrintedLine
  active : next.lines kb.activeTerminal = (keyAction data kb).line (kb.lines kb.activeTerminal).clearEnter
  other : ∀ t, t ≠ kb.activeTerminal → next.lines t = kb.lines t
  stores : next.stores =
    ((keyAction data kb).places (kb.lines kb.activeTerminal).index).map (Prod.mk kb.activeTerminal) ++ kb.stores
  shown : (pressedStatus data kb).altStatus = false →
    next.dispTermK = kb.activeTerminal ∧ next.activeTerminal = kb.activeTerminal

theorem on_displayed_self (change : Line → Line) (kb : State) :
    (kb.onDisplayed change).lines kb.dispTermK = change kb.displayed :=
  Function.update_self _ _ _

theorem on_displayed_other (change : Line → Line) (kb : State) (t : Term) (different : t ≠ kb.dispTermK) :
    (kb.onDisplayed change).lines t = kb.lines t :=
  Function.update_of_ne different _ _

@[simp] theorem write_index (position : Int) (byte : UInt8) (line : Line) :
    (line.write position byte).index = line.index := by
  unfold Line.write
  split
  · rfl
  · split <;> rfl

@[simp] theorem write_enter_read (position : Int) (byte : UInt8) (line : Line) :
    (line.write position byte).enterRead = line.enterRead := by
  unfold Line.write
  split
  · rfl
  · split <;> rfl

theorem write_buffer_enable (position : Int) (byte : UInt8) (line : Line) (inside : position ≤ 127) :
    (line.write position byte).bufferEnable = line.bufferEnable := by
  unfold Line.write
  split
  · rfl
  · rw [if_neg (by omega)]

@[simp] theorem append_enter_read (byte : UInt8) (line : Line) : (line.append byte).enterRead = line.enterRead :=
  write_enter_read line.index byte line

theorem append_buffer_enable (byte : UInt8) (line : Line) (inside : line.index ≤ 127) :
    (line.append byte).bufferEnable = line.bufferEnable :=
  write_buffer_enable line.index byte line inside

theorem enter_enter_read (line : Line) (inside : line.index ≤ 127) :
    line.enter.enterRead = (line.enterRead || decide (line.bufferEnable ≠ 0)) := by
  rw [← append_buffer_enable 10 line inside]
  rfl

theorem write_cell (position : Int) (byte : UInt8) (line : Line) (k : Nat) :
    (line.write position byte).keyboardBuf k =
      if (k : Int) = position ∧ position < 128 then byte else line.keyboardBuf k := by
  unfold Line.write
  by_cases here : (k : Int) = position
  · by_cases within : position < 128
    · have inside : 0 ≤ position ∧ position < 128 := by omega
      have cell : position.toNat = k := by omega
      simp [inside, here, cell]
    · simp only [within, and_false, if_false]
      split <;> rfl
  · simp only [here, false_and, if_false]
    split
    · have cell : k ≠ position.toNat := by omega
      exact Function.update_of_ne cell _ _
    · split <;> rfl

theorem alt_function_keeps (data : UInt8) (kb : State) :
    (altFunction data kb).modifiers = kb.modifiers ∧ (altFunction data kb).numberPrintedLine = kb.numberPrintedLine ∧
      (altFunction data kb).lines = kb.lines ∧ (altFunction data kb).stores = kb.stores := by
  unfold altFunction
  split
  · exact ⟨rfl, rfl, rfl, rfl⟩
  · split
    · exact ⟨rfl, rfl, rfl, rfl⟩
    · split <;> exact ⟨rfl, rfl, rfl, rfl⟩

theorem handled_alt (data : UInt8) (kb next : State) (handled : Handled data kb next)
    (alt : (pressedStatus data kb).altStatus = true) : Handled data kb (altFunction data next) := by
  obtain ⟨modifiers, number, lines, stores⟩ := alt_function_keeps data next
  exact {
    modifiers := modifiers.trans handled.modifiers
    number := number.trans handled.number
    active := by
      rw [lines]
      exact handled.active
    other := by
      rw [lines]
      exact handled.other
    stores := stores.trans handled.stores
    shown := fun off => by
      rw [alt] at off
      cases off }

-- Every state inside the handler has this shape: the active terminal is the
-- displayed one and only its line differs from what the handler found.
def facing (kb : State) (m : Modifiers) (number : Int) (line : Line) (stores : List (Term × Int)) : State where
  modifiers := m
  numberPrintedLine := number
  lines := Function.update kb.lines kb.activeTerminal line
  dispTermK := kb.activeTerminal
  activeTerminal := kb.activeTerminal
  stores := stores

theorem latch_facing (data : UInt8) (kb : State) :
    latch data kb = facing kb (pressedStatus data kb) kb.numberPrintedLine (kb.lines kb.activeTerminal).clearEnter
      kb.stores := rfl

theorem facing_displayed (kb : State) (m : Modifiers) (number : Int) (line : Line) (stores : List (Term × Int)) :
    (facing kb m number line stores).displayed = line :=
  Function.update_self _ _ _

theorem facing_store (kb : State) (m : Modifiers) (number later : Int) (line : Line) (stores : List (Term × Int))
    (change : Line → Line) (position : Int) :
    (facing kb m number line stores).store position change later =
      facing kb m later (change line) ((kb.activeTerminal, position) :: stores) := by
  simp [facing, State.store, State.onDisplayed, State.displayed]

theorem facing_handled (data : UInt8) (kb : State) :
    Handled data kb (facing kb (pressedStatus data kb) ((keyAction data kb).number kb.numberPrintedLine)
      ((keyAction data kb).line (kb.lines kb.activeTerminal).clearEnter)
      (((keyAction data kb).places (kb.lines kb.activeTerminal).index).map (Prod.mk kb.activeTerminal) ++ kb.stores)) where
  modifiers := rfl
  number := rfl
  active := Function.update_self _ _ _
  other := fun _ different => Function.update_of_ne different _ _
  stores := rfl
  shown := fun _ => ⟨rfl, rfl⟩

theorem handled_action (data : UInt8) (kb : State) (action : Action) (acts : keyAction data kb = action) :
    Handled data kb (facing kb (pressedStatus data kb) (action.number kb.numberPrintedLine)
      (action.line (kb.lines kb.activeTerminal).clearEnter)
      ((action.places (kb.lines kb.activeTerminal).index).map (Prod.mk kb.activeTerminal) ++ kb.stores)) := by
  rw [← acts]
  exact facing_handled data kb

theorem key_noprint_backspace (kb : State) (m : Modifiers) (number : Int) (line : Line) (stores : List (Term × Int)) :
    keyNoprint 8 (facing kb m number line stores) =
      if number = 0 then facing kb m number line stores
      else facing kb m (number - 1) line.erase ((kb.activeTerminal, line.index - 1) :: stores) := by
  rw [keyNoprint, if_pos rfl, facing_displayed, facing_store]
  exact ite_not _ _ _

theorem key_noprint_enter (kb : State) (m : Modifiers) (number : Int) (line : Line) (stores : List (Term × Int)) :
    keyNoprint 10 (facing kb m number line stores) =
      facing kb m 0 line.enter ((kb.activeTerminal, line.index) :: stores) := by
  rw [keyNoprint, if_neg (by decide), if_pos rfl, facing_displayed, facing_store]

theorem key_noprint_other (print : UInt8) (kb : State) (notErase : print ≠ 8) (notEnter : print ≠ 10) :
    keyNoprint print kb = kb := by
  rw [keyNoprint, if_neg notErase, if_neg notEnter]

theorem keyboard_handler_tail (data : UInt8) (kb : State) :
    keyboardHandler data kb =
      if (pressedStatus data kb).controlStatus = true ∧ (pressedChar data kb = 108 ∨ pressedChar data kb = 76) then
        keyNoprint (pressedChar data kb) (latch data kb)
      else if (pressedStatus data kb).altStatus = true then
        altFunction data (keyNoprint (pressedChar data kb) (latch data kb))
      else if pressedChar data kb ≠ 0 ∧ pressedChar data kb ≠ 8 then
        (keyNoprint (pressedChar data kb) (latch data kb)).store
          (keyNoprint (pressedChar data kb) (latch data kb)).displayed.index (Line.append (pressedChar data kb))
          ((keyNoprint (pressedChar data kb) (latch data kb)).numberPrintedLine + 1)
      else keyNoprint (pressedChar data kb) (latch data kb) := by
  have modifiers : (keyNoprint (pressedChar data kb) (latch data kb)).modifiers = pressedStatus data kb := by
    unfold keyNoprint
    split
    · split <;> rfl
    · split <;> rfl
  rw [← modifiers]
  rfl

theorem handled_backspace (data : UInt8) (kb : State) (print : pressedChar data kb = 8) :
    Handled data kb (keyboardHandler data kb) := by
  have handled : Handled data kb (keyNoprint 8 (latch data kb)) := by
    rw [latch_facing, key_noprint_backspace]
    by_cases none : kb.numberPrintedLine = 0
    · rw [if_pos none]
      exact handled_action data kb .keep (by rw [keyAction, actionOf, if_pos print, if_pos none])
    · rw [if_neg none]
      exact handled_action data kb .erase (by rw [keyAction, actionOf, if_pos print, if_neg none])
  have plain : ¬ ((8 : UInt8) = 108 ∨ (8 : UInt8) = 76) := by decide
  rw [keyboard_handler_tail, print, if_neg fun letter => plain letter.2]
  by_cases alt : (pressedStatus data kb).altStatus = true
  · rw [if_pos alt]
    exact handled_alt data kb _ handled alt
  · rw [if_neg alt, if_neg fun printed => printed.2 rfl]
    exact handled

theorem handled_enter (data : UInt8) (kb : State) (print : pressedChar data kb = 10) :
    Handled data kb (keyboardHandler data kb) := by
  have plain : ¬ ((10 : UInt8) = 108 ∨ (10 : UInt8) = 76) := by decide
  rw [keyboard_handler_tail, print, if_neg fun letter => plain letter.2, latch_facing, key_noprint_enter]
  by_cases alt : (pressedStatus data kb).altStatus = true
  · rw [if_pos alt]
    refine handled_alt data kb _ ?_ alt
    exact handled_action data kb .enter (by rw [keyAction, actionOf, print, if_neg (by decide), if_pos rfl, if_pos alt])
  · rw [if_neg alt, if_pos (by decide), facing_store, facing_displayed]
    exact handled_action data kb .enterTwice
      (by rw [keyAction, actionOf, print, if_neg (by decide), if_pos rfl, if_neg alt])

theorem handled_other (data : UInt8) (kb : State) (notErase : pressedChar data kb ≠ 8)
    (notEnter : pressedChar data kb ≠ 10) : Handled data kb (keyboardHandler data kb) := by
  have action : keyAction data kb = if pressedChar data kb = 0 ∨ (pressedStatus data kb).altStatus = true ∨
      (pressedStatus data kb).controlStatus = true ∧ (pressedChar data kb = 108 ∨ pressedChar data kb = 76)
      then .keep else .insert (pressedChar data kb) := by
    rw [keyAction, actionOf, if_neg notErase, if_neg notEnter]
  rw [keyboard_handler_tail, key_noprint_other _ _ notErase notEnter]
  by_cases letter : (pressedStatus data kb).controlStatus = true ∧
      (pressedChar data kb = 108 ∨ pressedChar data kb = 76)
  · rw [if_pos letter]
    exact handled_action data kb .keep (by rw [action, if_pos (Or.inr (Or.inr letter))])
  · rw [if_neg letter]
    by_cases alt : (pressedStatus data kb).altStatus = true
    · rw [if_pos alt]
      have keep := handled_action data kb .keep (by rw [action, if_pos (Or.inr (Or.inl alt))])
      exact handled_alt data kb _ keep alt
    · rw [if_neg alt]
      by_cases nul : pressedChar data kb = 0
      · rw [if_neg fun printed => printed.1 nul]
        exact handled_action data kb .keep (by rw [action, if_pos (Or.inl nul)])
      · rw [if_pos ⟨nul, notErase⟩, latch_facing, facing_store, facing_displayed]
        refine handled_action data kb (.insert (pressedChar data kb)) ?_
        rw [action, if_neg]
        rintro (isNul | isAlt | isLetter)
        · exact nul isNul
        · exact alt isAlt
        · exact letter isLetter

theorem keyboard_handler_handled (data : UInt8) (kb : State) : Handled data kb (keyboardHandler data kb) := by
  by_cases backspace : pressedChar data kb = 8
  · exact handled_backspace data kb backspace
  · by_cases enter : pressedChar data kb = 10
    · exact handled_enter data kb enter
    · exact handled_other data kb backspace enter

theorem handled_displayed (data : UInt8) (kb next : State) (handled : Handled data kb next)
    (shown : kb.dispTermK = kb.activeTerminal) (alt : (pressedStatus data kb).altStatus = false) :
    next.displayed = (keyAction data kb).line kb.displayed.clearEnter ∧ next.dispTermK = next.activeTerminal := by
  obtain ⟨disp, active⟩ := handled.shown alt
  constructor
  · rw [State.displayed, State.displayed, disp, shown]
    exact handled.active
  · rw [disp, active]

end SimpleKernel.Keyboard
