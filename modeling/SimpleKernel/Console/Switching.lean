import SimpleKernel.Console.Bounds

set_option autoImplicit false

namespace SimpleKernel.Console

abbrev Term := Fin 3

def terminalSize : Nat := 0x1000

structure Display where
  screen : Screen
  savedX : Term → Int
  savedY : Term → Int
  activeTerminal : Term

def backing (t : Term) : Int := videoMemory + ((t.val + 1) <<< 12 : Nat)

-- The pages copied never overlap, so moving dwords is moving bytes.
def memcpy (dest src : Int) (n : Nat) (screen : Screen) : Screen :=
  { screen with memory := Memory.copyUp dest src n screen.memory }

-- The part of display_switch about the screen. The part about processes is
-- Process.displaySwitch; on a started terminal it prints nothing.
def displaySwitch (termId : Term) (display : Display) : Display :=
  let saved := { display with
    savedX := Function.update display.savedX display.activeTerminal (byte display.screen.screenX).toNat
    savedY := Function.update display.savedY display.activeTerminal (byte display.screen.screenY).toNat }
  let stored := memcpy (backing saved.activeTerminal) videoMemory terminalSize saved.screen
  let active := termId
  let restored := memcpy videoMemory (backing active) terminalSize stored
  let cursor := { restored with
    screenX := (byte (saved.savedX active)).toNat, screenY := (byte (saved.savedY active)).toNat }
  { saved with
    screen := placeCursor (byte cursor.screenX) (byte cursor.screenY) cursor, activeTerminal := active }

inductive Event where
  | displaySwitch (termId : Term)
  | call (call : Call)

def Display.step (display : Display) : Event → Display
  | .displaySwitch termId => displaySwitch termId display
  | .call call => { display with screen := Console.step display.screen call }

-- Three screens of their own: an output changes the displayed one alone.
structure Virtual where
  displayed : Term
  screens : Term → Screen

def Virtual.step (virtual : Virtual) : Event → Virtual
  | .displaySwitch termId => { virtual with displayed := termId }
  | .call call =>
      { virtual with
        screens := Function.update virtual.screens virtual.displayed
          (Console.step (virtual.screens virtual.displayed) call) }

def view (display : Display) (t : Term) : Screen :=
  if t = display.activeTerminal then display.screen
  else
    { memory := fun address => display.screen.memory (address - videoMemory + backing t)
      screenX := display.savedX t, screenY := display.savedY t, position := 0, stores := [] }

def separate (display : Display) : Virtual :=
  { displayed := display.activeTerminal, screens := view display }

structure Alike (a b : Screen) : Prop where
  page : ∀ address, videoMemory ≤ address → address < videoMemory + terminalSize → a.memory address = b.memory address
  column : a.screenX = b.screenX
  line : a.screenY = b.screenY

def Related (display : Display) (virtual : Virtual) : Prop :=
  virtual.displayed = display.activeTerminal ∧ ∀ t, Alike (view display t) (virtual.screens t)

def Ready (display : Display) : Prop :=
  OnScreen display.screen.screenX display.screen.screenY ∧
    ∀ t, t ≠ display.activeTerminal → OnScreen (display.savedX t) (display.savedY t)

def StaysOn (display : Display) : Event → Prop
  | .displaySwitch _ => True
  | .call call => OnScreen (Console.step display.screen call).screenX (Console.step display.screen call).screenY

instance (display : Display) : (event : Event) → Decidable (StaysOn display event)
  | .displaySwitch _ => inferInstanceAs (Decidable True)
  | .call _ => inferInstanceAs (Decidable (OnScreen _ _))

theorem backing_start (t : Term) : backing t = videoMemory + 4096 * (t.val + 1) := by
  rw [backing, Nat.shiftLeft_eq]
  omega

theorem alike_store_cell (i : Int) (value : UInt8) (a b : Screen) (alike : Alike a b) :
    Alike (storeCell i value a) (storeCell i value b) := by
  refine ⟨fun address low high => ?_, alike.column, alike.line⟩
  have same := alike.page address low high
  simp only [storeCell, poke, Function.update_apply, same]

theorem alike_fill (value : UInt8) (i count : Nat) (a b : Screen) (alike : Alike a b) :
    Alike (fillCells value i count a) (fillCells value i count b) := by
  induction count generalizing i a b with
  | zero => exact alike
  | succ count ih => exact ih (i + 1) _ _ (alike_store_cell i value a b alike)

theorem alike_move_up (i count : Nat) (a b : Screen) (fits : i + count ≤ 1920) (alike : Alike a b) :
    Alike (moveUp i count a) (moveUp i count b) := by
  induction count generalizing i a b with
  | zero => exact alike
  | succ count ih =>
      apply ih (i + 1) _ _ (by omega)
      refine ⟨fun address low high => ?_, alike.column, alike.line⟩
      have same := alike.page address low high
      have char := alike.page (videoMemory + 2 * (i + numCols)) (by omega) (by rw [terminalSize, numCols]; omega)
      have colour := alike.page (videoMemory + 2 * (i + numCols) + 1) (by omega) (by rw [terminalSize, numCols]; omega)
      simp only [poke, Function.update_apply, same, char, colour]

theorem alike_cursor (a b : Screen) (x y : Int) (alike : Alike a b) :
    Alike { a with screenX := x, screenY := y } { b with screenX := x, screenY := y } :=
  ⟨alike.page, rfl, rfl⟩

theorem alike_clear_top_row (r : UInt8) (a b : Screen) (alike : Alike a b) :
    Alike (clearTopRow r a) (clearTopRow r b) := alike_fill 0 _ _ a b alike

theorem alike_scroll (a b : Screen) (alike : Alike a b) : Alike (scroll a) (scroll b) := by
  have moved := alike_move_up 0 ((numRows - 1) * numCols) a b (by decide) alike
  exact alike_clear_top_row _ _ _ (alike_cursor _ _ 0 (numRows - 1) moved)

theorem alike_put_cell (c : UInt8) (a b : Screen) (alike : Alike a b) : Alike (putCell c a) (putCell c b) := by
  rw [putCell, putCell, alike.column, alike.line]
  exact alike_store_cell _ c a b alike

theorem alike_next_row (a b : Screen) (alike : Alike a b) : Alike (nextRow a) (nextRow b) := by
  have down := alike_cursor a b a.screenX (a.screenY + 1) alike
  have column := alike.column
  have line := alike.line
  by_cases last : 24 ≤ a.screenY
  · rw [next_row_last a last, next_row_last b (line ▸ last), ← line]
    apply alike_scroll
    exact ⟨alike.page, column, rfl⟩
  · have above : a.screenY < 24 := Int.not_le.mp last
    rw [next_row_above a above, next_row_above b (line ▸ above), ← line]
    exact ⟨alike.page, column, rfl⟩

theorem alike_put_backspace (a b : Screen) (alike : Alike a b) : Alike (putBackspace a) (putBackspace b) := by
  have back := alike_cursor a b (a.screenX - 1) a.screenY alike
  have column := alike.column
  have line := alike.line
  simp only [putBackspace, ← column, ← line]
  apply alike_put_cell
  by_cases corner : a.screenY < 0 ∧ a.screenX - 1 < 0
  · rw [if_pos corner, if_pos corner]
    exact alike_cursor _ _ 0 0 alike
  · rw [if_neg corner, if_neg corner]
    by_cases first : a.screenX - 1 < 0
    · rw [if_pos first, if_pos first]
      exact alike_cursor _ _ _ _ (alike_clear_top_row _ _ _ back)
    · rw [if_neg first, if_neg first]
      exact ⟨alike.page, rfl, rfl⟩

theorem alike_put_char (c : UInt8) (a b : Screen) (alike : Alike a b) : Alike (putChar c a) (putChar c b) := by
  have stored := alike_put_cell c a b alike
  have column := alike.column
  by_cases full : 79 ≤ a.screenX
  · have down := alike_next_row { putCell c a with screenX := 0 } { putCell c b with screenX := 0 }
      ⟨stored.page, rfl, stored.line⟩
    rw [put_char_full c a full, put_char_full c b (column ▸ full), down.line]
    exact alike_clear_top_row _ _ _ down
  · have room : a.screenX < 79 := Int.not_le.mp full
    rw [put_char_right c a room, put_char_right c b (column ▸ room), column]
    exact ⟨stored.page, rfl, stored.line⟩

theorem alike_placed (a b : Screen) (x y x' y' : UInt8) (alike : Alike a b) :
    Alike (placeCursor x y a) (placeCursor x' y' b) :=
  ⟨alike.page, alike.column, alike.line⟩

theorem alike_step (call : Call) (a b : Screen) (alike : Alike a b) : Alike (step a call) (step b call) := by
  cases call with
  | clear =>
      have filled := alike_cursor _ _ 0 0 (alike_fill space 0 cells a b alike)
      exact alike_placed _ _ 0 0 0 0 filled
  | putc c =>
      have line := alike_next_row a b alike
      have back := alike_put_backspace a b alike
      have char := alike_put_char c a b alike
      have nul := alike_put_cell c a b alike
      simp only [step, putc]
      by_cases ends : c = newline ∨ c = carriageReturn
      · rw [if_pos ends, if_pos ends]
        exact ⟨line.page, rfl, line.line⟩
      · by_cases erases : c = backspace
        · rw [if_neg ends, if_neg ends, if_pos erases, if_pos erases]
          exact ⟨back.page, back.column, back.line⟩
        · by_cases zero : c = 0
          · rw [if_neg ends, if_neg ends, if_neg erases, if_neg erases, if_pos zero, if_pos zero]
            exact ⟨nul.page, nul.column, nul.line⟩
          · rw [if_neg ends, if_neg ends, if_neg erases, if_neg erases, if_neg zero, if_neg zero]
            exact ⟨char.page, char.column, char.line⟩

def Outside (old screen : Screen) : Prop :=
  ∀ address, videoMemory + terminalSize ≤ address → screen.memory address = old.memory address

theorem outside_kept (old : Screen) : Kept (Outside old) where
  poke := fun screen place value _ high same address beyond => by
    have apart : address ≠ place := by
      rw [terminalSize] at beyond
      omega
    exact (Function.update_of_ne apart value screen.memory).trans (same address beyond)
  cursor := fun _ _ _ same => same
  placed := fun _ _ _ same => same

theorem view_active (display : Display) : view display display.activeTerminal = display.screen := if_pos rfl

theorem view_call (display : Display) (call : Call) (t : Term) :
    view (display.step (.call call)) t =
      if t = display.activeTerminal then Console.step display.screen call
      else { view display t with
        memory := fun address => (Console.step display.screen call).memory (address - videoMemory + backing t) } := by
  by_cases here : t = display.activeTerminal
  · rw [if_pos here]
    exact if_pos here
  · rw [if_neg here, view, view, if_neg here]
    exact if_neg here

theorem virtual_call (virtual : Virtual) (call : Call) (t : Term) :
    (virtual.step (.call call)).screens t =
      if t = virtual.displayed then Console.step (virtual.screens virtual.displayed) call else virtual.screens t :=
  Function.update_apply _ _ _ t

theorem call_related (display : Display) (virtual : Virtual) (call : Call) (related : Related display virtual)
    (ready : Ready display) (stays : StaysOn display (.call call)) :
    Related (display.step (.call call)) (virtual.step (.call call)) := by
  obtain ⟨shown, alike⟩ := related
  refine ⟨shown, fun t => ?_⟩
  by_cases here : t = display.activeTerminal
  · have now := alike display.activeTerminal
    rw [view_active] at now
    rw [here, view_call, if_pos rfl, virtual_call, if_pos shown.symm, shown]
    exact alike_step call _ _ now
  · have away := (step_on_screen display.screen call ready.1).mp stays
    have frame := step_kept (Outside display.screen) (outside_kept display.screen) display.screen call ready.1 away
      fun _ _ => rfl
    have before := alike t
    rw [view_call, if_neg here, virtual_call, if_neg (shown ▸ here)]
    refine ⟨fun address low high => ?_, before.column, before.line⟩
    have place := backing_start t
    rw [view, if_neg here] at before
    exact (frame _ (by rw [terminalSize]; omega)).trans (before.page address low high)

theorem byte_on_screen (x y : Int) (on : OnScreen x y) :
    ((byte x).toNat : Int) = x ∧ ((byte y).toNat : Int) = y := by
  obtain ⟨⟨left, right⟩, low, high⟩ := on
  rw [byte_small x left (by omega), byte_small y low (by omega)]
  exact ⟨Int.toNat_of_nonneg left, Int.toNat_of_nonneg low⟩

theorem switch_memory (display : Display) (termId : Term) (address : Int) :
    (displaySwitch termId display).screen.memory address =
      Memory.copyUp videoMemory (backing termId) terminalSize
        (Memory.copyUp (backing display.activeTerminal) videoMemory terminalSize display.screen.memory) address := by
  simp only [displaySwitch, placeCursor, memcpy]

theorem stored_page (display : Display) (t : Term) (offset : Int) (low : 0 ≤ offset) (high : offset < 4096) :
    Memory.copyUp (backing display.activeTerminal) videoMemory terminalSize display.screen.memory (backing t + offset) =
      (view display t).memory (videoMemory + offset) := by
  have place := backing_start t
  have left := backing_start display.activeTerminal
  by_cases here : t = display.activeTerminal
  · have source : videoMemory + (backing t + offset - backing t) = videoMemory + offset := by omega
    rw [here] at place source ⊢
    rw [Memory.copy_up_at _ _ _ _ _ (by rw [terminalSize]; omega), if_pos (by rw [terminalSize]; omega), source, view_active]
  · have apart : (t.val : Int) ≠ display.activeTerminal.val := fun same => here (Fin.ext (by omega))
    have shift : videoMemory + offset - videoMemory + backing t = backing t + offset := by omega
    rw [Memory.copy_up_outside _ _ _ _ _ (by rw [terminalSize]; omega), view, if_neg here]
    exact congrArg display.screen.memory shift.symm

theorem saved_cursor (display : Display) (t : Term) (ready : Ready display) :
    Function.update display.savedX display.activeTerminal ((byte display.screen.screenX).toNat : Int) t =
        (view display t).screenX ∧
      Function.update display.savedY display.activeTerminal ((byte display.screen.screenY).toNat : Int) t =
        (view display t).screenY := by
  obtain ⟨column, line⟩ := byte_on_screen _ _ ready.1
  by_cases here : t = display.activeTerminal
  · rw [here, Function.update_self, Function.update_self, view_active]
    exact ⟨column, line⟩
  · rw [Function.update_of_ne here, Function.update_of_ne here, view, if_neg here]
    exact ⟨rfl, rfl⟩

theorem view_on_screen (display : Display) (t : Term) (ready : Ready display) :
    OnScreen (view display t).screenX (view display t).screenY := by
  by_cases here : t = display.activeTerminal
  · rw [here, view_active]
    exact ready.1
  · rw [view, if_neg here]
    exact ready.2 t here

theorem switch_cursor (display : Display) (termId : Term) (ready : Ready display) :
    (displaySwitch termId display).screen.screenX = (view display termId).screenX ∧
      (displaySwitch termId display).screen.screenY = (view display termId).screenY := by
  obtain ⟨column, line⟩ := saved_cursor display termId ready
  obtain ⟨x, y⟩ := byte_on_screen _ _ (view_on_screen display termId ready)
  rw [← column] at x ⊢
  rw [← line] at y ⊢
  exact ⟨x, y⟩

theorem switch_view (display : Display) (termId t : Term) (ready : Ready display) :
    Alike (view (displaySwitch termId display) t) (view display t) := by
  obtain ⟨column, line⟩ := switch_cursor display termId ready
  have place := backing_start t
  have target := backing_start termId
  by_cases here : t = termId
  · subst here
    have shown : view (displaySwitch t display) t = (displaySwitch t display).screen := if_pos rfl
    rw [shown]
    refine ⟨fun address low high => ?_, column, line⟩
    rw [terminalSize] at high
    have offset := stored_page display t (address - videoMemory) (by omega) (by omega)
    have back : videoMemory + (address - videoMemory) = address := by omega
    rw [back] at offset
    rw [switch_memory, Memory.copy_up_at _ _ _ _ _ (by rw [terminalSize]; omega), if_pos (by rw [terminalSize]; omega)]
    exact offset
  · have hidden : t ≠ (displaySwitch termId display).activeTerminal := here
    obtain ⟨savedX, savedY⟩ := saved_cursor display t ready
    rw [view, if_neg hidden]
    refine ⟨fun address low high => ?_, savedX, savedY⟩
    rw [terminalSize] at high
    have offset := stored_page display t (address - videoMemory) (by omega) (by omega)
    have back : videoMemory + (address - videoMemory) = address := by omega
    have shift : address - videoMemory + backing t = backing t + (address - videoMemory) := by omega
    rw [back] at offset
    dsimp only
    rw [switch_memory, Memory.copy_up_outside _ _ _ _ _ (by rw [terminalSize]; omega), shift]
    exact offset

theorem alike_trans (a b c : Screen) (first : Alike a b) (second : Alike b c) : Alike a c :=
  ⟨fun address low high => (first.page address low high).trans (second.page address low high),
    first.column.trans second.column, first.line.trans second.line⟩

theorem step_related (display : Display) (virtual : Virtual) (event : Event) (related : Related display virtual)
    (ready : Ready display) (stays : StaysOn display event) : Related (display.step event) (virtual.step event) := by
  cases event with
  | displaySwitch termId =>
      exact ⟨rfl, fun t => alike_trans _ _ _ (switch_view display termId t ready) (related.2 t)⟩
  | call call => exact call_related display virtual call related ready stays

theorem step_ready (display : Display) (event : Event) (ready : Ready display) (stays : StaysOn display event) :
    Ready (display.step event) := by
  cases event with
  | displaySwitch termId =>
      obtain ⟨column, line⟩ := switch_cursor display termId ready
      have on := view_on_screen display termId ready
      refine ⟨?_, fun t hidden => ?_⟩
      · rw [Display.step, column, line]
        exact on
      · obtain ⟨savedX, savedY⟩ := saved_cursor display t ready
        have saved := view_on_screen display t ready
        rw [← savedX, ← savedY] at saved
        exact saved
  | call call => exact ⟨stays, ready.2⟩

theorem step_placed (display : Display) (event : Event) (ready : Ready display) (stays : StaysOn display event) :
    Placed (display.step event).screen := by
  cases event with
  | displaySwitch termId =>
      have next := step_ready display (.displaySwitch termId) ready stays
      exact place_cursor_position _ _ _ next.1
  | call call =>
      cases call with
      | clear => exact clear_placed display.screen
      | putc c => exact putc_placed c display.screen stays

theorem switching_simulates (display : Display) (events : List Event) (ready : Ready display)
    (stays : Run.Guarded Display.step StaysOn display events) :
    Related (Run.final Display.step display events) (Run.final Virtual.step (separate display) events) ∧
      (events ≠ [] → Placed (Run.final Display.step display events).screen) := by
  have start : Related display (separate display) := ⟨rfl, fun t => ⟨fun _ _ _ => rfl, rfl, rfl⟩⟩
  have next : ∀ current virtual event, Ready current → Related current virtual → StaysOn current event →
      Ready (current.step event) ∧ Related (current.step event) (virtual.step event) ∧ Placed (current.step event).screen :=
    fun current virtual event good related admitted => ⟨step_ready current event good admitted,
      step_related current virtual event related good admitted, step_placed current event good admitted⟩
  cases events with
  | nil => exact ⟨start, fun more => absurd rfl more⟩
  | cons event rest =>
      -- The first event places the cursor of the display, and every further one keeps it placed.
      obtain ⟨_, related, placed⟩ := Run.guarded_simulation Display.step Virtual.step StaysOn
        (fun current virtual => Ready current ∧ Related current virtual ∧ Placed current.screen)
        (fun current virtual event good admitted => next current virtual event good.1 good.2.1 admitted)
        _ _ rest (next display (separate display) event ready start stays.1) stays.2
      exact ⟨related, fun _ => placed⟩

def firstTerminal : Term := ⟨0, by decide⟩
def secondTerminal : Term := ⟨1, by decide⟩

def bootDisplay : Display :=
  { screen := clear (powerOn fun _ => 0), savedX := fun _ => 0, savedY := fun _ => 0, activeTerminal := firstTerminal }

def typedOnTwo : List Event :=
  [.call (.putc 97), .displaySwitch secondTerminal, .call (.putc 98), .displaySwitch firstTerminal]

theorem boot_ready : Ready bootDisplay := by
  have corner : OnScreen 0 0 := by decide
  exact ⟨corner, fun _ _ => corner⟩

theorem typed_on_two_simulates :
    Related (Run.final Display.step bootDisplay typedOnTwo)
        (Run.final Virtual.step (separate bootDisplay) typedOnTwo) ∧
      (typedOnTwo ≠ [] → Placed (Run.final Display.step bootDisplay typedOnTwo).screen) :=
  switching_simulates bootDisplay typedOnTwo boot_ready (by decide +kernel)

end SimpleKernel.Console
