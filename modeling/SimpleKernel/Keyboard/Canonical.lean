import SimpleKernel.Keyboard.Reader
import SimpleKernel.Library.LineEdit
import SimpleKernel.Library.Run

set_option autoImplicit false

namespace SimpleKernel.Keyboard

open LineEdit (Key edit editAll underflows Fits edit_all_append fits_append fits_behind drop_behind_eq)

-- One terminal whose reader calls read_terminal again as soon as a call has
-- returned, and runs until it waits between any two keys. `nums k` is the
-- length asked for by call number k.
structure Session where
  kb : State
  results : List ReadResult

def startSession : Session := ⟨enableRead initKeyboard, []⟩

def Session.press (nums : Nat → Int) (session : Session) (data : UInt8) : Session :=
  let kb := keyboardHandler data session.kb
  if kb.displayed.enterRead = true then
    let read := finishRead (nums session.results.length) kb
    ⟨enableRead read.2, session.results ++ [read.1]⟩
  else { session with kb := kb }

def plainKey (data : UInt8) : Bool :=
  data != leftControlPress && data != leftAltPress && data != rightAltPress && data != enterPress

def charKey (print : UInt8) : Option (Key UInt8) :=
  if print = 8 then some .erase else if print = 0 then none else some (.insert print)

def lineKeys : Modifiers → List UInt8 → List (Key UInt8)
  | _, [] => []
  | m, data :: rest =>
      let m := keyStatus data m
      (charKey (m.pointer.key data)).toList ++ lineKeys m rest

def modifiersAfter (m : Modifiers) (codes : List UInt8) : Modifiers :=
  codes.foldl (fun current data => keyStatus data current) m

def allLineKeys : Modifiers → List (List UInt8) → List (List (Key UInt8))
  | _, [] => []
  | m, line :: rest => lineKeys m line :: allLineKeys (modifiersAfter m (line ++ [enterPress])) rest

def typedLines (lines : List (List UInt8)) : List (List (Key UInt8)) := allLineKeys initKeyboard.modifiers lines

def sessionCodes (lines : List (List UInt8)) : List UInt8 := lines.flatMap fun line => line ++ [enterPress]

def lineResult (text : List UInt8) : ReadResult := ⟨text ++ [10], (text.length : Int) + 1⟩

def Typable (lines : List (List UInt8)) : Prop :=
  (lines.all fun line => line.all plainKey) = true ∧ ∀ keys ∈ typedLines lines, Fits 126 [] keys

def DeliversLines (nums : Nat → Int) (lines : List (List UInt8)) : Prop :=
  (Run.final (Session.press nums) startSession (sessionCodes lines)).results =
    (typedLines lines).map fun keys => lineResult (editAll [] keys)

-- Inside a line, `behind` characters of the counter lie behind the buffer: 0 on
-- the first line, then 1, because Enter leaves the counter at one.
structure Editing (behind : Nat) (m : Modifiers) (text : List UInt8) (kb : State) : Prop where
  modifiers : kb.modifiers = m
  number : kb.numberPrintedLine = text.length
  index : kb.displayed.index = (text.length : Int) - behind
  cells : ∀ k, k + behind < text.length → kb.displayed.keyboardBuf k = text.getD (k + behind) 0
  noNewline : (10 : UInt8) ∉ text
  notEntered : kb.displayed.enterRead = false
  enabled : kb.displayed.bufferEnable ≠ 0
  shown : kb.dispTermK = kb.activeTerminal

theorem key_newline (pointer : Table) (data : UInt8) : pointer.key data = 10 ↔ data = enterPress := by
  have small : ∀ n < 84, pointer.chars.getD n 0 = 10 ↔ n = 28 := by cases pointer <;> decide
  have length : pointer.chars.length = 84 := by cases pointer <;> rfl
  have code : data = enterPress ↔ data.toNat = 28 := UInt8.toNat_inj.symm
  rw [Table.key, code]
  by_cases bound : data.toNat < 84
  · exact small data.toNat bound
  · have past : pointer.chars.getD data.toNat 0 = 0 := by
      rw [List.getD_eq_getElem?_getD, List.getElem?_eq_none (by omega)]
      rfl
    constructor
    · intro newline
      rw [past] at newline
      cases newline
    · intro same
      omega

def Untouched (m : Modifiers) : Prop := m.controlStatus = false ∧ m.altStatus = false

theorem caps_status_untouched (data : UInt8) (m : Modifiers) (untouched : Untouched m) : Untouched (capsStatus data m) := by
  unfold capsStatus
  split
  · split <;> exact untouched
  · exact untouched

theorem shift_status_untouched (data : UInt8) (m : Modifiers) (untouched : Untouched m) :
    Untouched (shiftStatus data m) := by
  unfold shiftStatus
  split
  · split <;> exact untouched
  · split
    · split <;> exact untouched
    · exact untouched

theorem key_status_untouched (data : UInt8) (m : Modifiers) (control : data ≠ leftControlPress)
    (leftAlt : data ≠ leftAltPress) (rightAlt : data ≠ rightAltPress) (untouched : Untouched m) :
    Untouched (keyStatus data m) := by
  have shifted := shift_status_untouched data _ (caps_status_untouched data m untouched)
  unfold keyStatus altKey controlKey
  rw [if_neg control, if_neg (by tauto)]
  split <;> split <;> simp [Untouched, shifted.1, shifted.2]

theorem plain_action (m : Modifiers) (number : Int) (print : UInt8) (untouched : Untouched m) (notEnter : print ≠ 10) :
    actionOf m number print =
      match charKey print with
      | none => .keep
      | some .erase => if number = 0 then .keep else .erase
      | some (.insert char) => .insert char := by
  obtain ⟨control, alt⟩ := untouched
  unfold actionOf charKey
  by_cases backspace : print = 8
  · simp [backspace]
  · by_cases nul : print = 0
    · simp [nul]
    · simp [backspace, notEnter, nul, control, alt]

theorem char_key_insert (print char : UInt8) (inserts : charKey print = some (.insert char)) : char = print := by
  unfold charKey at inserts
  split at inserts
  · cases inserts
  · split at inserts
    · cases inserts
    · simpa using inserts.symm

theorem editing_keep (behind : Nat) (m : Modifiers) (text : List UInt8) (kb next : State)
    (editing : Editing behind kb.modifiers text kb) (modifiers : next.modifiers = m)
    (number : next.numberPrintedLine = kb.numberPrintedLine) (line : next.displayed = kb.displayed.clearEnter)
    (shown : next.dispTermK = next.activeTerminal) : Editing behind m text next where
  modifiers := modifiers
  number := number.trans editing.number
  index := by
    rw [line]
    exact editing.index
  cells := by
    rw [line]
    exact editing.cells
  noNewline := editing.noNewline
  notEntered := by
    rw [line]
    rfl
  enabled := by
    rw [line]
    exact editing.enabled
  shown := shown

theorem editing_erase (behind : Nat) (m : Modifiers) (text : List UInt8) (kb next : State)
    (editing : Editing behind kb.modifiers text kb) (nonempty : text ≠ []) (room : text.dropLast.length ≤ 126 + behind)
    (modifiers : next.modifiers = m) (number : next.numberPrintedLine = kb.numberPrintedLine - 1)
    (line : next.displayed = kb.displayed.clearEnter.erase)
    (shown : next.dispTermK = next.activeTerminal) : Editing behind m text.dropLast next := by
  have positive : 0 < text.length := List.length_pos_iff.mpr nonempty
  have count : text.dropLast.length = text.length - 1 := List.length_dropLast
  have index := editing.index
  exact {
    modifiers := modifiers
    number := by
      rw [number, editing.number, count]
      omega
    index := by
      rw [line, count]
      change kb.displayed.index - 1 = _
      omega
    cells := by
      intro k below
      rw [count] at below
      have other : ¬ ((k : Int) = kb.displayed.index - 1 ∧ kb.displayed.index - 1 < 128) := by omega
      rw [line]
      change ((kb.displayed.clearEnter).write (kb.displayed.index - 1) 0).keyboardBuf k = _
      rw [write_cell, if_neg other]
      have inside : k + behind < text.length := by omega
      refine (editing.cells k (by omega)).trans ?_
      simp [List.getD_eq_getElem?_getD, below, inside]
    noNewline := fun member => editing.noNewline (List.dropLast_subset text member)
    notEntered := by
      rw [line]
      simp [Line.erase, Line.clearEnter]
    enabled := by
      rw [line]
      change ((kb.displayed.clearEnter).write (kb.displayed.index - 1) 0).bufferEnable ≠ 0
      rw [write_buffer_enable _ _ _ (by omega)]
      exact editing.enabled
    shown := shown }

theorem editing_insert (behind : Nat) (m : Modifiers) (text : List UInt8) (kb next : State) (char : UInt8)
    (editing : Editing behind kb.modifiers text kb) (notEnter : char ≠ 10) (room : text.length < 126 + behind)
    (modifiers : next.modifiers = m) (number : next.numberPrintedLine = kb.numberPrintedLine + 1)
    (line : next.displayed = kb.displayed.clearEnter.append char) (shown : next.dispTermK = next.activeTerminal) :
    Editing behind m (text ++ [char]) next := by
  have count : (text ++ [char]).length = text.length + 1 := by simp
  have index := editing.index
  exact {
    modifiers := modifiers
    number := by
      rw [number, editing.number, count]
      omega
    index := by
      rw [line, count]
      change kb.displayed.index + 1 = _
      omega
    cells := by
      intro k below
      rw [count] at below
      rw [line]
      change ((kb.displayed.clearEnter).write kb.displayed.index char).keyboardBuf k = _
      rw [write_cell]
      by_cases last : k + behind = text.length
      · rw [if_pos (by omega), last]
        simp
      · rw [if_neg (by omega)]
        refine (editing.cells k (by omega)).trans ?_
        have inside : k + behind < text.length := by omega
        simp [List.getD_eq_getElem?_getD, List.getElem?_append_left inside]
    noNewline := by
      simpa using And.intro editing.noNewline (Ne.symm notEnter)
    notEntered := by
      rw [line]
      simp [Line.append, Line.clearEnter]
    enabled := by
      rw [line]
      have inside : kb.displayed.clearEnter.index ≤ 127 := by
        change kb.displayed.index ≤ 127
        omega
      rw [append_buffer_enable char _ inside]
      exact editing.enabled
    shown := shown }

theorem plain_key_parts (data : UInt8) (plain : plainKey data = true) :
    data ≠ leftControlPress ∧ data ≠ leftAltPress ∧ data ≠ rightAltPress ∧ data ≠ enterPress := by
  simpa [plainKey, and_assoc] using plain

theorem editing_press (behind : Nat) (m : Modifiers) (text : List UInt8) (kb : State) (data : UInt8)
    (editing : Editing behind m text kb) (untouched : Untouched m) (plain : plainKey data = true)
    (room : (editAll text (charKey ((keyStatus data m).pointer.key data)).toList).length ≤ 126 + behind) :
    Editing behind (keyStatus data m) (editAll text (charKey ((keyStatus data m).pointer.key data)).toList)
      (keyboardHandler data kb) := by
  obtain ⟨control, leftAlt, rightAlt, notEnter⟩ := plain_key_parts data plain
  have later := key_status_untouched data m control leftAlt rightAlt untouched
  have handled := keyboard_handler_handled data kb
  have status : pressedStatus data kb = keyStatus data m := by rw [pressedStatus, editing.modifiers]
  have print : pressedChar data kb = (keyStatus data m).pointer.key data := by rw [pressedChar, status]
  have notNewline : (keyStatus data m).pointer.key data ≠ 10 := fun newline => notEnter ((key_newline _ data).mp newline)
  obtain ⟨line, shown⟩ := handled_displayed data kb _ handled editing.shown (by rw [status]; exact later.2)
  have modifiers : (keyboardHandler data kb).modifiers = keyStatus data m := handled.modifiers.trans status
  have number := handled.number
  have editing' : Editing behind kb.modifiers text kb := editing.modifiers ▸ editing
  have action : keyAction data kb = actionOf (keyStatus data m) kb.numberPrintedLine
    ((keyStatus data m).pointer.key data) := by
    rw [keyAction, status, print]
  rw [plain_action _ _ _ later notNewline] at action
  cases key : charKey ((keyStatus data m).pointer.key data) with
  | none =>
      rw [key] at action
      rw [action] at line number
      exact editing_keep behind _ text kb _ editing' modifiers number line shown
  | some edited =>
      rw [key] at action room
      cases edited with
      | erase =>
          by_cases empty : text = []
          · have zero : kb.numberPrintedLine = 0 := by simp [editing.number, empty]
            rw [if_pos zero] at action
            rw [action] at line number
            subst empty
            exact editing_keep behind _ [] kb _ editing' modifiers number line shown
          · have nonzero : kb.numberPrintedLine ≠ 0 := by simpa [editing.number] using empty
            rw [if_neg nonzero] at action
            rw [action] at line number
            exact editing_erase behind _ text kb _ editing' empty room modifiers number line shown
      | insert char =>
          rw [action] at line number
          have same := char_key_insert _ char key
          have short : text.length + 1 ≤ 126 + behind := by simpa [edit] using room
          exact editing_insert behind _ text kb _ char editing' (same ▸ notNewline) short modifiers number line shown

theorem copy_loop_line (keyboardBuf : Nat → UInt8) (num : Int) (text : List UInt8) (left i : Nat)
    (room : text.length < left) (asked : ((i + text.length : Nat) : Int) < num) (noNewline : (10 : UInt8) ∉ text)
    (cells : ∀ k < text.length, keyboardBuf (i + k) = text.getD k 0) (newline : keyboardBuf (i + text.length) = 10) :
    copyLoop keyboardBuf num left i = (text ++ [10], i + text.length) := by
  induction text generalizing left i with
  | nil =>
      cases left with
      | zero => cases room
      | succ left =>
          have more : (i : Int) < num := by simpa using asked
          have stop : keyboardBuf i = 10 := newline
          rw [copyLoop, if_pos more, if_pos stop, stop]
          rfl
  | cons char rest ih =>
      cases left with
      | zero => cases room
      | succ left =>
          have head : keyboardBuf i = char := cells 0 (by simp)
          have notLast : keyboardBuf i ≠ 10 := by
            rintro stop
            exact noNewline (by simp [← head, stop])
          have shift : i + 1 + rest.length = i + (char :: rest).length := by
            simp only [List.length_cons]
            omega
          have more : (i : Int) < num := by
            simp only [List.length_cons] at asked
            omega
          have tail := ih left (i + 1) (by simpa using room) (by rw [shift]; exact asked)
            (fun member => noNewline (List.mem_cons_of_mem _ member))
            (fun k below => by
              have cell := cells (k + 1) (by simpa using below)
              rw [Nat.add_right_comm, Nat.add_assoc]
              simpa using cell)
            (by rw [shift]; exact newline)
          rw [copyLoop, if_pos more, if_neg notLast]
          simp only [tail, head, List.cons_append, shift]

theorem entered_cells (behind : Nat) (m : Modifiers) (text : List UInt8) (kb : State) (editing : Editing behind m text kb)
    (small : behind ≤ 1) (room : text.length ≤ 126 + behind) :
    (∀ k < (text.drop behind).length,
        (kb.displayed.clearEnter.enter.append 10).keyboardBuf (0 + k) = (text.drop behind).getD k 0) ∧
      (kb.displayed.clearEnter.enter.append 10).keyboardBuf (0 + (text.drop behind).length) = 10 := by
  have index := editing.index
  have count : (text.drop behind).length = text.length - behind := List.length_drop
  have cell : ∀ k, (kb.displayed.clearEnter.enter.append 10).keyboardBuf k =
      if (k : Int) = kb.displayed.index + 1 ∧ kb.displayed.index + 1 < 128 then 10
      else if (k : Int) = kb.displayed.index ∧ kb.displayed.index < 128 then 10 else kb.displayed.keyboardBuf k := by
    intro k
    change ((kb.displayed.clearEnter.enter).write (kb.displayed.index + 1) 10).keyboardBuf k = _
    rw [write_cell]
    congr 1
    change ((kb.displayed.clearEnter).write kb.displayed.index 10).keyboardBuf k = _
    rw [write_cell]
    rfl
  constructor
  · intro k below
    rw [Nat.zero_add, cell k, if_neg (by omega), if_neg (by omega), editing.cells k (by omega)]
    simp [List.getD_eq_getElem?_getD, List.getElem?_drop, Nat.add_comm]
  · rw [Nat.zero_add, cell _]
    by_cases below : text.length < behind
    · rw [if_pos (by omega)]
    · rw [if_neg (by omega), if_pos (by omega)]

theorem key_status_enter (m : Modifiers) : keyStatus enterPress m = m := rfl

theorem enter_handled (behind : Nat) (m : Modifiers) (text : List UInt8) (kb : State) (editing : Editing behind m text kb)
    (untouched : Untouched m) :
    (keyboardHandler enterPress kb).displayed = kb.displayed.clearEnter.enter.append 10 ∧
      (keyboardHandler enterPress kb).numberPrintedLine = 1 ∧ (keyboardHandler enterPress kb).modifiers = m ∧
      (keyboardHandler enterPress kb).dispTermK = (keyboardHandler enterPress kb).activeTerminal := by
  have handled := keyboard_handler_handled enterPress kb
  have status : pressedStatus enterPress kb = m := by rw [pressedStatus, key_status_enter, editing.modifiers]
  have print : pressedChar enterPress kb = 10 := (key_newline _ _).mpr rfl
  have action : keyAction enterPress kb = .enterTwice := by simp [keyAction, actionOf, print, status, untouched.2]
  obtain ⟨line, shown⟩ := handled_displayed enterPress kb _ handled editing.shown (by rw [status]; exact untouched.2)
  rw [action] at line
  refine ⟨line, ?_, handled.modifiers.trans status, shown⟩
  rw [handled.number, action]
  rfl

theorem after_read (num : Int) (kb : State) :
    (enableRead (finishRead num kb).2).displayed = kb.displayed.reset.enable := by
  simp [enableRead, finishRead, State.onDisplayed, State.displayed]

theorem editing_enter (behind : Nat) (m : Modifiers) (text : List UInt8) (session : Session) (nums : Nat → Int)
    (wide : ∀ k, 128 ≤ nums k) (editing : Editing behind m text session.kb) (untouched : Untouched m)
    (small : behind ≤ 1) (room : text.length ≤ 126 + behind) :
    (session.press nums enterPress).results = session.results ++ [lineResult (text.drop behind)] ∧
      Editing 1 m [0] (session.press nums enterPress).kb := by
  obtain ⟨line, number, modifiers, shown⟩ := enter_handled behind m text session.kb editing untouched
  obtain ⟨cells, newline⟩ := entered_cells behind m text session.kb editing small room
  have asked := wide session.results.length
  have count : (text.drop behind).length = text.length - behind := List.length_drop
  have copied := copy_loop_line _ (nums session.results.length) (text.drop behind) keyboardSize 0
    (by simp only [keyboardSize]; omega) (by omega)
    (fun member => editing.noNewline (List.mem_of_mem_drop member)) cells newline
  have entered : (keyboardHandler enterPress session.kb).displayed.enterRead = true := by
    have inside : session.kb.displayed.clearEnter.index ≤ 127 := by
      have index := editing.index
      change session.kb.displayed.index ≤ 127
      omega
    have enabled : session.kb.displayed.clearEnter.bufferEnable ≠ 0 := editing.enabled
    rw [line, append_enter_read, enter_enter_read _ inside, decide_eq_true enabled, Bool.or_true]
  have after := after_read (nums session.results.length) (keyboardHandler enterPress session.kb)
  rw [Session.press, if_pos entered]
  constructor
  · simp only [finishRead, readLine, line, copied, lineResult, Nat.zero_add]
  · exact {
      modifiers := modifiers
      number := number
      index := by
        rw [after]
        rfl
      cells := fun k below => by simp at below
      noNewline := by decide
      notEntered := by
        rw [after]
        rfl
      enabled := by
        rw [after]
        change (1 : BitVec 32) ≠ 0
        decide
      shown := shown }

theorem untouched_after (m : Modifiers) (line : List UInt8) (plain : ∀ data ∈ line, plainKey data = true)
    (untouched : Untouched m) : Untouched (modifiersAfter m line) := by
  induction line generalizing m with
  | nil => exact untouched
  | cons data rest ih =>
      obtain ⟨control, leftAlt, rightAlt, _⟩ := plain_key_parts data (plain data List.mem_cons_self)
      exact ih (keyStatus data m) (fun later member => plain later (List.mem_cons_of_mem _ member))
        (key_status_untouched data m control leftAlt rightAlt untouched)

theorem press_waits (behind : Nat) (m : Modifiers) (text : List UInt8) (session : Session) (nums : Nat → Int) (data : UInt8)
    (editing : Editing behind m text (keyboardHandler data session.kb)) :
    session.press nums data = ⟨keyboardHandler data session.kb, session.results⟩ := by
  have waits : ¬ (keyboardHandler data session.kb).displayed.enterRead = true := by simp [editing.notEntered]
  rw [Session.press, if_neg waits]

theorem editing_line (behind : Nat) (nums : Nat → Int) (line : List UInt8) (m : Modifiers) (text : List UInt8)
    (session : Session) (plain : ∀ data ∈ line, plainKey data = true) (editing : Editing behind m text session.kb)
    (untouched : Untouched m) (fits : Fits (126 + behind) text (lineKeys m line)) :
    (Run.final (Session.press nums) session line).results = session.results ∧
      Editing behind (modifiersAfter m line) (editAll text (lineKeys m line))
        (Run.final (Session.press nums) session line).kb := by
  induction line generalizing m text session with
  | nil => exact ⟨rfl, editing⟩
  | cons data rest ih =>
      obtain ⟨control, leftAlt, rightAlt, _⟩ := plain_key_parts data (plain data List.mem_cons_self)
      have later := fits_append _ text _ _ fits
      have pressed := editing_press behind m text session.kb data editing untouched (plain data List.mem_cons_self)
        (LineEdit.fits_head _ _ _ later)
      have next := ih (keyStatus data m) _ ⟨keyboardHandler data session.kb, session.results⟩
        (fun code member => plain code (List.mem_cons_of_mem _ member)) pressed
        (key_status_untouched data m control leftAlt rightAlt untouched) later
      rw [Run.final_cons, press_waits behind _ _ session nums data pressed]
      rw [lineKeys, edit_all_append]
      exact next

def delivered : Nat → List (List (Key UInt8)) → List ReadResult
  | _, [] => []
  | behind, keys :: rest => lineResult ((editAll (List.replicate behind 0) keys).drop behind) :: delivered 1 rest

theorem fits_replicate (behind : Nat) (keys : List (Key UInt8)) (small : behind ≤ 1) (fits : Fits 126 [] keys) :
    Fits (126 + behind) (List.replicate behind 0) keys := by
  cases behind with
  | zero => exact fits
  | succ more =>
      have one : more = 0 := by omega
      subst one
      exact fits_behind 126 0 [] keys fits

theorem session_delivers (nums : Nat → Int) (wide : ∀ k, 128 ≤ nums k) (lines : List (List UInt8)) (m : Modifiers)
    (behind : Nat) (session : Session) (plain : ∀ line ∈ lines, ∀ data ∈ line, plainKey data = true)
    (fits : ∀ keys ∈ allLineKeys m lines, Fits 126 [] keys) (untouched : Untouched m) (small : behind ≤ 1)
    (editing : Editing behind m (List.replicate behind 0) session.kb) :
    (Run.final (Session.press nums) session (sessionCodes lines)).results =
      session.results ++ delivered behind (allLineKeys m lines) := by
  induction lines generalizing m behind session with
  | nil => exact (List.append_nil _).symm
  | cons line rest ih =>
      have plainLine := plain line List.mem_cons_self
      have first := fits_replicate behind (lineKeys m line) small (fits _ List.mem_cons_self)
      obtain ⟨results, edited⟩ := editing_line behind nums line m _ session plainLine editing untouched first
      have after := untouched_after m line plainLine untouched
      obtain ⟨read, fresh⟩ := editing_enter behind _ _ _ nums wide edited after small (LineEdit.fits_last _ _ _ first)
      have status : modifiersAfter m (line ++ [enterPress]) = modifiersAfter m line := by
        simp only [modifiersAfter, List.foldl_append, List.foldl_cons, List.foldl_nil, key_status_enter]
      have tail := ih (modifiersAfter m line) 1 _ (fun later member => plain later (List.mem_cons_of_mem _ member))
        (fun keys member => fits keys (by rw [allLineKeys, status]; exact List.mem_cons_of_mem _ member)) after
        (Nat.le_refl 1) fresh
      have codes : sessionCodes (line :: rest) = line ++ ([enterPress] ++ sessionCodes rest) := by
        simp [sessionCodes]
      rw [codes, Run.final_append, Run.final_append]
      refine tail.trans ?_
      rw [allLineKeys, status, delivered]
      refine (congrArg (· ++ delivered 1 (allLineKeys (modifiersAfter m line) rest)) read).trans ?_
      rw [results, List.append_assoc]
      rfl

theorem start_editing : Editing 0 initKeyboard.modifiers [] startSession.kb where
  modifiers := rfl
  number := rfl
  index := rfl
  cells := fun _ below => by simp at below
  noNewline := List.not_mem_nil
  notEntered := rfl
  enabled := by decide
  shown := rfl

theorem line_result_inj (a b : List UInt8) : lineResult a = lineResult b ↔ a = b := by
  constructor
  · intro same
    exact List.append_cancel_right (congrArg ReadResult.stored same)
  · rintro rfl
    rfl

theorem delivered_exact (keys : List (List (Key UInt8))) :
    delivered 1 keys = keys.map (fun line => lineResult (editAll [] line)) ↔
      ∀ line ∈ keys, underflows [] line = false ∨ editAll [] line = [] := by
  induction keys with
  | nil => simp [delivered]
  | cons line rest ih =>
      rw [delivered, List.map_cons, List.cons.injEq, ih, line_result_inj, List.forall_mem_cons]
      exact and_congr_left' (drop_behind_eq 0 line)

instance (lines : List (List UInt8)) : Decidable (Typable lines) := inferInstanceAs (Decidable (_ ∧ _))

instance (nums : Nat → Int) (lines : List (List UInt8)) : Decidable (DeliversLines nums lines) :=
  inferInstanceAs (Decidable (_ = _))

def backspaceFirst : List (List UInt8) := [[], [0x0E, 0x1E, 0x30]]

theorem backspace_on_empty_line : Typable backspaceFirst ∧ ¬ DeliversLines (fun _ => 128) backspaceFirst := by
  decide

theorem delivers_lines_exact (nums : Nat → Int) (wide : ∀ k, 128 ≤ nums k) (lines : List (List UInt8))
    (typable : Typable lines) :
    DeliversLines nums lines ↔
      ∀ keys ∈ (typedLines lines).tail, underflows [] keys = false ∨ editAll [] keys = [] := by
  have plain : ∀ line ∈ lines, ∀ data ∈ line, plainKey data = true := by simpa using typable.1
  have session := session_delivers nums wide lines initKeyboard.modifiers 0 startSession plain typable.2 ⟨rfl, rfl⟩
    (Nat.zero_le 1) start_editing
  rw [DeliversLines, session]
  change delivered 0 (typedLines lines) = _ ↔ _
  cases typedLines lines with
  | nil => simp [delivered]
  | cons first rest =>
      rw [delivered, List.map_cons, List.cons.injEq, List.tail_cons, delivered_exact]
      simp

theorem delivers_lines_exact_edited :
    DeliversLines (fun _ => 128) [[0x1E, 0x0E, 0x30], [0x1E, 0x0E, 0x30]] :=
  (delivers_lines_exact (fun _ => 128) (fun _ => Int.le_refl 128) [[0x1E, 0x0E, 0x30], [0x1E, 0x0E, 0x30]]
    (by decide)).mpr (by decide)

end SimpleKernel.Keyboard
