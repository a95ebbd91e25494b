import SimpleKernel.Keyboard.Canonical
import SimpleKernel.Keyboard.Terminals

set_option autoImplicit false

namespace SimpleKernel.Keyboard

-- A read of terminal t between interrupts. `entered` is a history: Enter was
-- handled on t while the read was pending, and the line is not copied yet.
structure Polled where
  reading : Reading
  entered : Bool

inductive Poll where
  | interrupt (data : UInt8)
  | poll
deriving DecidableEq, Repr

def Phase.pending : Phase → Bool
  | .wait _ => true
  | .copy _ _ => true
  | .test _ _ => true
  | _ => false

def Polled.interrupt (t : Term) (data : UInt8) (polled : Polled) : Polled where
  reading := { polled.reading with kb := keyboardHandler data polled.reading.kb }
  entered := polled.entered ||
    (polled.reading.phase.pending && decide (data = enterPress ∧ polled.reading.kb.activeTerminal = t))

def Polled.poll (polled : Polled) : Polled where
  reading := readStep polled.reading
  entered := polled.entered && (readStep polled.reading).phase.pending

def Polled.step (t : Term) (polled : Polled) : Poll → Polled
  | .interrupt data => polled.interrupt t data
  | .poll => polled.poll

def SeesEnter (t : Term) (polled : Polled) : Prop :=
  polled.entered = true → (polled.reading.kb.lines t).enterRead = true ∧
    ∀ num, polled.reading.phase = .wait num → (readStep polled.reading).phase = .copy num 0

def OnlyEnter (polled : Polled) : Poll → Prop
  | .interrupt data => polled.entered = true → data = enterPress
  | .poll => True

instance (polled : Polled) : (event : Poll) → Decidable (OnlyEnter polled event)
  | .interrupt _ => inferInstanceAs (Decidable (_ → _))
  | .poll => inferInstanceAs (Decidable True)

def StoresInside (polled : Polled) : Poll → Prop
  | .interrupt data =>
      ∀ position ∈ (keyAction data polled.reading.kb).places
        (polled.reading.kb.lines polled.reading.kb.activeTerminal).index, 0 ≤ position ∧ position ≤ 127
  | .poll => True

instance (polled : Polled) : (event : Poll) → Decidable (StoresInside polled event)
  | .interrupt _ => inferInstanceAs (Decidable (∀ _ ∈ _, _))
  | .poll => inferInstanceAs (Decidable True)

structure Watched (t : Term) (polled : Polled) : Prop where
  shown : polled.reading.kb.dispTermK = polled.reading.kb.activeTerminal
  begun : ∀ num, polled.reading.phase ≠ .enable num
  enabled : polled.reading.phase.pending = true → (polled.reading.kb.lines t).bufferEnable ≠ 0
  waiting : polled.entered = true → polled.reading.phase.pending = true ∧ polled.reading.kb.activeTerminal = t ∧
    (polled.reading.kb.lines t).enterRead = true

def Action.enters : Action → Bool
  | .enter => true
  | .enterTwice => true
  | _ => false

theorem action_enter_read (action : Action) (line : Line) (inside : ∀ position ∈ action.places line.index, position ≤ 127) :
    (action.line line.clearEnter).enterRead = (action.enters && decide (line.bufferEnable ≠ 0)) := by
  cases action with
  | keep => rfl
  | erase => exact write_enter_read (line.index - 1) 0 line.clearEnter
  | enter =>
      have room : line.index ≤ 127 := inside line.index List.mem_cons_self
      exact enter_enter_read line.clearEnter room
  | enterTwice =>
      have room : line.index ≤ 127 := inside line.index (List.mem_cons_of_mem _ List.mem_cons_self)
      exact (append_enter_read 10 _).trans (enter_enter_read line.clearEnter room)
  | insert print => exact append_enter_read print line.clearEnter

theorem action_buffer_enable (action : Action) (line : Line)
    (inside : ∀ position ∈ action.places line.index, position ≤ 127) :
    (action.line line).bufferEnable = line.bufferEnable := by
  cases action with
  | keep => rfl
  | erase => exact write_buffer_enable (line.index - 1) 0 line (inside _ List.mem_cons_self)
  | enter => exact append_buffer_enable 10 line (inside _ List.mem_cons_self)
  | enterTwice =>
      have first : (line.append 10).bufferEnable = line.bufferEnable :=
        append_buffer_enable 10 line (inside _ (List.mem_cons_of_mem _ List.mem_cons_self))
      exact (append_buffer_enable 10 line.enter (inside _ List.mem_cons_self)).trans first
  | insert print => exact append_buffer_enable print line (inside _ List.mem_cons_self)

theorem key_enters (data : UInt8) (kb : State) : (keyAction data kb).enters = decide (data = enterPress) := by
  have newline : pressedChar data kb = 10 ↔ data = enterPress := key_newline _ data
  by_cases enter : data = enterPress
  · have print := newline.mpr enter
    have other : ¬ (10 : UInt8) = 8 := by decide
    rw [keyAction, actionOf, print, if_neg other, if_pos rfl, decide_eq_true enter]
    cases (pressedStatus data kb).altStatus with
    | false => rfl
    | true => rfl
  · have print := mt newline.mp enter
    rw [keyAction, actionOf, if_neg print, decide_eq_false enter]
    by_cases erase : pressedChar data kb = 8
    · rw [if_pos erase]
      by_cases none : kb.numberPrintedLine = 0
      · rw [if_pos none]
        rfl
      · rw [if_neg none]
        rfl
    · rw [if_neg erase]
      split <;> rfl

theorem key_noprint_terminals (print : UInt8) (kb : State) :
    (keyNoprint print kb).dispTermK = kb.dispTermK ∧ (keyNoprint print kb).activeTerminal = kb.activeTerminal := by
  unfold keyNoprint
  split
  · split <;> exact ⟨rfl, rfl⟩
  · split <;> exact ⟨rfl, rfl⟩

theorem alt_function_shown (data : UInt8) (kb : State) (shown : kb.dispTermK = kb.activeTerminal) :
    (altFunction data kb).dispTermK = (altFunction data kb).activeTerminal := by
  unfold altFunction
  split
  · rfl
  · split
    · rfl
    · split
      · rfl
      · exact shown

theorem handler_shown (data : UInt8) (kb : State) :
    (keyboardHandler data kb).dispTermK = (keyboardHandler data kb).activeTerminal := by
  have latched : (keyNoprint (pressedChar data kb) (latch data kb)).dispTermK =
      (keyNoprint (pressedChar data kb) (latch data kb)).activeTerminal := by
    obtain ⟨disp, active⟩ := key_noprint_terminals (pressedChar data kb) (latch data kb)
    rw [disp, active]
    rfl
  rw [keyboard_handler_tail]
  split
  · exact latched
  · split
    · exact alt_function_shown data _ latched
    · split
      · exact latched
      · exact latched

theorem handler_enter_active (kb : State) : (keyboardHandler enterPress kb).activeTerminal = kb.activeTerminal := by
  have latched : (keyNoprint (pressedChar enterPress kb) (latch enterPress kb)).activeTerminal = kb.activeTerminal :=
    (key_noprint_terminals _ _).2
  rw [keyboard_handler_tail]
  split
  · exact latched
  · split
    · exact latched
    · split
      · exact latched
      · exact latched

theorem handler_enter_read (polled : Polled) (data : UInt8) (inside : StoresInside polled (.interrupt data)) :
    ((keyboardHandler data polled.reading.kb).lines polled.reading.kb.activeTerminal).enterRead =
      (decide (data = enterPress) &&
        decide ((polled.reading.kb.lines polled.reading.kb.activeTerminal).bufferEnable ≠ 0)) := by
  rw [(keyboard_handler_handled data polled.reading.kb).active,
    action_enter_read _ _ fun position stored => (inside position stored).2, key_enters]

theorem handler_buffer_enable (polled : Polled) (data : UInt8) (t : Term)
    (inside : StoresInside polled (.interrupt data)) :
    ((keyboardHandler data polled.reading.kb).lines t).bufferEnable = (polled.reading.kb.lines t).bufferEnable := by
  have handled := keyboard_handler_handled data polled.reading.kb
  by_cases active : t = polled.reading.kb.activeTerminal
  · rw [active, handled.active]
    exact action_buffer_enable _ _ fun position stored => (inside position stored).2
  · rw [handled.other t active]

theorem poll_sees (r : Reading) (num : Int) (waits : r.phase = .wait num) (entered : r.kb.displayed.enterRead = true) :
    (readStep r).phase = .copy num 0 := by
  rw [readStep, waits]
  simp only [entered, if_true]

theorem read_step_pending (r : Reading) (begun : ∀ num, r.phase ≠ .enable num) (pending : (readStep r).phase.pending = true) :
    r.phase.pending = true ∧ (readStep r).kb = r.kb := by
  obtain ⟨phase, kb, stored, ret⟩ := r
  cases phase with
  | idle => exact ⟨pending, rfl⟩
  | enable num => exact absurd rfl (begun num)
  | wait num =>
      refine ⟨rfl, ?_⟩
      simp only [readStep]
      split <;> rfl
  | copy num i =>
      refine ⟨rfl, ?_⟩
      simp only [readStep]
      split <;> rfl
  | test num i =>
      refine ⟨rfl, ?_⟩
      simp only [readStep]
      split <;> rfl
  | memset i => cases pending
  | clear i term k =>
      by_cases more : k < 128
      · simp only [readStep, if_pos more] at pending
        cases pending
      · simp only [readStep, if_neg more] at pending
        cases pending
  | resetIndex i => cases pending
  | resetEnter i => cases pending
  | resetEnable i => cases pending

theorem read_step_begun (r : Reading) (begun : ∀ num, r.phase ≠ .enable num) (num : Int) :
    (readStep r).phase ≠ .enable num := by
  obtain ⟨phase, kb, stored, ret⟩ := r
  cases phase with
  | idle => exact begun num
  | enable other => exact absurd rfl (begun other)
  | wait _ => simp only [readStep]; split <;> simp
  | copy _ _ => simp only [readStep]; split <;> simp
  | test _ _ => simp only [readStep]; split <;> simp
  | memset _ => simp [readStep]
  | clear _ _ _ => simp only [readStep]; split <;> simp
  | resetIndex _ => simp [readStep]
  | resetEnter _ => simp [readStep]
  | resetEnable _ => simp [readStep]

theorem watched_sees (t : Term) (polled : Polled) (watched : Watched t polled) : SeesEnter t polled := by
  intro entered
  obtain ⟨_, active, flag⟩ := watched.waiting entered
  refine ⟨flag, fun num waits => poll_sees polled.reading num waits ?_⟩
  rw [State.displayed, watched.shown, active]
  exact flag

theorem poll_watched (t : Term) (polled : Polled) (watched : Watched t polled) : Watched t polled.poll := by
  have keeps := read_step_keeps polled.reading
  have pending := read_step_pending polled.reading watched.begun
  exact {
    shown := by
      rw [Polled.poll, keeps.dispTermK, keeps.activeTerminal]
      exact watched.shown
    begun := read_step_begun polled.reading watched.begun
    enabled := fun waits => by
      rw [Polled.poll, (pending waits).2]
      exact watched.enabled (pending waits).1
    waiting := fun entered => by
      have parts := Bool.and_eq_true_iff.mp entered
      obtain ⟨_, active, flag⟩ := watched.waiting parts.1
      rw [Polled.poll, (pending parts.2).2]
      exact ⟨parts.2, active, flag⟩ }

theorem interrupt_entered (t : Term) (data : UInt8) (polled : Polled) (watched : Watched t polled)
    (only : polled.entered = true → data = enterPress) (entered : (polled.interrupt t data).entered = true) :
    polled.reading.phase.pending = true ∧ data = enterPress ∧ polled.reading.kb.activeTerminal = t := by
  rcases Bool.or_eq_true_iff.mp entered with before | now
  · obtain ⟨pending, active, _⟩ := watched.waiting before
    exact ⟨pending, only before, active⟩
  · obtain ⟨pending, press⟩ := Bool.and_eq_true_iff.mp now
    exact ⟨pending, (of_decide_eq_true press).1, (of_decide_eq_true press).2⟩

theorem interrupt_watched (t : Term) (data : UInt8) (polled : Polled) (watched : Watched t polled)
    (inside : StoresInside polled (.interrupt data)) (only : polled.entered = true → data = enterPress) :
    Watched t (polled.interrupt t data) where
  shown := handler_shown data polled.reading.kb
  begun := watched.begun
  enabled := fun waits => by
    have same := handler_buffer_enable polled data t inside
    exact fun off => watched.enabled waits (same.symm.trans off)
  waiting := fun entered => by
    obtain ⟨pending, press, active⟩ := interrupt_entered t data polled watched only entered
    subst press
    refine ⟨pending, (handler_enter_active polled.reading.kb).trans active, ?_⟩
    have flag := handler_enter_read polled enterPress inside
    rw [active, decide_eq_true (watched.enabled pending), decide_eq_true rfl] at flag
    exact flag

theorem interrupt_clears (t : Term) (data : UInt8) (polled : Polled) (watched : Watched t polled)
    (inside : StoresInside polled (.interrupt data)) (entered : polled.entered = true) (other : data ≠ enterPress) :
    ¬ SeesEnter t (polled.interrupt t data) := by
  intro sees
  obtain ⟨_, active, _⟩ := watched.waiting entered
  have still : (polled.interrupt t data).entered = true := by rw [Polled.interrupt, entered, Bool.true_or]
  have cleared := handler_enter_read polled data inside
  rw [active, decide_eq_false other, Bool.false_and] at cleared
  have kept := (sees still).1
  exact Bool.false_ne_true (cleared.symm.trans kept)

theorem step_sees_enter (t : Term) (polled : Polled) (event : Poll) (watched : Watched t polled)
    (inside : StoresInside polled event) : SeesEnter t (polled.step t event) ↔ OnlyEnter polled event := by
  cases event with
  | poll => exact iff_of_true (watched_sees t _ (poll_watched t polled watched)) trivial
  | interrupt data =>
      constructor
      · intro sees entered
        by_contra other
        exact interrupt_clears t data polled watched inside entered other sees
      · intro only
        exact watched_sees t _ (interrupt_watched t data polled watched inside only)

theorem step_watched (t : Term) (polled : Polled) (event : Poll) (watched : Watched t polled)
    (inside : StoresInside polled event) (only : OnlyEnter polled event) : Watched t (polled.step t event) := by
  cases event with
  | poll => exact poll_watched t polled watched
  | interrupt data => exact interrupt_watched t data polled watched inside only

def pendingRead (num : Int) (kb : State) : Polled where
  reading := ⟨.wait num, kb, [], none⟩
  entered := false

-- The reader's own polls and the keys of a run decide together, so the keys
-- that are still to come ride along with the invariant.
theorem enter_flag_exact (num : Int) (kb : State) (events : List Poll) (shown : kb.dispTermK = kb.activeTerminal)
    (enabled : kb.displayed.bufferEnable ≠ 0)
    (inside : Run.Guarded (Polled.step kb.dispTermK) StoresInside (pendingRead num kb) events) :
    (∀ before after, events = before ++ after →
        SeesEnter kb.dispTermK (Run.final (Polled.step kb.dispTermK) (pendingRead num kb) before)) ↔
      Run.Guarded (Polled.step kb.dispTermK) OnlyEnter (pendingRead num kb) events := by
  have start : Watched kb.dispTermK (pendingRead num kb) :=
    ⟨shown, fun _ same => (by cases same), fun _ => enabled, fun entered => by cases entered⟩
  rw [Run.reached_iff_guarded _ (SeesEnter kb.dispTermK) _ events (watched_sees _ _ start)]
  refine Run.guarded_congr_ahead (Polled.step kb.dispTermK) _ OnlyEnter
    (fun polled rest => Watched kb.dispTermK polled ∧ Run.Guarded (Polled.step kb.dispTermK) StoresInside polled rest)
    ?_ ?_ (pendingRead num kb) events ⟨start, inside⟩
  · rintro polled event rest ⟨watched, stays, later⟩ sees
    exact ⟨step_watched _ polled event watched stays ((step_sees_enter _ polled event watched stays).mp sees), later⟩
  · rintro polled event rest ⟨watched, stays, later⟩
    exact step_sees_enter _ polled event watched stays

def enterTapped : List Poll := [.interrupt enterPress, .interrupt 0x9C]

theorem release_clears_flag :
    ¬ SeesEnter terminal1 (Run.final (Polled.step terminal1) (pendingRead 128 (enableRead initKeyboard)) enterTapped) := by
  intro sees
  have entered : (Run.final (Polled.step terminal1) (pendingRead 128 (enableRead initKeyboard)) enterTapped).entered =
    true := by
    decide +kernel
  have cleared : ((Run.final (Polled.step terminal1) (pendingRead 128 (enableRead initKeyboard)) enterTapped).reading.kb.lines
      terminal1).enterRead = false := by decide +kernel
  exact Bool.false_ne_true (cleared.symm.trans (sees entered).1)

def enterHeld : List Poll :=
  [.interrupt 0x1E, .interrupt 0x9E, .interrupt enterPress, .poll, .poll, .poll, .poll, .poll, .interrupt 0x9C]

theorem enter_flag_polled_in_time :
    (∀ before after, enterHeld = before ++ after →
      SeesEnter terminal1 (Run.final (Polled.step terminal1) (pendingRead 128 (enableRead initKeyboard)) before)) ∧
        (Run.final (Polled.step terminal1) (pendingRead 128 (enableRead initKeyboard)) enterHeld).reading.stored = [97, 10] :=
  ⟨(enter_flag_exact 128 (enableRead initKeyboard) enterHeld rfl (by decide) (by decide +kernel)).mpr (by decide +kernel),
    by decide +kernel⟩

end SimpleKernel.Keyboard
