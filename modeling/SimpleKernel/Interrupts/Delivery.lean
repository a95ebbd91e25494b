import SimpleKernel.Interrupts.Board
import SimpleKernel.Keyboard.Handler
import SimpleKernel.Library.Run

set_option autoImplicit false

namespace SimpleKernel.Interrupts

open Keyboard (keyboardHandler latch)

-- What a handler does that its devices and the controllers can see.
inductive Action where
  | readEncoder
  | readRegisterC
  | eoi (irqNum : BitVec 32)
  -- display_switch or the scheduler, which need not come back
  | leave
  | stop
deriving DecidableEq

def Handler.actions : Handler → List Action
  | .kbd => [.readEncoder]
  | .rtc => [.readRegisterC, .eoi 8]
  | .pit => [.eoi 0, .leave]
  | .syscall => [.leave]
  | .exception _ | .idk => [.stop]

def keyNoprintActions (keyPressed : UInt8) : List Action :=
  if keyPressed = 8 then [.eoi 1] else if keyPressed = 10 then [.eoi 1] else []

def keyboardActions (data : UInt8) (kb : Keyboard.State) : List Action :=
  let kb := latch data kb
  let print := kb.modifiers.pointer.key data
  keyNoprintActions print ++
    if kb.modifiers.controlStatus = true ∧ (print = 108 ∨ print = 76) then [.eoi 1]
    else if kb.modifiers.altStatus = true then
      .eoi 1 ::
        if data = Keyboard.f1Scancode ∨ data = Keyboard.f2Scancode ∨ data = Keyboard.f3Scancode then [.leave] else []
    else [.eoi 1]

def vectored : List Handler := exceptions.map Handler.exception ++ [.kbd, .rtc, .pit, .syscall]

def handlerAt (v : BitVec 8) : Handler := (vectored.find? fun handler => handler.vector = v).getD .idk

-- The controllers, the processor's interrupt flag and the handler that is at
-- work; the encoder's byte, whether it is new, and what the keyboard has behind
-- it; the flag of the clock's register C. The last two are histories.
structure System where
  board : Board
  enabled : Bool
  doing : Option (List Action)
  encoder : UInt8
  full : Bool
  typed : List UInt8
  clock : Bool
  interruptRtc : Bool
  kb : Keyboard.State
  reads : List UInt8
  sent : List UInt8

def System.request (line : Nat) (s : System) : System :=
    { s with board := { s.board with pair := s.board.pair.request line } }

-- The keyboard hands over its next byte once the last one has been read.
def System.load (s : System) : System :=
  match s.typed with
  | [] => s
  | code :: rest => if s.full then s else { s with encoder := code, full := true, typed := rest }.request 1

def System.perform (s : System) (rest : List Action) : Action → System
  | .readEncoder =>
      System.load
        { s with
          full := false
          reads := s.reads ++ [s.encoder]
          kb := keyboardHandler s.encoder s.kb
          doing := some (keyboardActions s.encoder s.kb ++ rest) }
  | .readRegisterC => { s with clock := false, interruptRtc := true, doing := some rest }
  | .eoi irqNum => { s with board := s.board.sendEoi irqNum, doing := some rest }
  | .leave => { s with doing := none }
  | .stop => s

inductive Event where
  | key (code : UInt8)
  | tick
  | other (line : Nat)
  | flags (enabled : Bool)
  | accept
  | work
deriving DecidableEq

def Event.ofProcessor : Event → Bool
  | .flags _ | .accept | .work => true
  | _ => false

def Event.code : Event → Option UInt8
  | .key code => some code
  | _ => none

-- Programs and the rest of the kernel turn interrupts on and off as they like;
-- the handlers do not until their iret, which turns them on again.
def System.step (s : System) : Event → System
  | .key code => System.load { s with typed := s.typed ++ [code], sent := s.sent ++ [code] }
  | .tick => if s.clock then s else { s with clock := true }.request 8
  | .other line => if line = 1 ∨ line = 2 ∨ line = 8 then s else s.request line
  | .flags enabled => if s.doing = none then { s with enabled := enabled } else s
  | .accept =>
      if s.enabled = true ∧ s.doing = none then
        match s.board.pair.acknowledge with
        | none => s
        | some (v, pair) =>
            { s with
              board := { s.board with pair := pair }
              enabled := decide ((handlerAt v).trap = 1)
              doing := some (handlerAt v).actions }
      else s
  | .work =>
      match s.doing with
      | none => s
      | some [] => { s with doing := none, enabled := true }
      | some (action :: rest) => s.perform rest action

structure Unserved where
  board : Board
  master : board.pair.master.inService = fun _ => false
  slave : board.pair.slave.inService = fun _ => false

def powerOnChips : Unserved where
  board :=
    let chip : Controllers.Chip := ⟨fun _ => false, fun _ => false, 0, 0, 0, false, false, false, .mask⟩
    ⟨⟨0, 0, fun _ => 0⟩, ⟨chip, chip⟩⟩
  master := rfl
  slave := rfl

-- After entry has called i8259_init, init_keyboard and init_rtc, with a byte in
-- the encoder that has not been read, or none.
def boot (old : Unserved) (encoder : UInt8) (unread : Bool) : System where
  board := (old.board.i8259Init.enableIrq 1).enableIrq 8
  enabled := false
  doing := none
  encoder := encoder
  full := unread
  typed := []
  clock := false
  interruptRtc := false
  kb := Keyboard.initKeyboard
  reads := []
  sent := []

def System.waiting (s : System) : List UInt8 := (if s.full then [s.encoder] else []) ++ s.typed

theorem handler_gate (address : Handler → X86.Word) (idt : Idt) (v : BitVec 8) :
    X86.Gate.read (initIdt address idt v) = gateOf address (handlerAt v) := by
  rw [handlerAt]
  cases found : vectored.find? fun handler => handler.vector = v with
  | some handler =>
      have here := List.find?_some found
      have same : handler.vector = v := of_decide_eq_true here
      rw [Option.getD_some, ← same, init_idt_known]
  | none =>
      refine init_idt_unknown address idt v ?_
      rintro ⟨handler, known, same⟩
      refine absurd (List.find?_eq_none.mp found handler ?_) (by rw [same]; simp)
      cases handler with
      | exception cause => cases cause <;> decide
      | idk => exact absurd rfl known
      | _ => decide

def Harmless (rest : List Action) : Prop := ∀ action ∈ rest, action = .eoi 1 ∨ action = .leave

inductive Stage : Service → Option (List Action) → Bool → Prop
  | free (enabled : Bool) : Stage .idle none enabled
  | askedKbd : Stage .kbd (some [.readEncoder]) false
  | askedRtc : Stage .rtc (some [.readRegisterC, .eoi 8]) false
  | endingKbd (rest : List Action) (harmless : Harmless rest) : Stage .kbd (some (.eoi 1 :: rest)) false
  | endingRtc : Stage .rtc (some [.eoi 8]) false
  | ended (rest : List Action) (harmless : Harmless rest) : Stage .idle (some rest) false

def System.asksKbd (s : System) : Bool := decide (s.doing = some [.readEncoder])
def System.asksRtc (s : System) : Bool := decide (s.doing = some [.readRegisterC, .eoi 8])

structure Tracked (s : System) : Prop where
  wired : Wired s.board.pair
  stage : ∃ service, Serves service s.board.pair ∧ Stage service s.doing s.enabled
  announced : s.board.pair.master.requests 1 = (s.full && !s.asksKbd)
  asked : s.asksKbd = true → s.full = true
  ticked : s.board.pair.slave.requests 0 = (s.clock && !s.asksRtc)
  clocked : s.asksRtc = true → s.clock = true
  history : s.reads ++ s.waiting = s.sent
  kb : s.kb = s.reads.foldl (fun kb code => keyboardHandler code kb) Keyboard.initKeyboard

structure Inv (s : System) : Prop extends Tracked s where
  backlog : s.full = false → s.typed = []

theorem boot_masking (old : Unserved) (encoder : UInt8) (unread : Bool) : Masking 0xF9 0xFE (boot old encoder unread).board :=
  enable_clock_masking 0xF9 0xFF _ (enable_master_masking 1 (by decide) 0xFB 0xFF _ (init_masking old.board))

theorem boot_inv (old : Unserved) (encoder : UInt8) : Inv (boot old encoder false) where
  wired := ⟨(boot_masking old encoder false).master, (boot_masking old encoder false).slave⟩
  stage := ⟨.idle, ⟨old.master, old.slave⟩, .free false⟩
  announced := rfl
  asked := fun asking => by cases asking
  ticked := rfl
  clocked := fun asking => by cases asking
  history := rfl
  kb := rfl
  backlog := fun _ => rfl

theorem load_next (s : System) (code : UInt8) (rest : List UInt8) (empty : s.full = false) (queue : s.typed = code :: rest) :
    s.load = { s with encoder := code, full := true, typed := rest }.request 1 := by
  rw [System.load, queue, empty]
  rfl

theorem load_kept (s : System) (kept : s.full = true ∨ s.typed = []) : s.load = s := by
  rw [System.load]
  split
  · rfl
  · rename_i queue
    rw [queue] at kept
    rw [if_pos (kept.resolve_right (List.cons_ne_nil _ _))]

theorem asks_kbd_full (s : System) (tracked : Tracked s) (empty : s.full = false) : s.asksKbd = false := by
  by_contra asking
  rw [tracked.asked (Bool.eq_true_of_not_eq_false asking)] at empty
  cases empty

theorem load_inv (s : System) (tracked : Tracked s) : Inv s.load := by
  by_cases kept : s.full = true ∨ s.typed = []
  · rw [load_kept s kept]
    refine ⟨tracked, fun empty => kept.resolve_left ?_⟩
    rw [empty]
    decide
  · obtain ⟨unread, typed⟩ := not_or.mp kept
    have empty : s.full = false := Bool.eq_false_iff.mpr unread
    obtain ⟨code, rest, queue⟩ := List.exists_cons_of_ne_nil typed
    have asks := asks_kbd_full s tracked empty
    obtain ⟨service, serves, stage⟩ := tracked.stage
    have waiting := tracked.history
    rw [System.waiting, empty, queue] at waiting
    rw [load_next s code rest empty queue]
    exact {
      wired := request_wired 1 s.board.pair tracked.wired
      stage := ⟨service, request_serves 1 service s.board.pair serves, stage⟩
      announced := by
        change true = (true && !s.asksKbd)
        rw [asks]
        rfl
      asked := fun _ => rfl
      ticked := tracked.ticked
      clocked := tracked.clocked
      history := waiting
      kb := tracked.kb
      backlog := fun full => by cases full }

theorem key_inv (s : System) (code : UInt8) (inv : Inv s) : Inv (s.step (.key code)) := by
  apply load_inv
  refine { inv with history := ?_ }
  have history := inv.history
  rw [System.waiting, ← List.append_assoc] at history
  change s.reads ++ ((if s.full = true then [s.encoder] else []) ++ (s.typed ++ [code])) = s.sent ++ [code]
  rw [← history, List.append_assoc, List.append_assoc]

theorem tick_inv (s : System) (inv : Inv s) : Inv (s.step .tick) := by
  rw [System.step]
  split
  · exact inv
  · rename_i quiet
    have asks : s.asksRtc = false := by
      by_contra asking
      exact quiet (inv.clocked (Bool.eq_true_of_not_eq_false asking))
    obtain ⟨service, serves, stage⟩ := inv.stage
    exact {
      wired := request_wired 8 s.board.pair inv.wired
      stage := ⟨service, request_serves 8 service s.board.pair serves, stage⟩
      announced := inv.announced
      asked := inv.asked
      ticked := by
        change true = (true && !s.asksRtc)
        rw [asks]
        rfl
      clocked := fun _ => rfl
      history := inv.history
      kb := inv.kb
      backlog := inv.backlog }

theorem other_inv (s : System) (line : Nat) (inv : Inv s) : Inv (s.step (.other line)) := by
  rw [System.step]
  split
  · exact inv
  · rename_i foreign
    obtain ⟨service, serves, stage⟩ := inv.stage
    exact { inv with
      wired := request_wired line s.board.pair inv.wired
      stage := ⟨service, request_serves line service s.board.pair serves, stage⟩
      announced := (request_key line (fun key => foreign (Or.inl key)) s.board.pair).trans inv.announced
      ticked := (request_tick line (fun tick => foreign (Or.inr (Or.inr tick))) s.board.pair).trans inv.ticked }

theorem flags_inv (s : System) (enabled : Bool) (inv : Inv s) : Inv (s.step (.flags enabled)) := by
  rw [System.step]
  split
  · rename_i free
    obtain ⟨service, serves, stage⟩ := inv.stage
    refine { inv with stage := ⟨service, serves, ?_⟩ }
    change Stage service s.doing enabled
    rw [free] at stage ⊢
    cases stage
    exact .free enabled
  · exact inv

theorem free_idle (s : System) (inv : Inv s) (free : s.doing = none) : Serves .idle s.board.pair := by
  obtain ⟨service, serves, stage⟩ := inv.stage
  rw [free] at stage
  cases stage
  exact serves

theorem free_requests (s : System) (inv : Inv s) (free : s.doing = none) :
    s.board.pair.master.requests 1 = s.full ∧ s.board.pair.slave.requests 0 = s.clock := by
  have kbd : s.asksKbd = false := by rw [System.asksKbd, free]; rfl
  have rtc : s.asksRtc = false := by rw [System.asksRtc, free]; rfl
  exact ⟨by rw [inv.announced, kbd]; exact Bool.and_true _, by rw [inv.ticked, rtc]; exact Bool.and_true _⟩

theorem accept_cases (s : System) (inv : Inv s) (enabled : s.enabled = true) (free : s.doing = none) :
    s.step .accept =
      if s.full then
        { s with
          board := { s.board with pair := { s.board.pair with master := s.board.pair.master.accept 1 } }
          enabled := false
          doing := some [.readEncoder] }
      else if s.clock then
        { s with
          board := { s.board with pair := ⟨s.board.pair.master.accept 2, s.board.pair.slave.accept 0⟩ }
          enabled := false
          doing := some [.readRegisterC, .eoi 8] }
      else s := by
  obtain ⟨kbd, rtc⟩ := free_requests s inv free
  have asked := acknowledge_idle s.board.pair inv.wired (free_idle s inv free)
  rw [kbd, rtc] at asked
  rw [System.step, if_pos ⟨enabled, free⟩, asked]
  by_cases full : s.full = true
  · rw [if_pos full, if_pos full]
    rfl
  · rw [if_neg full, if_neg full]
    by_cases clock : s.clock = true
    · rw [if_pos clock, if_pos clock]
      rfl
    · rw [if_neg clock, if_neg clock]

theorem accept_inv (s : System) (inv : Inv s) : Inv (s.step .accept) := by
  by_cases may : s.enabled = true ∧ s.doing = none
  · obtain ⟨kbd, rtc⟩ := free_requests s inv may.2
    obtain ⟨keyWired, keyServes, tickWired, tickServes⟩ := acknowledge_serves s.board.pair inv.wired (free_idle s inv may.2)
    rw [accept_cases s inv may.1 may.2]
    split
    · rename_i full
      refine { inv with
        wired := keyWired
        stage := ⟨.kbd, keyServes, .askedKbd⟩
        announced := ?_
        asked := fun _ => full
        ticked := rtc.trans (Bool.and_true _).symm
        clocked := fun asking => by cases asking }
      change Function.update s.board.pair.master.requests 1 false 1 = _
      rw [Function.update_self, full]
      rfl
    · split
      · rename_i empty clock
        refine { inv with
          wired := tickWired
          stage := ⟨.rtc, tickServes, .askedRtc⟩
          announced := ?_
          asked := fun asking => by cases asking
          ticked := ?_
          clocked := fun _ => clock }
        · change Function.update s.board.pair.master.requests 2 false 1 = _
          rw [Function.update_of_ne (by decide), kbd]
          exact (Bool.and_true _).symm
        · change Function.update s.board.pair.slave.requests 0 false 0 = _
          rw [Function.update_self, clock]
          rfl
      · exact inv
  · rw [System.step, if_neg may]
    exact inv

theorem keyboard_actions_end (data : UInt8) (kb : Keyboard.State) :
    ∃ rest, keyboardActions data kb = .eoi 1 :: rest ∧ Harmless rest := by
  have last (m : Keyboard.Modifiers) (print : UInt8) :
      ∃ rest, (if m.controlStatus = true ∧ (print = 108 ∨ print = 76) then [.eoi 1]
        else if m.altStatus = true then
          Action.eoi 1 ::
            if data = Keyboard.f1Scancode ∨ data = Keyboard.f2Scancode ∨ data = Keyboard.f3Scancode then [.leave] else []
        else [.eoi 1]) = .eoi 1 :: rest ∧ Harmless rest := by
    split
    · exact ⟨[], rfl, fun action member => by cases member⟩
    · split
      · refine ⟨_, rfl, fun action member => Or.inr ?_⟩
        split at member
        · exact List.mem_singleton.mp member
        · cases member
      · exact ⟨[], rfl, fun action member => by cases member⟩
  obtain ⟨rest, ending, harmless⟩ := last (latch data kb).modifiers ((latch data kb).modifiers.pointer.key data)
  rw [keyboardActions, ending, keyNoprintActions]
  have twice : Harmless (.eoi 1 :: rest) := List.forall_mem_cons.mpr ⟨Or.inl rfl, harmless⟩
  split
  · exact ⟨_, rfl, twice⟩
  · split
    · exact ⟨_, rfl, twice⟩
    · exact ⟨rest, rfl, harmless⟩

structure Asks (s : System) : Prop where
  kbd : s.asksKbd = false
  rtc : s.asksRtc = false

theorem harmless_asks (s : System) (rest : List Action) (harmless : Harmless rest) (doing : s.doing = some rest) :
    Asks s := by
  have foreign (action : Action) (others : List Action) (front : action ≠ .eoi 1 ∧ action ≠ .leave) :
    rest ≠ action :: others := by
    intro same
    rcases harmless action (same ▸ List.mem_cons_self) with ending | leaving
    · exact front.1 ending
    · exact front.2 leaving
  constructor
  · rw [System.asksKbd, doing]
    exact decide_eq_false fun same => foreign .readEncoder [] (by decide) (Option.some.inj same)
  · rw [System.asksRtc, doing]
    exact decide_eq_false fun same => foreign .readRegisterC [.eoi 8] (by decide) (Option.some.inj same)

theorem moved_inv (s : System) (inv : Inv s) (board : Board) (doing : Option (List Action)) (enabled : Bool) (before : Asks s)
    (after : Asks { s with board := board, doing := doing, enabled := enabled }) (service : Service)
    (ends : EndsWith service s.board.pair board.pair) (stage : Stage .idle doing enabled) :
    Inv { s with board := board, doing := doing, enabled := enabled } where
  wired := ends.wired
  stage := ⟨.idle, ends.serves, stage⟩
  announced := by
    rw [after.kbd]
    change board.pair.master.requests 1 = _
    rw [ends.key, inv.announced, before.kbd]
  asked := fun asking => by
    rw [after.kbd] at asking
    cases asking
  ticked := by
    rw [after.rtc]
    change board.pair.slave.requests 0 = _
    rw [ends.tick, inv.ticked, before.rtc]
  clocked := fun asking => by
    rw [after.rtc] at asking
    cases asking
  history := inv.history
  kb := inv.kb
  backlog := inv.backlog

theorem read_inv (s : System) (inv : Inv s) (serves : Serves .kbd s.board.pair) (disabled : s.enabled = false)
    (doing : s.doing = some [.readEncoder]) : Inv (s.perform [] .readEncoder) := by
  have asking : s.asksKbd = true := decide_eq_true doing
  have full := inv.asked asking
  obtain ⟨rest, ending, harmless⟩ := keyboard_actions_end s.encoder s.kb
  have rtc : s.asksRtc = false := by rw [System.asksRtc, doing]; rfl
  have waiting := inv.history
  rw [System.waiting, full] at waiting
  apply load_inv
  rw [ending]
  exact {
    wired := inv.wired
    stage := ⟨.kbd, serves, by
      change Stage .kbd (some (.eoi 1 :: rest ++ [])) s.enabled
      rw [List.append_nil, disabled]
      exact .endingKbd rest harmless⟩
    announced := by
      change s.board.pair.master.requests 1 = false
      rw [inv.announced, full, asking]
      rfl
    asked := fun again => by
      have other : decide (some (Action.eoi 1 :: rest ++ []) = some [.readEncoder]) = false :=
        decide_eq_false fun same => by cases same
      cases other.symm.trans again
    ticked := by
      have other : decide (some (Action.eoi 1 :: rest ++ []) = some [.readRegisterC, .eoi 8]) = false :=
        decide_eq_false fun same => by cases same
      change _ = (s.clock && !decide (some (Action.eoi 1 :: rest ++ []) = some [.readRegisterC, .eoi 8]))
      rw [other, ← rtc]
      exact inv.ticked
    clocked := fun again => by
      have other : decide (some (Action.eoi 1 :: rest ++ []) = some [.readRegisterC, .eoi 8]) = false :=
        decide_eq_false fun same => by cases same
      cases other.symm.trans again
    history := by
      change s.reads ++ [s.encoder] ++ s.typed = s.sent
      rw [List.append_assoc]
      exact waiting
    kb := by
      change keyboardHandler s.encoder s.kb = (s.reads ++ [s.encoder]).foldl _ _
      rw [List.foldl_append, ← inv.kb]
      rfl }

theorem register_inv (s : System) (inv : Inv s) (serves : Serves .rtc s.board.pair) (disabled : s.enabled = false)
    (doing : s.doing = some [.readRegisterC, .eoi 8]) : Inv (s.perform [.eoi 8] .readRegisterC) := by
  have asking : s.asksRtc = true := decide_eq_true doing
  have kbd : s.asksKbd = false := by rw [System.asksKbd, doing]; rfl
  exact {
    wired := inv.wired
    stage := ⟨.rtc, serves, by
      change Stage .rtc (some [.eoi 8]) s.enabled
      rw [disabled]
      exact .endingRtc⟩
    announced := by
      change s.board.pair.master.requests 1 = (s.full && true)
      rw [inv.announced, kbd]
      rfl
    asked := fun again => by cases again
    ticked := by
      change s.board.pair.slave.requests 0 = false
      rw [inv.ticked, asking]
      exact Bool.and_false _
    clocked := fun again => by cases again
    history := inv.history
    kb := inv.kb
    backlog := inv.backlog }

theorem work_inv (s : System) (inv : Inv s) : Inv (s.step .work) := by
  obtain ⟨service, serves, stage⟩ := inv.stage
  generalize doing : s.doing = list at stage
  generalize disabled : s.enabled = enabled at stage
  rw [System.step, doing]
  cases stage with
  | free => exact inv
  | askedKbd => exact read_inv s inv serves disabled doing
  | askedRtc => exact register_inv s inv serves disabled doing
  | endingKbd rest harmless =>
      have twice : Harmless (.eoi 1 :: rest) := List.forall_mem_cons.mpr ⟨Or.inl rfl, harmless⟩
      have ends := eoi_key .kbd s.board inv.wired serves (by simp)
      exact moved_inv s inv _ _ s.enabled (harmless_asks s _ twice doing) (harmless_asks _ rest harmless rfl) .kbd ends
        (disabled ▸ .ended rest harmless)
  | endingRtc =>
      have before : Asks s := ⟨by rw [System.asksKbd, doing]; rfl, by rw [System.asksRtc, doing]; rfl⟩
      have done : Harmless [] := fun action member => by cases member
      exact moved_inv s inv _ _ s.enabled before (harmless_asks _ [] done rfl) .rtc (eoi_tick s.board inv.wired serves)
        (disabled ▸ .ended [] done)
  | ended rest harmless =>
      have before := harmless_asks s rest harmless doing
      have same : EndsWith .idle s.board.pair s.board.pair := ⟨inv.wired, serves, rfl, rfl⟩
      cases rest with
      | nil => exact moved_inv s inv s.board none true before ⟨rfl, rfl⟩ .idle same (.free true)
      | cons action rest =>
          obtain ⟨first, others⟩ := List.forall_mem_cons.mp harmless
          rcases first with rfl | rfl
          · have ends := eoi_key .idle s.board inv.wired serves (by simp)
            exact moved_inv s inv _ _ s.enabled before (harmless_asks _ rest others rfl) .idle ends
              (disabled ▸ .ended rest others)
          · exact moved_inv s inv s.board none s.enabled before ⟨rfl, rfl⟩ .idle same (.free s.enabled)

theorem step_inv (s : System) (event : Event) (inv : Inv s) : Inv (s.step event) := by
  cases event with
  | key code => exact key_inv s code inv
  | tick => exact tick_inv s inv
  | other line => exact other_inv s line inv
  | flags enabled => exact flags_inv s enabled inv
  | accept => exact accept_inv s inv
  | work => exact work_inv s inv

theorem run_inv (s : System) (events : List Event) (inv : Inv s) : Inv (Run.final System.step s events) :=
  Run.invariant System.step Inv step_inv s events inv

end SimpleKernel.Interrupts
