import SimpleKernel.Interrupts.Delivery

set_option autoImplicit false

namespace SimpleKernel.Interrupts

open Keyboard (keyboardHandler)

theorem load_sent (s : System) : s.load.sent = s.sent := by
  rw [System.load]
  split
  · rfl
  · split <;> rfl

theorem load_clock (s : System) : s.load.clock = s.clock := by
  rw [System.load]
  split
  · rfl
  · split <;> rfl

theorem load_doing (s : System) : s.load.doing = s.doing := by
  rw [System.load]
  split
  · rfl
  · split <;> rfl

theorem load_waiting (s : System) : s.load.waiting = s.waiting := by
  by_cases kept : s.full = true ∨ s.typed = []
  · rw [load_kept s kept]
  · obtain ⟨unread, typed⟩ := not_or.mp kept
    have empty : s.full = false := Bool.eq_false_iff.mpr unread
    obtain ⟨code, rest, queue⟩ := List.exists_cons_of_ne_nil typed
    rw [load_next s code rest empty queue, System.waiting, System.waiting, empty, queue]
    rfl

theorem step_sent (s : System) (event : Event) : (s.step event).sent = s.sent ++ event.code.toList := by
  cases event with
  | key code => exact load_sent _
  | tick =>
      rw [System.step]
      split <;> exact (List.append_nil _).symm
  | other line =>
      rw [System.step]
      split <;> exact (List.append_nil _).symm
  | flags enabled =>
      rw [System.step]
      split <;> exact (List.append_nil _).symm
  | accept =>
      rw [System.step]
      split
      · split <;> exact (List.append_nil _).symm
      · exact (List.append_nil _).symm
  | work =>
      rw [System.step]
      split
      · exact (List.append_nil _).symm
      · exact (List.append_nil _).symm
      · rename_i action rest _
        cases action with
        | readEncoder => exact (load_sent _).trans (List.append_nil _).symm
        | _ => exact (List.append_nil _).symm

theorem run_sent (s : System) (events : List Event) :
    (Run.final System.step s events).sent = s.sent ++ events.filterMap Event.code := by
  induction events generalizing s with
  | nil => exact (List.append_nil _).symm
  | cons event rest ih =>
      rw [Run.final_cons, ih, step_sent, List.append_assoc]
      cases event <;> rfl

structure Lessens (s t : System) : Prop where
  waiting : t.waiting.length ≤ s.waiting.length
  clock : s.clock = false → t.clock = false

theorem processor_lessens (s : System) (event : Event) (processor : event.ofProcessor = true) : Lessens s (s.step event) := by
  have same : Lessens s s := ⟨Nat.le_refl _, id⟩
  cases event with
  | flags enabled =>
      rw [System.step]
      split
      · exact ⟨Nat.le_refl _, id⟩
      · exact same
  | accept =>
      rw [System.step]
      split
      · split
        · exact same
        · exact ⟨Nat.le_refl _, id⟩
      · exact same
  | work =>
      rw [System.step]
      split
      · exact same
      · exact ⟨Nat.le_refl _, id⟩
      · rename_i action rest _
        cases action with
        | readEncoder =>
            refine ⟨?_, fun quiet => (load_clock _).trans quiet⟩
            rw [System.perform, load_waiting]
            change s.typed.length ≤ _
            rw [System.waiting, List.length_append]
            exact Nat.le_add_left _ _
        | readRegisterC => exact ⟨Nat.le_refl _, fun _ => rfl⟩
        | _ => exact ⟨Nat.le_refl _, id⟩
  | _ => cases processor

theorem run_lessens (s : System) (events : List Event) (processor : ∀ event ∈ events, event.ofProcessor = true) :
    Lessens s (Run.final System.step s events) := by
  induction events generalizing s with
  | nil => exact ⟨Nat.le_refl _, id⟩
  | cons event rest ih =>
      obtain ⟨first, others⟩ := List.forall_mem_cons.mp processor
      have now := processor_lessens s event first
      have later := ih (s.step event) others
      exact ⟨Nat.le_trans later.waiting now.waiting, fun quiet => later.clock (now.clock quiet)⟩

def Works (events : List Event) : Prop := ∀ event ∈ events, event.ofProcessor = true

theorem works_append (first second : List Event) (one : Works first) (two : Works second) : Works (first ++ second) := by
  intro event member
  exact (List.mem_append.mp member).elim (one event) (two event)

theorem harmless_finishes (rest : List Action) (harmless : Harmless rest) (s : System) (doing : s.doing = some rest) :
    ∃ events, Works events ∧ (Run.final System.step s events).doing = none := by
  have work : Works [.work] := List.forall_mem_singleton.mpr rfl
  induction rest generalizing s with
  | nil =>
      refine ⟨[.work], work, ?_⟩
      rw [Run.final_cons, Run.final_nil, System.step, doing]
  | cons action rest ih =>
      obtain ⟨first, others⟩ := List.forall_mem_cons.mp harmless
      have stepped : s.step .work = s.perform rest action := by rw [System.step, doing]
      rcases first with rfl | rfl
      · obtain ⟨events, works, ends⟩ := ih others (s.step .work) (by rw [stepped]; rfl)
        exact ⟨.work :: events, works_append [.work] events work works, ends⟩
      · refine ⟨[.work], work, ?_⟩
        rw [Run.final_cons, Run.final_nil, stepped]
        rfl

theorem finishes (s : System) (inv : Inv s) : ∃ events, Works events ∧ (Run.final System.step s events).doing = none := by
  have work : Works [.work] := List.forall_mem_singleton.mpr rfl
  obtain ⟨service, _, stage⟩ := inv.stage
  generalize doing : s.doing = list at stage
  generalize s.enabled = enabled at stage
  cases stage with
  | free => exact ⟨[], fun event member => (by cases member), doing⟩
  | askedKbd =>
      obtain ⟨rest, ending, harmless⟩ := keyboard_actions_end s.encoder s.kb
      have stepped : (s.step .work).doing = some (.eoi 1 :: rest) := by
        rw [System.step, doing]
        refine (load_doing _).trans ?_
        rw [ending, List.append_nil]
      obtain ⟨events, works, ends⟩ :=
        harmless_finishes _ (List.forall_mem_cons.mpr ⟨Or.inl rfl, harmless⟩) (s.step .work) stepped
      exact ⟨.work :: events, works_append [.work] events work works, ends⟩
  | askedRtc =>
      refine ⟨[.work, .work, .work], works_append _ _ work (works_append _ _ work work), ?_⟩
      have first : s.step .work = s.perform [.eoi 8] .readRegisterC := by rw [System.step, doing]
      rw [Run.final_cons, first]
      rfl
  | endingKbd rest harmless =>
      exact harmless_finishes _ (List.forall_mem_cons.mpr ⟨Or.inl rfl, harmless⟩) s doing
  | endingRtc =>
      refine ⟨[.work, .work], works_append _ _ work work, ?_⟩
      have first : s.step .work = s.perform [] (.eoi 8) := by rw [System.step, doing]
      rw [Run.final_cons, first]
      rfl
  | ended rest harmless => exact harmless_finishes rest harmless s doing

def serve : List Event := [.flags true, .accept, .work]

theorem serve_works : Works serve := by
  intro event member
  simp only [serve, List.mem_cons, List.not_mem_nil, or_false] at member
  rcases member with rfl | rfl | rfl <;> rfl

theorem opened (s : System) (free : s.doing = none) : s.step (.flags true) = { s with enabled := true } := by
  rw [System.step, if_pos free]

theorem serve_key (s : System) (inv : Inv s) (free : s.doing = none) (full : s.full = true) :
    (Run.final System.step s serve).waiting.length < s.waiting.length := by
  have taken := accept_cases _ (flags_inv s true inv) (by rw [opened s free]) (by rw [opened s free]; exact free)
  rw [opened s free] at taken
  rw [serve, Run.final_cons, Run.final_cons, Run.final_cons, Run.final_nil, opened s free, taken, if_pos full]
  change (System.load _).waiting.length < _
  rw [load_waiting]
  change s.typed.length < _
  rw [System.waiting, full, List.length_append]
  exact Nat.lt_add_of_pos_left (Nat.succ_pos 0)

theorem serve_tick (s : System) (inv : Inv s) (free : s.doing = none) (empty : s.full = false) (clock : s.clock = true) :
    (Run.final System.step s serve).clock = false := by
  have taken := accept_cases _ (flags_inv s true inv) (by rw [opened s free]) (by rw [opened s free]; exact free)
  rw [opened s free] at taken
  rw [serve, Run.final_cons, Run.final_cons, Run.final_cons, Run.final_nil, opened s free, taken,
    if_neg (by rw [empty]; decide), if_pos clock]
  rfl

theorem waiting_full (s : System) (inv : Inv s) (waits : s.waiting ≠ []) : s.full = true := by
  by_contra unread
  have empty : s.full = false := Bool.eq_false_iff.mpr unread
  apply waits
  rw [System.waiting, empty, inv.backlog empty]
  rfl

theorem drains_keys (count : Nat) (s : System) (inv : Inv s) (bound : s.waiting.length ≤ count) :
    ∃ events, Works events ∧ (Run.final System.step s events).waiting = [] ∧
      (Run.final System.step s events).doing = none := by
  induction count generalizing s with
  | zero =>
      obtain ⟨events, works, ends⟩ := finishes s inv
      have fewer := (run_lessens s events works).waiting
      exact ⟨events, works, List.length_eq_zero_iff.mp (by omega), ends⟩
  | succ count ih =>
      obtain ⟨events, works, ends⟩ := finishes s inv
      have fewer := (run_lessens s events works).waiting
      have later := run_inv s events inv
      by_cases empty : (Run.final System.step s events).waiting = []
      · exact ⟨events, works, empty, ends⟩
      · have served := serve_key _ later ends (waiting_full _ later empty)
        obtain ⟨more, moreWorks, drained, done⟩ := ih _ (run_inv _ serve later) (by omega)
        refine ⟨events ++ (serve ++ more), works_append _ _ works (works_append _ _ serve_works moreWorks), ?_, ?_⟩
        · rw [Run.final_append, Run.final_append]
          exact drained
        · rw [Run.final_append, Run.final_append]
          exact done

structure Drained (s : System) : Prop where
  waiting : s.waiting = []
  clock : s.clock = false
  doing : s.doing = none

theorem drains (s : System) (inv : Inv s) : ∃ events, Works events ∧ Drained (Run.final System.step s events) := by
  obtain ⟨events, works, empty, free⟩ := drains_keys _ s inv (Nat.le_refl _)
  have later := run_inv s events inv
  by_cases clock : (Run.final System.step s events).clock = true
  · have unread : (Run.final System.step s events).full = false := by
      by_contra full
      rw [System.waiting, if_pos (Bool.eq_true_of_not_eq_false full)] at empty
      cases empty
    have quiet := serve_tick _ later free unread clock
    have served := run_lessens (Run.final System.step s events) serve serve_works
    obtain ⟨more, moreWorks, done⟩ := finishes _ (run_inv _ serve later)
    have last := run_lessens (Run.final System.step (Run.final System.step s events) serve) more moreWorks
    refine ⟨events ++ (serve ++ more), works_append _ _ works (works_append _ _ serve_works moreWorks), ?_⟩
    rw [Run.final_append, Run.final_append]
    have fewer := Nat.le_trans last.waiting served.waiting
    rw [empty] at fewer
    exact ⟨List.length_eq_zero_iff.mp (Nat.le_zero.mp fewer), last.clock quiet, done⟩
  · exact ⟨events, works, empty, Bool.eq_false_iff.mpr clock, free⟩

-- From a boot with a quiet keyboard on, in every order of keys, ticks, other devices' requests and steps
-- of the processor: no scancode is lost, taken twice or out of order, the
-- processor is only ever sent to the handler of a device that waits, and it can
-- always serve all that do.
theorem interrupts_delivered (old : Unserved) (encoder : UInt8) (events : List Event) :
    let s := Run.final System.step (boot old encoder false) events
    s.reads ++ s.waiting = events.filterMap Event.code ∧
      s.kb = s.reads.foldl (fun kb code => keyboardHandler code kb) Keyboard.initKeyboard ∧
      (s.doing ≠ none → s.enabled = false) ∧
      (s.doing = none → s.board.pair.acknowledge.map Prod.fst =
        if s.full then some sigKbd else if s.clock then some sigRtc else none) ∧
      ∃ more, Works more ∧ Drained (Run.final System.step s more) ∧
        (Run.final System.step s more).reads = events.filterMap Event.code := by
  intro s
  have inv : Inv s := run_inv _ events (boot_inv old encoder)
  have sent : s.sent = events.filterMap Event.code := run_sent (boot old encoder false) events
  refine ⟨inv.history.trans sent, inv.kb, ?_, ?_, ?_⟩
  · intro busy
    obtain ⟨service, _, stage⟩ := inv.stage
    generalize s.doing = list at stage busy
    generalize s.enabled = enabled at stage
    cases stage with
    | free => exact absurd rfl busy
    | _ => rfl
  · intro free
    obtain ⟨kbd, rtc⟩ := free_requests s inv free
    rw [acknowledge_idle _ inv.wired (free_idle s inv free), kbd, rtc]
    split
    · rfl
    · split <;> rfl
  · obtain ⟨more, works, drained⟩ := drains s inv
    have history := (run_inv s more inv).history
    have codes : more.filterMap Event.code = [] := by
      rw [List.filterMap_eq_nil_iff]
      intro event member
      cases event with
      | key code => cases works _ member
      | _ => rfl
    rw [drained.waiting, List.append_nil, run_sent, codes, List.append_nil, sent] at history
    exact ⟨more, works, drained, history⟩

theorem interrupts_delivered_typed :
    ∃ more, Works more ∧
      let s := Run.final System.step (boot powerOnChips 0 false) [.flags true, .key 0x1E, .tick, .key 0x30]
      Drained (Run.final System.step s more) ∧ (Run.final System.step s more).reads = [0x1E, 0x30] :=
  (interrupts_delivered powerOnChips 0 [.flags true, .key 0x1E, .tick, .key 0x30]).2.2.2.2

inductive Deaf : Service → Option (List Action) → Prop
  | free : Deaf .idle none
  | asked : Deaf .rtc (some [.readRegisterC, .eoi 8])
  | ending : Deaf .rtc (some [.eoi 8])
  | ended : Deaf .idle (some [])

structure Silent (s : System) : Prop where
  wired : Wired s.board.pair
  stage : ∃ service, Serves service s.board.pair ∧ Deaf service s.doing
  full : s.full = true
  quiet : s.board.pair.master.requests 1 = false
  reads : s.reads = []
  kb : s.kb = Keyboard.initKeyboard

theorem boot_silent (old : Unserved) (encoder : UInt8) : Silent (boot old encoder true) where
  wired := ⟨(boot_masking old encoder true).master, (boot_masking old encoder true).slave⟩
  stage := ⟨.idle, ⟨old.master, old.slave⟩, .free⟩
  full := rfl
  quiet := rfl
  reads := rfl
  kb := rfl

theorem silent_free (s : System) (silent : Silent s) (free : s.doing = none) : Serves .idle s.board.pair := by
  obtain ⟨service, serves, deaf⟩ := silent.stage
  rw [free] at deaf
  cases deaf
  exact serves

theorem silent_accept (s : System) (silent : Silent s) : Silent (s.step .accept) := by
  by_cases may : s.enabled = true ∧ s.doing = none
  · have idle := silent_free s silent may.2
    obtain ⟨_, _, tickWired, tickServes⟩ := acknowledge_serves s.board.pair silent.wired idle
    have asked := acknowledge_idle s.board.pair silent.wired idle
    rw [if_neg (by rw [silent.quiet]; decide)] at asked
    rw [System.step, if_pos may, asked]
    by_cases tick : s.board.pair.slave.requests 0 = true
    · rw [if_pos tick]
      refine { silent with wired := tickWired, stage := ⟨.rtc, tickServes, .asked⟩, quiet := ?_ }
      change Function.update s.board.pair.master.requests 2 false 1 = _
      rw [Function.update_of_ne (by decide), silent.quiet]
    · rw [if_neg tick]
      exact silent
  · rw [System.step, if_neg may]
    exact silent

theorem silent_work (s : System) (silent : Silent s) : Silent (s.step .work) := by
  obtain ⟨service, serves, deaf⟩ := silent.stage
  generalize doing : s.doing = list at deaf
  rw [System.step, doing]
  cases deaf with
  | free => exact silent
  | asked => exact { silent with stage := ⟨.rtc, serves, .ending⟩ }
  | ending =>
      have ends := eoi_tick s.board silent.wired serves
      exact { silent with
        wired := ends.wired
        stage := ⟨.idle, ends.serves, .ended⟩
        quiet := (congrFun ends.key 1).trans silent.quiet }
  | ended => exact { silent with stage := ⟨.idle, serves, .free⟩ }

theorem silent_step (s : System) (event : Event) (silent : Silent s) : Silent (s.step event) := by
  obtain ⟨service, serves, deaf⟩ := silent.stage
  have requested (line : Nat) (other : line ≠ 1) (t : System) (same : Silent t) : Silent (t.request line) := by
    obtain ⟨service, serves, deaf⟩ := same.stage
    exact { same with
      wired := request_wired line t.board.pair same.wired
      stage := ⟨service, request_serves line service t.board.pair serves, deaf⟩
      quiet := (request_key line other t.board.pair).trans same.quiet }
  cases event with
  | key code =>
      have kept := load_kept { s with typed := s.typed ++ [code], sent := s.sent ++ [code] } (Or.inl silent.full)
      rw [System.step, kept]
      exact { silent with stage := ⟨service, serves, deaf⟩ }
  | tick =>
      rw [System.step]
      split
      · exact silent
      · exact requested 8 (by decide) { s with clock := true } { silent with stage := ⟨service, serves, deaf⟩ }
  | other line =>
      rw [System.step]
      split
      · exact silent
      · rename_i foreign
        exact requested line (fun key => foreign (Or.inl key)) s silent
  | flags enabled =>
      rw [System.step]
      split
      · exact { silent with stage := ⟨service, serves, deaf⟩ }
      · exact silent
  | accept => exact silent_accept s silent
  | work => exact silent_work s silent

-- Nothing reads the encoder before its interrupt is let through, so a byte that
-- has come before i8259_init forgets the edges keeps the keyboard silent for ever.
theorem unread_byte_silences (old : Unserved) (encoder : UInt8) (events : List Event) :
    let s := Run.final System.step (boot old encoder true) events
    s.reads = [] ∧ s.kb = Keyboard.initKeyboard ∧ s.board.pair.master.requests 1 = false := by
  intro s
  have silent : Silent s := Run.invariant System.step Silent silent_step _ events (boot_silent old encoder)
  exact ⟨silent.reads, silent.kb, silent.quiet⟩

theorem unread_byte_silences_typed :
    let s := Run.final System.step (boot powerOnChips 0x1E true) [.flags true, .key 0x30, .tick, .accept, .work, .work, .work]
    s.reads = [] ∧ s.waiting = [0x1E, 0x30] ∧ s.interruptRtc = true ∧ s.doing = none := by
  refine ⟨(unread_byte_silences powerOnChips 0x1E _).1, ?_⟩
  decide +kernel

end SimpleKernel.Interrupts
