import SimpleKernel.Keyboard.Pending
import SimpleKernel.Keyboard.Range

set_option autoImplicit false

namespace SimpleKernel.Keyboard

def Phase.copying : Phase → Bool
  | .copy _ _ => true
  | .test _ _ => true
  | _ => false

-- While a read of the active terminal is copying, a Backspace must leave the
-- newline that ends the line.
def LeavesNewline (sys : System) (data : UInt8) : Prop :=
  keyAction data sys.kb = .erase → (sys.phases sys.kb.activeTerminal).copying = true →
    ∃ k : Nat, k < 128 ∧ (k : Int) + 1 < (sys.kb.lines sys.kb.activeTerminal).index ∧
      (sys.kb.lines sys.kb.activeTerminal).keyboardBuf k = 10

def Calm (sys : System) : Event → Prop
  | .key data => Roomy sys (.key data) ∧ LeavesNewline sys data
  | .run t => sys.phases t = .idle ∨ sys.kb.dispTermK = t
  | _ => True

instance (sys : System) (data : UInt8) : Decidable (LeavesNewline sys data) := inferInstanceAs (Decidable (_ → _ → _))

instance (sys : System) : (event : Event) → Decidable (Calm sys event)
  | .key _ => inferInstanceAs (Decidable (_ = _ ∧ _))
  | .displaySwitch _ => inferInstanceAs (Decidable True)
  | .call _ _ => inferInstanceAs (Decidable True)
  | .run _ => inferInstanceAs (Decidable (_ ∨ _))

def OnlyLineOf (t : Term) (sys next : System) : Prop := ∀ other, other ≠ t → next.kb.lines other = sys.kb.lines other

def TakesOwn (sys : System) : Prop :=
  ∃ k : Nat, (k : Int) = (sys.kb.lines sys.kb.activeTerminal).index - 1 ∧ k < 128 ∧
    ((sys.kb.lines sys.kb.activeTerminal).keyboardBuf k = 0 ∨
      (sys.kb.lines sys.kb.activeTerminal).keyboardBuf k ∈ sys.pressed sys.kb.activeTerminal)

def StepIsolated (sys : System) (event : Event) : Prop :=
  match event with
  | .run t => OnlyLineOf t sys (sys.step event)
  | .key data => OnlyLineOf sys.kb.activeTerminal sys (sys.step event) ∧ (keyAction data sys.kb = .erase → TakesOwn sys)
  | _ => (sys.step event).kb.lines = sys.kb.lines

def DeliversOwn (sys : System) : Prop := ∀ t, (sys.delivered t).Sublist (sys.pressed t)

def Promise (phase : Phase) (line : Line) (n : Nat) (future : List UInt8) : Prop :=
  match phase with
  | .copy _ i => Scanning line.keyboardBuf n i i future
  | .test _ i => Scanning line.keyboardBuf n i (i + 1) future
  | .memset _ | .clear _ _ _ | .resetIndex _ => True
  | .resetEnter _ => Held line.keyboardBuf n future
  | _ => Held line.keyboardBuf n future ∧ (line.enterRead = true → Scanning line.keyboardBuf n 0 0 future)

structure Kept (t : Term) (line : Line) (phase : Phase) (delivered pressed : List UInt8) (n : Nat) : Prop where
  index : line.index = n
  bound : n ≤ 128
  typed : ∀ k < n, line.keyboardBuf k = 0 ∨ line.keyboardBuf k ∈ pressed
  promise : ∃ past future, pressed = past ++ future ∧ delivered.Sublist past ∧ Promise phase line n future
  own : ∀ i term k, phase = .clear i term k → term = t

def Isolated (sys : System) : Prop :=
  ∀ t, ∃ n, Kept t (sys.kb.lines t) (sys.phases t) (sys.delivered t) (sys.pressed t) n

theorem promise_change (phase : Phase) (line next : Line) (n m : Nat) (future later : List UInt8)
    (held : Held line.keyboardBuf n future → Held next.keyboardBuf m later)
    (scan : phase.copying = true → ∀ i j, Scanning line.keyboardBuf n i j future → Scanning next.keyboardBuf m i j later)
    (entered : Held line.keyboardBuf n future → next.enterRead = true → Scanning next.keyboardBuf m 0 0 later)
    (promise : Promise phase line n future) : Promise phase next m later := by
  cases phase with
  | idle => exact ⟨held promise.1, entered promise.1⟩
  | enable num => exact ⟨held promise.1, entered promise.1⟩
  | wait num => exact ⟨held promise.1, entered promise.1⟩
  | copy num i => exact scan rfl i i promise
  | test num i => exact scan rfl i (i + 1) promise
  | memset i => trivial
  | clear i term k => trivial
  | resetIndex i => trivial
  | resetEnter i => exact held promise
  | resetEnable i => exact ⟨held promise.1, entered promise.1⟩

theorem append_buf (byte : UInt8) (line : Line) (n : Nat) (index : line.index = n) (room : n < 128) :
    (line.append byte).keyboardBuf = Function.update line.keyboardBuf n byte := by
  have inside : 0 ≤ line.index ∧ line.index < 128 := by omega
  have cell : line.index.toNat = n := by omega
  simp only [Line.append, Line.write, if_pos inside, cell]

theorem erase_buf (line : Line) (n : Nat) (index : line.index = (n + 1 : Nat)) (room : n < 128) :
    line.erase.keyboardBuf = Function.update line.keyboardBuf n 0 := by
  have inside : 0 ≤ line.index - 1 ∧ line.index - 1 < 128 := by omega
  have cell : (line.index - 1).toNat = n := by omega
  simp only [Line.erase, Line.write, if_pos inside, cell]

theorem typed_write (buf : Nat → UInt8) (n : Nat) (byte : UInt8) (pressed more : List UInt8)
    (typed : ∀ k < n, buf k = 0 ∨ buf k ∈ pressed) (own : byte ∈ more) :
    ∀ k < n + 1, Function.update buf n byte k = 0 ∨ Function.update buf n byte k ∈ pressed ++ more := by
  intro k below
  by_cases last : k = n
  · subst last
    rw [Function.update_self]
    exact Or.inr (List.mem_append_right _ own)
  · rw [update_below buf n byte k (by omega)]
    exact (typed k (by omega)).imp_right (List.mem_append_left _)

theorem typed_mono (buf : Nat → UInt8) (n m : Nat) (pressed more : List UInt8) (shorter : m ≤ n)
    (typed : ∀ k < n, buf k = 0 ∨ buf k ∈ pressed) : ∀ k < m, buf k = 0 ∨ buf k ∈ pressed ++ more := fun k below =>
  (typed k (by omega)).imp_right (List.mem_append_left _)

theorem kept_change (t : Term) (line next : Line) (phase : Phase) (delivered pressed extra : List UInt8) (n m : Nat)
    (kept : Kept t line phase delivered pressed n) (index : next.index = m) (bound : m ≤ 128)
    (typed : ∀ k < m, next.keyboardBuf k = 0 ∨ next.keyboardBuf k ∈ pressed ++ extra)
    (promise : ∀ future, Promise phase line n future → Promise phase next m (future ++ extra)) :
    Kept t next phase delivered (pressed ++ extra) m := by
  obtain ⟨past, future, split, got, promised⟩ := kept.promise
  exact {
    index := index
    bound := bound
    typed := typed
    promise := ⟨past, future ++ extra, by rw [split, List.append_assoc], got, promise future promised⟩
    own := kept.own }

theorem kept_keep (t : Term) (line : Line) (phase : Phase) (delivered pressed extra : List UInt8) (n : Nat)
    (kept : Kept t line phase delivered pressed n) : Kept t line.clearEnter phase delivered (pressed ++ extra) n := by
  refine kept_change t line _ phase delivered pressed extra n n kept kept.index kept.bound
    (typed_mono line.keyboardBuf n n pressed extra (Nat.le_refl n) kept.typed) fun future => ?_
  refine promise_change phase line line.clearEnter n n future (future ++ extra) (held_mono _ n future extra)
    (fun _ i j => scanning_mono _ n i j future extra) fun _ entered => ?_
  cases entered

theorem kept_erase (t : Term) (line : Line) (phase : Phase) (delivered pressed extra : List UInt8) (n : Nat)
    (kept : Kept t line phase delivered pressed (n + 1))
    (remains : phase.copying = true → ∃ k < n, line.keyboardBuf k = 10) :
    Kept t line.clearEnter.erase phase delivered (pressed ++ extra) n := by
  have bound := kept.bound
  have index : line.clearEnter.index = (n + 1 : Nat) := kept.index
  have buf : line.clearEnter.erase.keyboardBuf = Function.update line.keyboardBuf n 0 :=
    erase_buf line.clearEnter n index (by omega)
  refine kept_change t line _ phase delivered pressed extra (n + 1) n kept ?_ (by omega) ?_ fun future => ?_
  · change line.clearEnter.index - 1 = n
    omega
  · rw [buf]
    intro k below
    rw [update_below line.keyboardBuf n 0 k below]
    exact typed_mono line.keyboardBuf (n + 1) n pressed extra (Nat.le_succ n) kept.typed k below
  · refine promise_change phase line _ (n + 1) n future (future ++ extra) ?_ ?_ ?_
    · intro held
      rw [buf]
      exact held_mono _ n future extra (held_erase line.keyboardBuf n future held)
    · intro copying i j scanning
      rw [buf]
      exact scanning_mono _ n i j future extra (scanning_erase line.keyboardBuf n i j future scanning (remains copying))
    · intro _ entered
      simp [Line.erase, Line.clearEnter] at entered

theorem kept_insert (t : Term) (line : Line) (phase : Phase) (delivered pressed : List UInt8) (n : Nat) (byte : UInt8)
    (kept : Kept t line phase delivered pressed n) (room : n < 128) :
    Kept t (line.clearEnter.append byte) phase delivered (pressed ++ [byte]) (n + 1) := by
  have index : line.clearEnter.index = n := kept.index
  have buf : (line.clearEnter.append byte).keyboardBuf = Function.update line.keyboardBuf n byte :=
    append_buf byte line.clearEnter n index room
  refine kept_change t line _ phase delivered pressed [byte] n (n + 1) kept ?_ (by omega) ?_ fun future => ?_
  · change line.clearEnter.index + 1 = _
    omega
  · rw [buf]
    exact typed_write line.keyboardBuf n byte pressed [byte] kept.typed (List.mem_singleton_self byte)
  · refine promise_change phase line _ n (n + 1) future (future ++ [byte]) ?_ ?_ ?_
    · rw [buf]
      exact held_write line.keyboardBuf n future byte
    · intro _ i j scanning
      rw [buf]
      exact scanning_mono _ _ i j future [byte] (scanning_write line.keyboardBuf n i j future byte scanning)
    · intro _ entered
      simp [Line.append, Line.clearEnter] at entered

theorem kept_enter (t : Term) (line : Line) (phase : Phase) (delivered pressed : List UInt8) (n : Nat)
    (kept : Kept t line phase delivered pressed n) (room : n < 128) :
    Kept t line.clearEnter.enter phase delivered (pressed ++ [10]) (n + 1) := by
  have index : line.clearEnter.index = n := kept.index
  have buf : line.clearEnter.enter.keyboardBuf = Function.update line.keyboardBuf n 10 :=
    append_buf 10 line.clearEnter n index room
  refine kept_change t line _ phase delivered pressed [10] n (n + 1) kept ?_ (by omega) ?_ fun future => ?_
  · change line.clearEnter.index + 1 = _
    omega
  · rw [buf]
    exact typed_write line.keyboardBuf n 10 pressed [10] kept.typed (List.mem_singleton_self 10)
  · refine promise_change phase line _ n (n + 1) future (future ++ [10]) ?_ ?_ ?_
    · rw [buf]
      exact held_write line.keyboardBuf n future 10
    · intro _ i j scanning
      rw [buf]
      exact scanning_mono _ _ i j future [10] (scanning_write line.keyboardBuf n i j future 10 scanning)
    · intro held _
      rw [buf]
      exact held_newline line.keyboardBuf n future held

theorem kept_enter_twice (t : Term) (line : Line) (phase : Phase) (delivered pressed : List UInt8) (n : Nat)
    (kept : Kept t line phase delivered pressed n) (room : n + 1 < 128) :
    Kept t (line.clearEnter.enter.append 10) phase delivered (pressed ++ [10]) (n + 2) := by
  have index : line.clearEnter.index = n := kept.index
  have once : line.clearEnter.enter.keyboardBuf = Function.update line.keyboardBuf n 10 :=
    append_buf 10 line.clearEnter n index (by omega)
  have again : line.clearEnter.enter.index = (n + 1 : Nat) := by
    change line.clearEnter.index + 1 = _
    omega
  have buf : (line.clearEnter.enter.append 10).keyboardBuf =
      Function.update (Function.update line.keyboardBuf n 10) (n + 1) 10 := by
    rw [append_buf 10 line.clearEnter.enter (n + 1) again room, once]
  have ended : ∀ future, Held line.keyboardBuf n future →
      Scanning (line.clearEnter.enter.append 10).keyboardBuf (n + 2) 0 0 (future ++ [10]) := fun future held => by
    rw [buf]
    exact scanning_write _ (n + 1) 0 0 (future ++ [10]) 10 (held_newline line.keyboardBuf n future held)
  refine kept_change t line _ phase delivered pressed [10] n (n + 2) kept ?_ (by omega) ?_ fun future => ?_
  · change line.clearEnter.enter.index + 1 = _
    omega
  · have first := typed_write line.keyboardBuf n 10 pressed [10] kept.typed (List.mem_singleton_self 10)
    rw [buf]
    intro k below
    by_cases last : k = n + 1
    · subst last
      rw [Function.update_self]
      exact Or.inr (List.mem_append_right _ (List.mem_singleton_self 10))
    · rw [update_below _ (n + 1) 10 k (by omega)]
      exact first k (by omega)
  · refine promise_change phase line _ n (n + 2) future (future ++ [10]) ?_ ?_ ?_
    · exact fun held => Or.inl (ended future held)
    · intro _ i j scanning
      rw [buf]
      have one := scanning_write line.keyboardBuf n i j future 10 scanning
      exact scanning_mono _ _ i j future [10] (scanning_write _ (n + 1) i j future 10 one)
    · exact fun held _ => ended future held

def Action.stored : Action → Option UInt8
  | .keep => none
  | .erase => none
  | .enter => some 10
  | .enterTwice => some 10
  | .insert print => some print

theorem stored_pressed (m : Modifiers) (number : Int) (print char : UInt8)
    (stores : (actionOf m number print).stored = some char) : char = print ∧ print ≠ 0 := by
  unfold actionOf at stores
  by_cases backspace : print = 8
  · rw [if_pos backspace] at stores
    split at stores <;> cases stores
  · rw [if_neg backspace] at stores
    by_cases enter : print = 10
    · rw [if_pos enter] at stores
      have newline : char = 10 := by
        split at stores <;> exact (Option.some.inj stores).symm
      exact ⟨newline.trans enter.symm, by rw [enter]; decide⟩
    · rw [if_neg enter] at stores
      split at stores
      · cases stores
      · rename_i kept
        exact ⟨(Option.some.inj stores).symm, fun nul => kept (Or.inl nul)⟩

def typedKey (print : UInt8) : List UInt8 := if print = 0 then [] else [print]

theorem typed_key_stored (m : Modifiers) (number : Int) (print char : UInt8)
    (stores : (actionOf m number print).stored = some char) : typedKey print = [char] := by
  obtain ⟨same, nonzero⟩ := stored_pressed m number print char stores
  rw [typedKey, if_neg nonzero, same]

theorem kept_action (t : Term) (line : Line) (phase : Phase) (delivered pressed : List UInt8) (n : Nat) (m : Modifiers)
    (number : Int) (print : UInt8) (kept : Kept t line phase delivered pressed n)
    (room : (actionOf m number print).hasRoom line.index = true)
    (remains : actionOf m number print = .erase → phase.copying = true →
      ∃ k : Nat, k < 128 ∧ (k : Int) + 1 < line.index ∧ line.keyboardBuf k = 10) :
    ∃ next, Kept t ((actionOf m number print).line line.clearEnter) phase delivered (pressed ++ typedKey print) next := by
  have stored := typed_key_stored m number print
  have index := kept.index
  cases action : actionOf m number print with
  | keep => exact ⟨n, kept_keep t line phase delivered pressed (typedKey print) n kept⟩
  | erase =>
      rw [action] at room remains
      have positive : 1 ≤ line.index := by simpa [Action.hasRoom] using room
      cases n with
      | zero => omega
      | succ n =>
          refine ⟨n, kept_erase t line phase delivered pressed (typedKey print) n kept fun copying => ?_⟩
          obtain ⟨k, _, below, newline⟩ := remains rfl copying
          exact ⟨k, by omega, newline⟩
  | enter =>
      rw [action] at room stored
      have inside : line.index ≤ 127 := by simpa [Action.hasRoom] using room
      rw [stored 10 rfl]
      exact ⟨n + 1, kept_enter t line phase delivered pressed n kept (by omega)⟩
  | enterTwice =>
      rw [action] at room stored
      have inside : line.index ≤ 126 := by simpa [Action.hasRoom] using room
      rw [stored 10 rfl]
      exact ⟨n + 2, kept_enter_twice t line phase delivered pressed n kept (by omega)⟩
  | insert char =>
      rw [action] at room stored
      have inside : line.index ≤ 127 := by simpa [Action.hasRoom] using room
      rw [stored char rfl]
      exact ⟨n + 1, kept_insert t line phase delivered pressed n char kept (by omega)⟩

theorem key_pressed (sys : System) (data : UInt8) (t : Term) :
    (sys.key data).pressed t =
      if t = sys.kb.activeTerminal then sys.pressed t ++ typedKey (pressedChar data sys.kb) else sys.pressed t := by
  by_cases nul : pressedChar data sys.kb = 0
  · simp [System.key, nul, typedKey]
  · by_cases here : t = sys.kb.activeTerminal
    · subst here
      simp [System.key, nul, typedKey]
    · simp [System.key, nul, here]

theorem key_isolated (sys : System) (data : UInt8) (isolated : Isolated sys) (calm : Calm sys (.key data)) :
    Isolated (sys.key data) := by
  intro t
  have handled := keyboard_handler_handled data sys.kb
  obtain ⟨n, kept⟩ := isolated t
  rw [key_pressed]
  by_cases here : t = sys.kb.activeTerminal
  · subst here
    rw [if_pos rfl]
    change ∃ n, Kept _ ((keyboardHandler data sys.kb).lines sys.kb.activeTerminal) _ _ _ n
    rw [handled.active]
    exact kept_action _ _ _ _ _ n _ _ _ kept calm.1 calm.2
  · rw [if_neg here]
    change ∃ n, Kept t ((keyboardHandler data sys.kb).lines t) _ _ _ n
    rw [handled.other t here]
    exact ⟨n, kept⟩

theorem kept_move (t : Term) (line next : Line) (phase later : Phase) (delivered pressed : List UInt8) (n m : Nat)
    (kept : Kept t line phase delivered pressed n) (index : next.index = m) (shorter : m ≤ n)
    (cleared : ∀ k < m, next.keyboardBuf k = 0 ∨ next.keyboardBuf k = line.keyboardBuf k)
    (promise : ∀ future, Promise phase line n future → Promise later next m future)
    (own : ∀ i term k, later = .clear i term k → term = t) : Kept t next later delivered pressed m := by
  obtain ⟨past, future, split, got, promised⟩ := kept.promise
  have bound := kept.bound
  exact {
    index := index
    bound := by omega
    typed := fun k below => by
      rcases cleared k below with zero | same
      · exact Or.inl zero
      · rw [same]
        exact kept.typed k (by omega)
    promise := ⟨past, future, split, got, promise future promised⟩
    own := own }

theorem kept_copy (t : Term) (line : Line) (num : Int) (i : Nat) (delivered pressed : List UInt8) (n : Nat)
    (kept : Kept t line (.copy num i) delivered pressed n) :
    Kept t line (.test num i) (delivered ++ [line.keyboardBuf i]) pressed n := by
  obtain ⟨past, future, split, got, promised⟩ := kept.promise
  obtain ⟨taken, rest, parts, next, scanning⟩ := scanning_copy line.keyboardBuf n i past future delivered got promised
  exact {
    index := kept.index
    bound := kept.bound
    typed := kept.typed
    promise := ⟨past ++ taken, rest, by rw [split, parts, List.append_assoc], next, scanning⟩
    own := fun _ _ _ same => by cases same }

theorem kept_read (t : Term) (kb : State) (phase : Phase) (delivered pressed : List UInt8) (n : Nat) (ret : Option Int)
    (shown : kb.dispTermK = t) (kept : Kept t (kb.lines t) phase delivered pressed n) :
    ∃ m, Kept t ((readStep ⟨phase, kb, delivered, ret⟩).kb.lines t) (readStep ⟨phase, kb, delivered, ret⟩).phase
      (readStep ⟨phase, kb, delivered, ret⟩).stored pressed m := by
  subst shown
  have unchanged : ∀ k < n, kb.displayed.keyboardBuf k = 0 ∨ kb.displayed.keyboardBuf k = kb.displayed.keyboardBuf k :=
    fun _ _ => Or.inr rfl
  have stay (later : Phase) (promise : ∀ future, Promise phase kb.displayed n future → Promise later kb.displayed n future)
      (own : ∀ i term k, later = .clear i term k → term = kb.dispTermK) :
      ∃ m, Kept kb.dispTermK kb.displayed later delivered pressed m :=
    ⟨n, kept_move _ kb.displayed kb.displayed phase later delivered pressed n n kept kept.index (Nat.le_refl n) unchanged
      promise own⟩
  cases phase with
  | idle => exact ⟨n, kept⟩
  | enable num =>
      simp only [readStep, enableRead, on_displayed_self]
      exact ⟨n, kept_move _ kb.displayed _ _ _ delivered pressed n n kept kept.index (Nat.le_refl n) unchanged
        (fun _ promised => promised) fun _ _ _ same => by cases same⟩
  | wait num =>
      by_cases entered : kb.displayed.enterRead = true
      · simp only [readStep, if_pos entered]
        exact stay _ (fun _ promised => promised.2 entered) fun _ _ _ same => by cases same
      · simp only [readStep, if_neg entered]
        exact ⟨n, kept⟩
  | copy num i =>
      by_cases more : (i : Int) < num ∧ i < keyboardSize
      · simp only [readStep, if_pos more]
        exact ⟨n, kept_copy _ kb.displayed num i delivered pressed n kept⟩
      · simp only [readStep, if_neg more]
        exact stay _ (fun _ _ => trivial) fun _ _ _ same => by cases same
  | test num i =>
      by_cases newline : kb.displayed.keyboardBuf i = 10
      · simp only [readStep, if_pos newline]
        exact stay _ (fun _ _ => trivial) fun _ _ _ same => by cases same
      · simp only [readStep, if_neg newline]
        exact stay _ (fun future => scanning_next _ n i future newline) fun _ _ _ same => by cases same
  | memset i =>
      refine stay _ (fun _ _ => trivial) fun _ _ _ same => ?_
      cases same
      rfl
  | clear i term k =>
      have own := kept.own i term k rfl
      subst own
      by_cases more : k < 128
      · simp only [readStep, if_pos more, Function.update_self]
        refine ⟨n, kept_move _ kb.displayed _ _ _ delivered pressed n n kept kept.index (Nat.le_refl n) (fun cell _ => ?_)
          (fun _ _ => trivial) fun _ _ _ same => ?_⟩
        · by_cases here : cell = k
          · subst here
            exact Or.inl (Function.update_self _ _ _)
          · exact Or.inr (Function.update_of_ne here _ _)
        · cases same
          rfl
      · simp only [readStep, if_neg more]
        exact stay _ (fun _ _ => trivial) fun _ _ _ same => by cases same
  | resetIndex i =>
      simp only [readStep, on_displayed_self]
      exact ⟨0, kept_move _ kb.displayed _ _ _ delivered pressed n 0 kept rfl (Nat.zero_le n)
        (fun _ below => absurd below (Nat.not_lt_zero _)) (fun future _ => held_empty _ future)
        fun _ _ _ same => by cases same⟩
  | resetEnter i =>
      simp only [readStep, on_displayed_self]
      exact ⟨n, kept_move _ kb.displayed _ _ _ delivered pressed n n kept kept.index (Nat.le_refl n) unchanged
        (fun _ held => ⟨held, fun entered => by cases entered⟩) fun _ _ _ same => by cases same⟩
  | resetEnable i =>
      simp only [readStep, on_displayed_self]
      exact ⟨n, kept_move _ kb.displayed _ _ _ delivered pressed n n kept kept.index (Nat.le_refl n) unchanged
        (fun _ promised => promised) fun _ _ _ same => by cases same⟩

theorem read_only_line (t : Term) (kb : State) (phase : Phase) (delivered : List UInt8) (ret : Option Int)
    (shown : kb.dispTermK = t) (own : ∀ i term k, phase = .clear i term k → term = t) (other : Term) (different : other ≠ t) :
    (readStep ⟨phase, kb, delivered, ret⟩).kb.lines other = kb.lines other := by
  subst shown
  cases phase with
  | idle => rfl
  | enable num => exact on_displayed_other Line.enable kb other different
  | wait num =>
      simp only [readStep]
      split <;> rfl
  | copy num i =>
      simp only [readStep]
      split <;> rfl
  | test num i =>
      simp only [readStep]
      split <;> rfl
  | memset i => rfl
  | clear i term k =>
      have captured := own i term k rfl
      subst captured
      simp only [readStep]
      split
      · exact Function.update_of_ne different _ _
      · rfl
  | resetIndex i => exact on_displayed_other Line.zeroIndex kb other different
  | resetEnter i => exact on_displayed_other Line.clearEnter kb other different
  | resetEnable i => exact on_displayed_other Line.disable kb other different

theorem run_idle (sys : System) (t : Term) (idle : sys.phases t = .idle) : sys.run t = sys := by
  have still : readStep (sys.reading t) = sys.reading t := by rw [readStep, System.reading, idle]
  rw [System.run, still]
  simp [System.reading]

theorem run_isolated (sys : System) (t : Term) (isolated : Isolated sys) (shown : sys.kb.dispTermK = t) :
    Isolated (sys.run t) := by
  intro other
  obtain ⟨n, kept⟩ := isolated t
  by_cases here : other = t
  · subst here
    simp only [System.run, System.reading, Function.update_self]
    exact kept_read other sys.kb _ _ _ n none shown kept
  · obtain ⟨m, keptOther⟩ := isolated other
    have line := read_only_line t sys.kb _ (sys.delivered t) none shown kept.own other here
    simp only [System.run, System.reading, Function.update_of_ne here, line]
    exact ⟨m, keptOther⟩

theorem call_isolated (sys : System) (t : Term) (num : Int) (isolated : Isolated sys) : Isolated (sys.call t num) := by
  intro other
  obtain ⟨n, kept⟩ := isolated other
  by_cases idle : sys.phases t = .idle
  · by_cases here : other = t
    · subst here
      have promise := kept.promise
      rw [idle] at promise
      simp only [System.call, if_pos idle, Function.update_self]
      exact ⟨n, kept.index, kept.bound, kept.typed, promise, fun _ _ _ same => by cases same⟩
    · simp only [System.call, if_pos idle, Function.update_of_ne here]
      exact ⟨n, kept⟩
  · simp only [System.call, if_neg idle]
    exact ⟨n, kept⟩

theorem step_isolated (sys : System) (event : Event) (isolated : Isolated sys) (calm : Calm sys event) :
    Isolated (sys.step event) := by
  cases event with
  | key data => exact key_isolated sys data isolated calm
  | displaySwitch termId => exact isolated
  | call t num => exact call_isolated sys t num isolated
  | run t =>
      rcases calm with idle | shown
      · rw [System.step, run_idle sys t idle]
        exact isolated
      · exact run_isolated sys t isolated shown

theorem step_law (sys : System) (event : Event) (isolated : Isolated sys) (calm : Calm sys event) :
    StepIsolated sys event := by
  cases event with
  | key data =>
      refine ⟨(keyboard_handler_handled data sys.kb).other, fun erases => ?_⟩
      obtain ⟨n, kept⟩ := isolated sys.kb.activeTerminal
      have room := calm.1
      have index := kept.index
      have bound := kept.bound
      rw [Roomy, erases] at room
      have positive : 1 ≤ (sys.kb.lines sys.kb.activeTerminal).index := by simpa [Action.hasRoom] using room
      exact ⟨n - 1, by omega, by omega, kept.typed (n - 1) (by omega)⟩
  | displaySwitch termId => rfl
  | call t num =>
      simp only [StepIsolated, System.step, System.call]
      split <;> rfl
  | run t =>
      obtain ⟨n, kept⟩ := isolated t
      rcases calm with idle | shown
      · intro other _
        rw [System.step, run_idle sys t idle]
      · exact read_only_line t sys.kb _ (sys.delivered t) none shown kept.own

theorem boot_isolated : Isolated boot := fun _ =>
  ⟨0, rfl, Nat.zero_le 128, fun _ below => absurd below (Nat.not_lt_zero _),
    ⟨[], [], rfl, List.Sublist.slnil, held_empty _ [], fun entered => by cases entered⟩, fun _ _ _ same => by cases same⟩

theorem isolated_delivers (sys : System) (isolated : Isolated sys) : DeliversOwn sys := by
  intro t
  obtain ⟨n, kept⟩ := isolated t
  obtain ⟨past, future, split, got, _⟩ := kept.promise
  rw [split]
  exact got.trans (List.sublist_append_left past future)

def wrongReader : List Event :=
  [.key 0x38, .key 0x3C, .key 0x3B, .key 0xB8, .call terminal2 128, .run terminal2, .key 0x1E, .key 0x1C,
    .run terminal2, .run terminal2]

theorem keys_reach_other_terminal : ¬ DeliversOwn (Run.final System.step boot wrongReader) := by
  intro own
  have received : (Run.final System.step boot wrongReader).delivered 1 = [97] := by decide +kernel
  have typed : (Run.final System.step boot wrongReader).pressed 1 = [] := by decide +kernel
  have none := own 1
  rw [received, typed] at none
  cases none

theorem terminals_isolated (events : List Event) (calm : Run.Guarded System.step Calm boot events) :
    DeliversOwn (Run.final System.step boot events) ∧ Run.Guarded System.step StepIsolated boot events :=
  ⟨isolated_delivers _ (Run.guarded_invariant System.step Calm Isolated step_isolated boot events boot_isolated calm),
    Run.guarded_law System.step Calm StepIsolated Isolated step_isolated step_law boot events boot_isolated calm⟩

def ownReader : List Event :=
  [.call terminal1 128, .run terminal1, .key 0x1E, .key 0x1C] ++ List.replicate 5 (.run terminal1)

theorem terminals_isolated_own_reader :
    (Run.final System.step boot ownReader).delivered 0 = [97, 10] ∧ DeliversOwn (Run.final System.step boot ownReader) :=
  ⟨by decide +kernel, (terminals_isolated ownReader (by decide +kernel)).1⟩

end SimpleKernel.Keyboard
