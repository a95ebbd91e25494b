import SimpleKernel.Keyboard.Terminals

set_option autoImplicit false

namespace SimpleKernel.Keyboard

def InRange (kb : State) : Prop :=
  (∀ place ∈ kb.stores, 0 ≤ place.2 ∧ place.2 ≤ 127) ∧ ∀ t, 0 ≤ (kb.lines t).index ∧ (kb.lines t).index ≤ 128

instance (kb : State) : Decidable (InRange kb) := inferInstanceAs (Decidable (_ ∧ _))

def Action.hasRoom : Action → Int → Bool
  | .keep, _ => true
  | .erase, index => decide (1 ≤ index)
  | .enter, index => decide (index ≤ 127)
  | .enterTwice, index => decide (index ≤ 126)
  | .insert _, index => decide (index ≤ 127)

def Roomy (sys : System) : Event → Prop
  | .key data => (keyAction data sys.kb).hasRoom (sys.kb.lines sys.kb.activeTerminal).index = true
  | _ => True

instance (sys : System) : (event : Event) → Decidable (Roomy sys event)
  | .key _ => inferInstanceAs (Decidable (_ = _))
  | .displaySwitch _ => inferInstanceAs (Decidable True)
  | .call _ _ => inferInstanceAs (Decidable True)
  | .run _ => inferInstanceAs (Decidable True)

def Action.move : Action → Int
  | .keep => 0
  | .erase => -1
  | .enter => 1
  | .enterTwice => 2
  | .insert _ => 1

theorem action_line_index (action : Action) (line : Line) : (action.line line).index = line.index + action.move := by
  cases action with
  | keep => exact (Int.add_zero _).symm
  | erase => rfl
  | enter => rfl
  | enterTwice => exact Int.add_assoc line.index 1 1
  | insert print => rfl

theorem action_room (action : Action) (index : Int) (low : 0 ≤ index) (high : index ≤ 128) :
    (∀ position ∈ action.places index, 0 ≤ position ∧ position ≤ 127) ∧
        0 ≤ index + action.move ∧ index + action.move ≤ 128 ↔
      action.hasRoom index = true := by
  cases action with
  | keep => simp [Action.places, Action.move, Action.hasRoom, low, high]
  | erase =>
      simp only [Action.places, Action.move, Action.hasRoom, List.forall_mem_singleton, decide_eq_true_eq]
      omega
  | enter =>
      simp only [Action.places, Action.move, Action.hasRoom, List.forall_mem_singleton, decide_eq_true_eq]
      omega
  | enterTwice =>
      simp only [Action.places, Action.move, Action.hasRoom, List.forall_mem_cons, List.not_mem_nil, false_implies,
        implies_true, and_true, decide_eq_true_eq]
      omega
  | insert print =>
      simp only [Action.places, Action.move, Action.hasRoom, List.forall_mem_singleton, decide_eq_true_eq]
      omega

theorem handled_in_range (data : UInt8) (kb next : State) (handled : Handled data kb next) (inRange : InRange kb) :
    InRange next ↔ (keyAction data kb).hasRoom (kb.lines kb.activeTerminal).index = true := by
  obtain ⟨stored, indexed⟩ := inRange
  have moved : (next.lines kb.activeTerminal).index =
      (kb.lines kb.activeTerminal).index + (keyAction data kb).move := by
    rw [handled.active, action_line_index]
    rfl
  have places : (∀ place ∈ next.stores, 0 ≤ place.2 ∧ place.2 ≤ 127) ↔
      ∀ position ∈ (keyAction data kb).places (kb.lines kb.activeTerminal).index, 0 ≤ position ∧ position ≤ 127 := by
    rw [handled.stores, List.forall_mem_append, List.forall_mem_map]
    exact and_iff_left stored
  have lines : (∀ t, 0 ≤ (next.lines t).index ∧ (next.lines t).index ≤ 128) ↔
      0 ≤ (next.lines kb.activeTerminal).index ∧ (next.lines kb.activeTerminal).index ≤ 128 := by
    refine ⟨fun all => all kb.activeTerminal, fun active t => ?_⟩
    by_cases here : t = kb.activeTerminal
    · rw [here]
      exact active
    · rw [handled.other t here]
      exact indexed t
  rw [InRange, places, lines, moved]
  exact action_room _ _ (indexed kb.activeTerminal).1 (indexed kb.activeTerminal).2

theorem read_in_range (r : Reading) (inRange : InRange r.kb) : InRange (readStep r).kb := by
  have keeps := read_step_keeps r
  constructor
  · rw [keeps.stores]
    exact inRange.1
  · intro t
    rcases keeps.index t with same | zero
    · rw [same]
      exact inRange.2 t
    · rw [zero]
      omega

theorem step_in_range (sys : System) (event : Event) (inRange : InRange sys.kb) :
    InRange (sys.step event).kb ↔ Roomy sys event := by
  cases event with
  | key data => exact handled_in_range data sys.kb _ (keyboard_handler_handled data sys.kb) inRange
  | displaySwitch termId => exact iff_of_true inRange trivial
  | call t num =>
      refine iff_of_true ?_ trivial
      have same : (sys.call t num).kb = sys.kb := by
        unfold System.call
        split <;> rfl
      rw [System.step, same]
      exact inRange
  | run t => exact iff_of_true (read_in_range (sys.reading t) inRange) trivial

theorem boot_in_range : InRange boot.kb :=
  ⟨fun _ member => absurd member List.not_mem_nil, fun _ => (by decide : (0 : Int) ≤ 0 ∧ (0 : Int) ≤ 128)⟩

def backspaceElsewhere : List Event := [.key 0x1E, .key 0x38, .key 0x3C, .key 0xB8, .key 0x0E]

theorem backspace_stores_below : ¬ InRange (Run.final System.step boot backspaceElsewhere).kb := by
  decide +kernel

theorem in_range_exact (events : List Event) :
    (∀ before after, events = before ++ after → InRange (Run.final System.step boot before).kb) ↔
      Run.Guarded System.step Roomy boot events := by
  have reached := Run.reached_iff_guarded System.step (fun sys => InRange sys.kb) boot events boot_in_range
  have roomy := Run.guarded_congr System.step (fun sys event => InRange (sys.step event).kb) Roomy
    (fun sys => InRange sys.kb) (fun _ _ _ next => next) step_in_range boot events boot_in_range
  exact reached.trans roomy

end SimpleKernel.Keyboard
