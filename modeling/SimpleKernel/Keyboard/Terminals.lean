import SimpleKernel.Keyboard.Reader
import SimpleKernel.Library.Run

set_option autoImplicit false

namespace SimpleKernel.Keyboard

-- The keyboard with one reading process for each terminal. `delivered t` is
-- what the process of terminal t has received since boot; `pressed t` is a
-- history of the characters of the keys pressed while t was displayed.
structure System where
  kb : State
  phases : Term → Phase
  delivered : Term → List UInt8
  pressed : Term → List UInt8

inductive Event where
  | key (data : UInt8)
  | displaySwitch (termId : Term)
  | call (t : Term) (num : Int)
  | run (t : Term)
deriving DecidableEq, Repr

def boot : System where
  kb := initKeyboard
  phases := fun _ => .idle
  delivered := fun _ => []
  pressed := fun _ => []

def System.reading (sys : System) (t : Term) : Reading := ⟨sys.phases t, sys.kb, sys.delivered t, none⟩

def System.key (data : UInt8) (sys : System) : System :=
  { sys with
    kb := keyboardHandler data sys.kb
    pressed :=
      if pressedChar data sys.kb = 0 then sys.pressed
      else Function.update sys.pressed sys.kb.activeTerminal
        (sys.pressed sys.kb.activeTerminal ++ [pressedChar data sys.kb]) }

def System.run (t : Term) (sys : System) : System :=
  let read := readStep (sys.reading t)
  { sys with
    kb := read.kb
    phases := Function.update sys.phases t read.phase
    delivered := Function.update sys.delivered t read.stored }

def System.call (t : Term) (num : Int) (sys : System) : System :=
  if sys.phases t = .idle then { sys with phases := Function.update sys.phases t (.enable num) } else sys

def System.step (sys : System) : Event → System
  | .key data => sys.key data
  | .displaySwitch termId => { sys with kb := displaySwitch termId sys.kb }
  | .call t num => sys.call t num
  | .run t => sys.run t

structure ReadKeeps (r : Reading) : Prop where
  modifiers : (readStep r).kb.modifiers = r.kb.modifiers
  number : (readStep r).kb.numberPrintedLine = r.kb.numberPrintedLine
  dispTermK : (readStep r).kb.dispTermK = r.kb.dispTermK
  activeTerminal : (readStep r).kb.activeTerminal = r.kb.activeTerminal
  stores : (readStep r).kb.stores = r.kb.stores
  index : ∀ t, ((readStep r).kb.lines t).index = (r.kb.lines t).index ∨ ((readStep r).kb.lines t).index = 0

theorem on_displayed_index (change : Line → Line) (kb : State) (t : Term)
    (same : (change kb.displayed).index = kb.displayed.index ∨ (change kb.displayed).index = 0) :
    ((kb.onDisplayed change).lines t).index = (kb.lines t).index ∨ ((kb.onDisplayed change).lines t).index = 0 := by
  by_cases here : t = kb.dispTermK
  · subst here
    rw [on_displayed_self]
    exact same
  · exact Or.inl (by rw [on_displayed_other change kb t here])

theorem read_step_keeps (r : Reading) : ReadKeeps r := by
  obtain ⟨phase, kb, stored, ret⟩ := r
  cases phase with
  | idle => exact ⟨rfl, rfl, rfl, rfl, rfl, fun _ => Or.inl rfl⟩
  | enable num => exact ⟨rfl, rfl, rfl, rfl, rfl, fun t => on_displayed_index Line.enable kb t (Or.inl rfl)⟩
  | wait num =>
      by_cases entered : kb.displayed.enterRead = true
      · constructor <;> simp [readStep, entered]
      · constructor <;> simp [readStep, entered]
  | copy num i =>
      by_cases more : (i : Int) < num ∧ i < keyboardSize
      · constructor <;> simp [readStep, more]
      · constructor <;> simp [readStep, more]
  | test num i =>
      by_cases newline : kb.displayed.keyboardBuf i = 10
      · constructor <;> simp [readStep, newline]
      · constructor <;> simp [readStep, newline]
  | memset i => exact ⟨rfl, rfl, rfl, rfl, rfl, fun _ => Or.inl rfl⟩
  | clear i term k =>
      by_cases more : k < 128
      · refine ⟨?_, ?_, ?_, ?_, ?_, fun t => Or.inl ?_⟩ <;> simp only [readStep, if_pos more]
        by_cases here : t = term
        · subst here
          rw [Function.update_self]
          rfl
        · rw [Function.update_of_ne here]
      · constructor <;> simp [readStep, more]
  | resetIndex i => exact ⟨rfl, rfl, rfl, rfl, rfl, fun t => on_displayed_index Line.zeroIndex kb t (Or.inr rfl)⟩
  | resetEnter i => exact ⟨rfl, rfl, rfl, rfl, rfl, fun t => on_displayed_index Line.clearEnter kb t (Or.inl rfl)⟩
  | resetEnable i => exact ⟨rfl, rfl, rfl, rfl, rfl, fun t => on_displayed_index Line.disable kb t (Or.inl rfl)⟩

end SimpleKernel.Keyboard
