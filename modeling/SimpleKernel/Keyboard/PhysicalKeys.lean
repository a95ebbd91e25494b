import SimpleKernel.Keyboard.Handler
import SimpleKernel.Library.Run

set_option autoImplicit false

namespace SimpleKernel.Keyboard

-- A key of scancode set 1: its make code, sent after an E0 byte by the
-- extended keys. No key has the code whose break code is the prefix itself.
structure PhysicalKey where
  extended : Bool
  code : UInt8
  valid : code.toNat < 0x80 ∧ code.toNat ≠ 0x60
deriving DecidableEq

def extendedPrefix : UInt8 := 0xE0

def leftAlt : PhysicalKey := ⟨false, 0x38, by decide⟩
def rightAlt : PhysicalKey := ⟨true, 0x38, by decide⟩
def leftControl : PhysicalKey := ⟨false, 0x1D, by decide⟩
def arrowUp : PhysicalKey := ⟨true, 0x48, by decide⟩

inductive KeyEvent where
  | press (key : PhysicalKey)
  | release (key : PhysicalKey)

def PhysicalKey.codes (key : PhysicalKey) (last : UInt8) : List UInt8 :=
  if key.extended then [extendedPrefix, last] else [last]

def KeyEvent.codes : KeyEvent → List UInt8
  | .press key => key.codes key.code
  | .release key => key.codes (key.code ||| 0x80)

-- `held` is what the fingers do, `kb` what the driver makes of the bytes.
structure Typist where
  kb : State
  held : PhysicalKey → Bool

def Typist.start (kb : State) : Typist := { kb := kb, held := fun _ => false }

def KeyEvent.hold : KeyEvent → (PhysicalKey → Bool) → PhysicalKey → Bool
  | .press key, held => Function.update held key true
  | .release key, held => Function.update held key false

def Typist.step (typist : Typist) (event : KeyEvent) : Typist where
  kb := event.codes.foldl (fun kb data => keyboardHandler data kb) typist.kb
  held := event.hold typist.held

def altHeld (held : PhysicalKey → Bool) : Bool := held leftAlt || held rightAlt

def Truthful (typist : Typist) : Prop :=
  typist.kb.modifiers.altStatus = altHeld typist.held ∧ typist.kb.modifiers.controlStatus = typist.held leftControl

def printable (print : UInt8) : Prop := print ≠ 0 ∧ print ≠ 8 ∧ print ≠ 10

def Line.Appended (print : UInt8) (line next : Line) : Prop :=
  next.keyboardBuf = Function.update line.keyboardBuf line.index.toNat print ∧ next.index = line.index + 1

def Appends (typist : Typist) : KeyEvent → Prop
  | .press key =>
      key.extended = false → printable (pressedChar key.code typist.kb) →
        altHeld ((KeyEvent.press key).hold typist.held) = false →
        (KeyEvent.press key).hold typist.held leftControl = false →
        0 ≤ (typist.kb.lines typist.kb.activeTerminal).index →
        (typist.kb.lines typist.kb.activeTerminal).index ≤ 127 →
          (typist.step (.press key)).kb.dispTermK = typist.kb.activeTerminal ∧
            (typist.kb.lines typist.kb.activeTerminal).Appended (pressedChar key.code typist.kb)
              (typist.step (.press key)).kb.displayed
  | .release _ => True

def Lawful (typist : Typist) (event : KeyEvent) : Prop := Truthful (typist.step event) ∧ Appends typist event

def Distinct (typist : Typist) : KeyEvent → Prop
  | .press key =>
      key.extended = true → key.code ≠ leftAltPress →
        altHeld typist.held = true ∧ (key.code = leftControlPress → typist.held leftControl = true)
  | .release key =>
      if key.extended = true then
        if key.code = leftAltPress then typist.held leftAlt = false
        else altHeld typist.held = true ∧ (key.code = leftControlPress → typist.held leftControl = false)
      else key.code = leftAltPress → typist.held rightAlt = false

instance (typist : Typist) : (event : KeyEvent) → Decidable (Distinct typist event)
  | .press _ => inferInstanceAs (Decidable (_ → _ → _))
  | .release _ => inferInstanceAs (Decidable (ite _ _ _))

theorem handler_modifiers (data : UInt8) (kb : State) :
    (keyboardHandler data kb).modifiers = keyStatus data kb.modifiers :=
  (keyboard_handler_handled data kb).modifiers

theorem caps_shift_keep (data : UInt8) (m : Modifiers) :
    (shiftStatus data (capsStatus data m)).controlStatus = m.controlStatus ∧
      (shiftStatus data (capsStatus data m)).altStatus = m.altStatus := by
  have caps : (capsStatus data m).controlStatus = m.controlStatus ∧ (capsStatus data m).altStatus = m.altStatus := by
    unfold capsStatus
    split
    · split <;> exact ⟨rfl, rfl⟩
    · exact ⟨rfl, rfl⟩
  rw [← caps.1, ← caps.2]
  unfold shiftStatus
  split
  · split <;> exact ⟨rfl, rfl⟩
  · split
    · split <;> exact ⟨rfl, rfl⟩
    · exact ⟨rfl, rfl⟩

theorem key_status_control (data : UInt8) (m : Modifiers) :
    (keyStatus data m).controlStatus =
      if data = leftControlPress then true else if data = leftControlRelease then false else m.controlStatus := by
  have alt : ∀ other : Modifiers, (altKey data other).controlStatus = other.controlStatus := by
    intro other
    unfold altKey
    split
    · rfl
    · split <;> rfl
  rw [keyStatus, alt, controlKey]
  by_cases press : data = leftControlPress
  · rw [if_pos press, if_pos press]
  · rw [if_neg press, if_neg press]
    by_cases release : data = leftControlRelease
    · rw [if_pos release, if_pos release]
    · rw [if_neg release, if_neg release]
      exact (caps_shift_keep data m).1

theorem key_status_alt (data : UInt8) (m : Modifiers) :
    (keyStatus data m).altStatus =
      if data = leftAltPress ∨ data = rightAltPress then true
      else if data = leftAltRelease ∨ data = rightAltRelease then false
      else m.altStatus := by
  have control : ∀ other : Modifiers, (controlKey data other).altStatus = other.altStatus := by
    intro other
    unfold controlKey
    split
    · rfl
    · split <;> rfl
  rw [keyStatus, altKey]
  by_cases press : data = leftAltPress ∨ data = rightAltPress
  · rw [if_pos press, if_pos press]
  · rw [if_neg press, if_neg press]
    by_cases release : data = leftAltRelease ∨ data = rightAltRelease
    · rw [if_pos release, if_pos release]
    · rw [if_neg release, if_neg release, control]
      exact (caps_shift_keep data m).2

theorem make_code (code : UInt8) (valid : code.toNat < 0x80 ∧ code.toNat ≠ 0x60) :
    code ≠ rightAltPress ∧ code ≠ leftAltRelease ∧ code ≠ leftControlRelease := by
  have high : ∀ other : UInt8, 0x80 ≤ other.toNat → code ≠ other := by
    intro other above same
    rw [← same] at above
    omega
  exact ⟨high _ (by decide), high _ (by decide), high _ (by decide)⟩

theorem break_code (code : UInt8) (valid : code.toNat < 0x80 ∧ code.toNat ≠ 0x60) :
    (code ||| 0x80 ≠ leftAltPress ∧ code ||| 0x80 ≠ rightAltPress ∧ code ||| 0x80 ≠ leftControlPress) ∧
      (code ||| 0x80 = leftAltRelease ↔ code = leftAltPress) ∧
      (code ||| 0x80 = leftControlRelease ↔ code = leftControlPress) := by
  have all : ∀ n : Fin 128, n.val ≠ 0x60 →
      (UInt8.ofNat n.val ||| 0x80 ≠ leftAltPress ∧ UInt8.ofNat n.val ||| 0x80 ≠ rightAltPress ∧
        UInt8.ofNat n.val ||| 0x80 ≠ leftControlPress) ∧
        (UInt8.ofNat n.val ||| 0x80 = leftAltRelease ↔ UInt8.ofNat n.val = leftAltPress) ∧
        (UInt8.ofNat n.val ||| 0x80 = leftControlRelease ↔ UInt8.ofNat n.val = leftControlPress) := by
    decide +kernel
  have here := all ⟨code.toNat, valid.1⟩ valid.2
  rwa [UInt8.ofNat_toNat] at here

theorem make_status (code : UInt8) (valid : code.toNat < 0x80 ∧ code.toNat ≠ 0x60) (m : Modifiers) :
    (keyStatus code m).altStatus = (decide (code = leftAltPress) || m.altStatus) ∧
      (keyStatus code m).controlStatus = (decide (code = leftControlPress) || m.controlStatus) := by
  obtain ⟨notRight, notAlt, notControl⟩ := make_code code valid
  have notRelease : code ≠ rightAltRelease := notRight
  rw [key_status_alt, key_status_control]
  simp only [notRight, notAlt, notControl, notRelease, or_false, if_false]
  constructor
  · by_cases alt : code = leftAltPress
    · rw [if_pos alt, decide_eq_true alt, Bool.true_or]
    · rw [if_neg alt, decide_eq_false alt, Bool.false_or]
  · by_cases control : code = leftControlPress
    · rw [if_pos control, decide_eq_true control, Bool.true_or]
    · rw [if_neg control, decide_eq_false control, Bool.false_or]

theorem break_status (code : UInt8) (valid : code.toNat < 0x80 ∧ code.toNat ≠ 0x60) (m : Modifiers) :
    (keyStatus (code ||| 0x80) m).altStatus = (!decide (code = leftAltPress) && m.altStatus) ∧
      (keyStatus (code ||| 0x80) m).controlStatus = (!decide (code = leftControlPress) && m.controlStatus) := by
  obtain ⟨⟨notAlt, notRight, notControl⟩, altUp, controlUp⟩ := break_code code valid
  have notRelease : code ||| 0x80 ≠ rightAltRelease := notRight
  rw [key_status_alt, key_status_control]
  simp only [notRight, notAlt, notControl, notRelease, or_false, if_false, altUp, controlUp]
  constructor
  · by_cases alt : code = leftAltPress
    · rw [if_pos alt, decide_eq_true alt, Bool.not_true, Bool.false_and]
    · rw [if_neg alt, decide_eq_false alt, Bool.not_false, Bool.true_and]
  · by_cases control : code = leftControlPress
    · rw [if_pos control, decide_eq_true control, Bool.not_true, Bool.false_and]
    · rw [if_neg control, decide_eq_false control, Bool.not_false, Bool.true_and]

theorem prefix_status (m : Modifiers) :
    (keyStatus extendedPrefix m).altStatus = true ∧ (keyStatus extendedPrefix m).controlStatus = m.controlStatus := by
  rw [key_status_alt, key_status_control]
  exact ⟨rfl, rfl⟩

theorem press_hold (key other : PhysicalKey) (held : PhysicalKey → Bool) :
    (KeyEvent.press key).hold held other = (decide (key = other) || held other) := by
  by_cases same : key = other
  · rw [same, decide_eq_true rfl, Bool.true_or]
    exact Function.update_self _ _ _
  · rw [decide_eq_false same, Bool.false_or]
    exact Function.update_of_ne (Ne.symm same) _ _

theorem release_hold (key other : PhysicalKey) (held : PhysicalKey → Bool) :
    (KeyEvent.release key).hold held other = (!decide (key = other) && held other) := by
  by_cases same : key = other
  · rw [same, decide_eq_true rfl, Bool.not_true, Bool.false_and]
    exact Function.update_self _ _ _
  · rw [decide_eq_false same, Bool.not_false, Bool.true_and]
    exact Function.update_of_ne (Ne.symm same) _ _

theorem key_is (key other : PhysicalKey) :
    decide (key = other) = decide (key.extended = other.extended ∧ key.code = other.code) := by
  obtain ⟨extended, code, valid⟩ := key
  obtain ⟨otherExtended, otherCode, otherValid⟩ := other
  exact decide_eq_decide.mpr (by rw [PhysicalKey.mk.injEq])

theorem modifier_keys (extended : Bool) (code : UInt8) (valid : code.toNat < 0x80 ∧ code.toNat ≠ 0x60) :
    decide ((⟨extended, code, valid⟩ : PhysicalKey) = leftAlt) = (!extended && decide (code = leftAltPress)) ∧
      decide ((⟨extended, code, valid⟩ : PhysicalKey) = rightAlt) = (extended && decide (code = leftAltPress)) ∧
      decide ((⟨extended, code, valid⟩ : PhysicalKey) = leftControl) = (!extended && decide (code = leftControlPress)) := by
  have alt : leftAlt.extended = false ∧ leftAlt.code = leftAltPress := ⟨rfl, rfl⟩
  have right : rightAlt.extended = true ∧ rightAlt.code = leftAltPress := ⟨rfl, rfl⟩
  have control : leftControl.extended = false ∧ leftControl.code = leftControlPress := ⟨rfl, rfl⟩
  rw [key_is, key_is, key_is, alt.1, alt.2, right.1, right.2, control.1, control.2]
  cases extended with
  | false => simp
  | true => simp

theorem press_plain (typist : Typist) (code : UInt8) (valid : code.toNat < 0x80 ∧ code.toNat ≠ 0x60)
    (truthful : Truthful typist) : Truthful (typist.step (.press ⟨false, code, valid⟩)) := by
  obtain ⟨alt, control⟩ := truthful
  obtain ⟨isLeft, isRight, isControl⟩ := modifier_keys false code valid
  obtain ⟨altAfter, controlAfter⟩ := make_status code valid typist.kb.modifiers
  have modifiers : (typist.step (.press ⟨false, code, valid⟩)).kb.modifiers = keyStatus code typist.kb.modifiers :=
    handler_modifiers code typist.kb
  rw [Truthful, modifiers, altAfter, controlAfter, alt, control, altHeld, altHeld, Typist.step]
  dsimp only
  rw [press_hold, press_hold, press_hold, isLeft, isRight, isControl]
  simp [Bool.or_assoc]

theorem release_plain (typist : Typist) (code : UInt8) (valid : code.toNat < 0x80 ∧ code.toNat ≠ 0x60)
    (truthful : Truthful typist) :
    Truthful (typist.step (.release ⟨false, code, valid⟩)) ↔ (code = leftAltPress → typist.held rightAlt = false) := by
  obtain ⟨alt, control⟩ := truthful
  obtain ⟨isLeft, isRight, isControl⟩ := modifier_keys false code valid
  obtain ⟨altAfter, controlAfter⟩ := break_status code valid typist.kb.modifiers
  have modifiers : (typist.step (.release ⟨false, code, valid⟩)).kb.modifiers =
      keyStatus (code ||| 0x80) typist.kb.modifiers := handler_modifiers (code ||| 0x80) typist.kb
  rw [Truthful, modifiers, altAfter, controlAfter, alt, control, altHeld, altHeld, Typist.step]
  dsimp only
  rw [release_hold, release_hold, release_hold, isLeft, isRight, isControl]
  by_cases isAlt : code = leftAltPress
  · simp [isAlt]
  · simp [isAlt]

theorem extended_modifiers (typist : Typist) (last : UInt8) :
    (([extendedPrefix, last].foldl (fun kb data => keyboardHandler data kb) typist.kb).modifiers) =
      keyStatus last (keyStatus extendedPrefix typist.kb.modifiers) := by
  rw [List.foldl_cons, List.foldl_cons, List.foldl_nil, handler_modifiers, handler_modifiers]

theorem press_extended (typist : Typist) (code : UInt8) (valid : code.toNat < 0x80 ∧ code.toNat ≠ 0x60)
    (truthful : Truthful typist) :
    Truthful (typist.step (.press ⟨true, code, valid⟩)) ↔
      (code ≠ leftAltPress →
        altHeld typist.held = true ∧ (code = leftControlPress → typist.held leftControl = true)) := by
  obtain ⟨_, control⟩ := truthful
  obtain ⟨isLeft, isRight, isControl⟩ := modifier_keys true code valid
  obtain ⟨altPrefix, controlPrefix⟩ := prefix_status typist.kb.modifiers
  obtain ⟨altAfter, controlAfter⟩ := make_status code valid (keyStatus extendedPrefix typist.kb.modifiers)
  have modifiers : (typist.step (.press ⟨true, code, valid⟩)).kb.modifiers =
      keyStatus code (keyStatus extendedPrefix typist.kb.modifiers) := extended_modifiers typist code
  rw [Truthful, modifiers, altAfter, controlAfter, altPrefix, controlPrefix, control, altHeld, altHeld, Typist.step]
  dsimp only
  rw [press_hold, press_hold, press_hold, isLeft, isRight, isControl]
  have apart : ¬ leftAltPress = leftControlPress := by decide
  generalize typist.held leftAlt = left, typist.held rightAlt = right, typist.held leftControl = ctrl
  by_cases isAlt : code = leftAltPress
  · simp [isAlt, apart]
  · by_cases isCtrl : code = leftControlPress
    · cases left <;> cases right <;> cases ctrl <;> simp [isCtrl, Ne.symm apart]
    · cases left <;> cases right <;> simp [isAlt, isCtrl]

theorem release_extended (typist : Typist) (code : UInt8) (valid : code.toNat < 0x80 ∧ code.toNat ≠ 0x60)
    (truthful : Truthful typist) :
    Truthful (typist.step (.release ⟨true, code, valid⟩)) ↔
      if code = leftAltPress then typist.held leftAlt = false
      else altHeld typist.held = true ∧ (code = leftControlPress → typist.held leftControl = false) := by
  obtain ⟨_, control⟩ := truthful
  obtain ⟨isLeft, isRight, isControl⟩ := modifier_keys true code valid
  obtain ⟨altPrefix, controlPrefix⟩ := prefix_status typist.kb.modifiers
  obtain ⟨altAfter, controlAfter⟩ := break_status code valid (keyStatus extendedPrefix typist.kb.modifiers)
  have modifiers : (typist.step (.release ⟨true, code, valid⟩)).kb.modifiers =
      keyStatus (code ||| 0x80) (keyStatus extendedPrefix typist.kb.modifiers) := extended_modifiers typist (code ||| 0x80)
  rw [Truthful, modifiers, altAfter, controlAfter, altPrefix, controlPrefix, control, altHeld, altHeld, Typist.step]
  dsimp only
  rw [release_hold, release_hold, release_hold, isLeft, isRight, isControl]
  have apart : ¬ leftAltPress = leftControlPress := by decide
  generalize typist.held leftAlt = left, typist.held rightAlt = right, typist.held leftControl = ctrl
  by_cases isAlt : code = leftAltPress
  · cases left <;> simp [isAlt, apart]
  · by_cases isCtrl : code = leftControlPress
    · cases left <;> cases right <;> cases ctrl <;> simp [isCtrl, Ne.symm apart]
    · cases left <;> cases right <;> simp [isAlt, isCtrl]

theorem step_truthful (typist : Typist) (event : KeyEvent) (truthful : Truthful typist) :
    Truthful (typist.step event) ↔ Distinct typist event := by
  cases event with
  | press key =>
      obtain ⟨extended, code, valid⟩ := key
      cases extended with
      | false => exact iff_of_true (press_plain typist code valid truthful) fun same => by cases same
      | true =>
          rw [press_extended typist code valid truthful]
          exact ⟨fun apart _ => apart, fun apart => apart rfl⟩
  | release key =>
      obtain ⟨extended, code, valid⟩ := key
      cases extended with
      | false => exact release_plain typist code valid truthful
      | true => exact release_extended typist code valid truthful

theorem insert_appended (line : Line) (print : UInt8) (low : 0 ≤ line.index) (high : line.index ≤ 127) :
    line.Appended print (line.clearEnter.append print) := by
  refine ⟨?_, rfl⟩
  have inside : 0 ≤ line.clearEnter.index ∧ line.clearEnter.index < 128 := ⟨low, Int.lt_of_le_of_lt high (by decide)⟩
  rw [Line.append, Line.write, if_pos inside]
  rfl

theorem printable_appended (typist : Typist) (event : KeyEvent) (truthful : Truthful (typist.step event)) :
    Appends typist event := by
  cases event with
  | release key => trivial
  | press key =>
      intro plain print noAlt noControl low high
      have codes : (KeyEvent.press key).codes = [key.code] := by rw [KeyEvent.codes, PhysicalKey.codes, plain]; rfl
      have next : (typist.step (.press key)).kb = keyboardHandler key.code typist.kb := by
        rw [Typist.step, codes]
        rfl
      have handled := keyboard_handler_handled key.code typist.kb
      have alt : (pressedStatus key.code typist.kb).altStatus = false := by
        rw [← handled.modifiers, ← next]
        exact truthful.1.trans noAlt
      have control : (pressedStatus key.code typist.kb).controlStatus = false := by
        rw [← handled.modifiers, ← next]
        exact truthful.2.trans noControl
      have action : keyAction key.code typist.kb = .insert (pressedChar key.code typist.kb) := by
        rw [keyAction, actionOf, if_neg print.2.1, if_neg print.2.2, if_neg]
        simp [alt, control, print.1]
      have shown := (handled.shown alt).1
      rw [next, State.displayed, shown, handled.active, action]
      exact ⟨rfl, insert_appended _ _ low high⟩

theorem step_types (typist : Typist) (event : KeyEvent) (truthful : Truthful typist) :
    Lawful typist event ↔ Distinct typist event := by
  rw [← step_truthful typist event truthful]
  exact ⟨fun lawful => lawful.1, fun next => ⟨next, printable_appended typist event next⟩⟩

theorem arrow_leaves_alt :
    ¬ Lawful (Typist.start initKeyboard) (.press arrowUp) ∧
      ((Run.final Typist.step (Typist.start initKeyboard)
        [.press arrowUp, .release arrowUp, .press ⟨false, 0x1E, by decide⟩]).kb.lines terminal1).index = 0 := by
  constructor
  · intro lawful
    exact absurd lawful.1.1 (by decide +kernel)
  · decide +kernel

theorem modifiers_exact (kb : State) (events : List KeyEvent)
    (released : kb.modifiers.altStatus = false ∧ kb.modifiers.controlStatus = false) :
    (∀ before event after, events = before ++ event :: after →
        Lawful (Run.final Typist.step (Typist.start kb) before) event) ↔
      Run.Guarded Typist.step Distinct (Typist.start kb) events := by
  rw [Run.each_iff_guarded Typist.step Lawful]
  exact Run.guarded_congr Typist.step Lawful Distinct Truthful (fun _ _ _ lawful => lawful.1) step_types
    (Typist.start kb) events released

def arrowUnderAlt : List KeyEvent :=
  [.press leftAlt, .press arrowUp, .release arrowUp, .release leftAlt, .press ⟨false, 0x1E, by decide⟩]

theorem modifiers_exact_letter :
    (∀ before event after, arrowUnderAlt = before ++ event :: after →
      Lawful (Run.final Typist.step (Typist.start initKeyboard) before) event) ∧
        ((Run.final Typist.step (Typist.start initKeyboard) arrowUnderAlt).kb.lines terminal1).keyboardBuf 0 = 97 :=
  ⟨(modifiers_exact initKeyboard arrowUnderAlt ⟨rfl, rfl⟩).mpr (by decide +kernel), by decide +kernel⟩

end SimpleKernel.Keyboard
