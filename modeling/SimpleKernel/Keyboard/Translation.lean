import Mathlib.Data.Nat.Bits
import SimpleKernel.Keyboard.PhysicalKeys

set_option autoImplicit false

namespace SimpleKernel.Keyboard

structure Fingers where
  kb : State
  leftShift : Bool
  rightShift : Bool
  capsPresses : Nat

def Fingers.start : Fingers := ⟨initKeyboard, false, false, 0⟩

def holds (press release data : UInt8) (held : Bool) : Bool :=
  if data = press then true else if data = release then false else held

def Fingers.step (fingers : Fingers) (data : UInt8) : Fingers where
  kb := keyboardHandler data fingers.kb
  leftShift := holds leftShiftPress leftShiftRelease data fingers.leftShift
  rightShift := holds rightShiftPress rightShiftRelease data fingers.rightShift
  capsPresses := if data = capsPress then fingers.capsPresses + 1 else fingers.capsPresses

def tableFor : Bool → Bool → Table
  | false, false => .lower
  | false, true => .uppershift
  | true, false => .caps
  | true, true => .lowershift

def Fingers.capsOdd (fingers : Fingers) : Bool := fingers.capsPresses.bodd

def Fingers.shiftHeld (fingers : Fingers) : Bool := fingers.leftShift || fingers.rightShift

def Fingers.table (fingers : Fingers) : Table := tableFor fingers.capsOdd fingers.shiftHeld

def Ruled (fingers : Fingers) (data : UInt8) : Prop :=
  (fingers.step data).kb.modifiers.pointer = (fingers.step data).table ∧
    pressedChar data fingers.kb = (fingers.step data).table.key data

def Alternates (fingers : Fingers) (data : UInt8) : Prop :=
  (data = leftShiftPress → fingers.leftShift = false) ∧ (data = leftShiftRelease → fingers.leftShift = true) ∧
    (data = rightShiftPress → fingers.rightShift = false) ∧ (data = rightShiftRelease → fingers.rightShift = true)

instance (fingers : Fingers) (data : UInt8) : Decidable (Alternates fingers data) := inferInstanceAs (Decidable (_ ∧ _))

def OneAtATime (fingers : Fingers) (data : UInt8) : Prop :=
  (data = capsPress → fingers.shiftHeld = false) ∧ (data = leftShiftRelease → fingers.rightShift = false) ∧
    (data = rightShiftRelease → fingers.leftShift = false)

structure InStep (fingers : Fingers) : Prop where
  caps : fingers.kb.modifiers.capsEnable = fingers.capsOdd
  pointer : fingers.kb.modifiers.pointer = fingers.table

theorem control_alt_keep (data : UInt8) (m : Modifiers) :
    (altKey data (controlKey data m)).pointer = m.pointer ∧ (altKey data (controlKey data m)).capsEnable = m.capsEnable := by
  have control : (controlKey data m).pointer = m.pointer ∧ (controlKey data m).capsEnable = m.capsEnable := by
    unfold controlKey
    split
    · exact ⟨rfl, rfl⟩
    · split <;> exact ⟨rfl, rfl⟩
  rw [← control.1, ← control.2]
  unfold altKey
  split
  · exact ⟨rfl, rfl⟩
  · split <;> exact ⟨rfl, rfl⟩

theorem key_status_caps (data : UInt8) (m : Modifiers) :
    (keyStatus data m).capsEnable = if data = capsPress then !m.capsEnable else m.capsEnable := by
  have shift : ∀ other : Modifiers, (shiftStatus data other).capsEnable = other.capsEnable := by
    intro other
    unfold shiftStatus
    split
    · split <;> rfl
    · split
      · split <;> rfl
      · rfl
  rw [keyStatus, (control_alt_keep data _).2, shift, capsStatus]
  by_cases press : data = capsPress
  · rw [if_pos press, if_pos press]
    cases m.capsEnable <;> rfl
  · rw [if_neg press, if_neg press]

-- The Caps branch looks at no Shift, the release branch at no other Shift.
theorem key_status_pointer (data : UInt8) (m : Modifiers) :
    (keyStatus data m).pointer =
      if data = capsPress then tableFor (!m.capsEnable) false
      else if data = leftShiftPress ∨ data = rightShiftPress then tableFor m.capsEnable true
      else if data = leftShiftRelease ∨ data = rightShiftRelease then tableFor m.capsEnable false
      else m.pointer := by
  rw [keyStatus, (control_alt_keep data _).1, capsStatus]
  by_cases caps : data = capsPress
  · subst caps
    have noPress : ¬ (capsPress = leftShiftPress ∨ capsPress = rightShiftPress) := by decide
    have noRelease : ¬ (capsPress = leftShiftRelease ∨ capsPress = rightShiftRelease) := by decide
    simp only [if_true, shiftStatus, if_neg noPress, if_neg noRelease]
    cases m.capsEnable <;> rfl
  · rw [if_neg caps, if_neg caps, shiftStatus]
    by_cases press : data = leftShiftPress ∨ data = rightShiftPress
    · rw [if_pos press, if_pos press]
      cases m.capsEnable <;> rfl
    · rw [if_neg press, if_neg press]
      by_cases release : data = leftShiftRelease ∨ data = rightShiftRelease
      · rw [if_pos release, if_pos release]
        cases m.capsEnable <;> rfl
      · rw [if_neg release, if_neg release]

theorem caps_odd_step (fingers : Fingers) (data : UInt8) :
    (fingers.step data).capsOdd = if data = capsPress then !fingers.capsOdd else fingers.capsOdd := by
  simp only [Fingers.capsOdd, Fingers.step]
  by_cases press : data = capsPress
  · rw [if_pos press, if_pos press, Nat.bodd_succ]
  · rw [if_neg press, if_neg press]

theorem step_caps (fingers : Fingers) (data : UInt8) (inStep : InStep fingers) :
    (fingers.step data).kb.modifiers.capsEnable = (fingers.step data).capsOdd := by
  have modifiers : (fingers.step data).kb.modifiers = keyStatus data fingers.kb.modifiers :=
    handler_modifiers data fingers.kb
  rw [modifiers, key_status_caps, caps_odd_step, inStep.caps]

theorem table_for_shift (capsOdd shift : Bool) : tableFor capsOdd false = tableFor capsOdd shift ↔ shift = false := by
  cases capsOdd <;> cases shift <;> simp [tableFor]

theorem step_pointer (fingers : Fingers) (data : UInt8) (inStep : InStep fingers) :
    (fingers.step data).kb.modifiers.pointer = (fingers.step data).table ↔ OneAtATime fingers data := by
  have modifiers : (fingers.step data).kb.modifiers = keyStatus data fingers.kb.modifiers :=
    handler_modifiers data fingers.kb
  rw [modifiers, key_status_pointer, Fingers.table, caps_odd_step, inStep.caps, OneAtATime]
  by_cases caps : data = capsPress
  · subst caps
    have shift : (fingers.step capsPress).shiftHeld = fingers.shiftHeld := rfl
    have noRelease : capsPress ≠ leftShiftRelease ∧ capsPress ≠ rightShiftRelease := by decide
    simp only [if_true, shift, table_for_shift, noRelease, false_implies, and_true, forall_const]
  · simp only [caps, if_false, false_implies, true_and]
    by_cases left : data = leftShiftPress
    · subst left
      have shift : (fingers.step leftShiftPress).shiftHeld = true := rfl
      simp only [shift, true_or, if_true, true_iff]
      exact ⟨fun same => absurd same (by decide), fun same => absurd same (by decide)⟩
    · by_cases right : data = rightShiftPress
      · subst right
        have shift : (fingers.step rightShiftPress).shiftHeld = true := Bool.or_true _
        simp only [shift, or_true, if_true, true_iff]
        exact ⟨fun same => absurd same (by decide), fun same => absurd same (by decide)⟩
      · simp only [left, right, or_self, if_false]
        by_cases leftUp : data = leftShiftRelease
        · subst leftUp
          have shift : (fingers.step leftShiftRelease).shiftHeld = fingers.rightShift := rfl
          have noRight : leftShiftRelease ≠ rightShiftRelease := by decide
          simp only [shift, true_or, if_true, table_for_shift, forall_const, noRight, false_implies, and_true]
        · by_cases rightUp : data = rightShiftRelease
          · subst rightUp
            have shift : (fingers.step rightShiftRelease).shiftHeld = fingers.leftShift := Bool.or_false _
            simp only [shift, or_true, if_true, table_for_shift, forall_const, leftUp, false_implies, true_and]
          · have shift : (fingers.step data).shiftHeld = fingers.shiftHeld := by
              simp only [Fingers.shiftHeld, Fingers.step, holds, left, right, leftUp, rightUp, if_false]
            simp only [leftUp, rightUp, or_self, if_false, false_implies, and_self, iff_true, shift]
            exact inStep.pointer

theorem ruled_iff (fingers : Fingers) (data : UInt8) (inStep : InStep fingers) :
    Ruled fingers data ↔ OneAtATime fingers data := by
  rw [← step_pointer fingers data inStep]
  constructor
  · exact fun ruled => ruled.1
  · intro pointer
    have modifiers : (fingers.step data).kb.modifiers = pressedStatus data fingers.kb := handler_modifiers data fingers.kb
    refine ⟨pointer, ?_⟩
    rw [pressedChar, ← modifiers, pointer]

theorem start_in_step : InStep Fingers.start := ⟨rfl, rfl⟩

theorem second_shift_lost :
    Run.Guarded Fingers.step Alternates Fingers.start [leftShiftPress, rightShiftPress, leftShiftRelease, 0x1E] ∧
      ¬ Ruled (Run.final Fingers.step Fingers.start [leftShiftPress, rightShiftPress, leftShiftRelease]) 0x1E := by
  constructor
  · decide +kernel
  · intro ruled
    exact absurd ruled.1 (by decide +kernel)

theorem translation_exact (codes : List UInt8) :
    (∀ before data after, codes = before ++ data :: after →
        Ruled (Run.final Fingers.step Fingers.start before) data) ↔
      Run.Guarded Fingers.step OneAtATime Fingers.start codes := by
  rw [Run.each_iff_guarded Fingers.step Ruled]
  exact Run.guarded_congr Fingers.step Ruled OneAtATime InStep
    (fun fingers data inStep ruled => ⟨step_caps fingers data inStep, ruled.1⟩) ruled_iff Fingers.start codes start_in_step

end SimpleKernel.Keyboard
