import Mathlib.Logic.Relation
import SimpleKernel.Keyboard.Handler
import SimpleKernel.Strings

set_option autoImplicit false

namespace SimpleKernel.Keyboard

def Line.enable (line : Line) : Line := { line with bufferEnable := 1 }

def Line.disable (line : Line) : Line := { line with bufferEnable := 0 }

def Line.zeroIndex (line : Line) : Line := { line with index := 0 }

def Line.clearCell (k : Nat) (line : Line) : Line :=
  { line with keyboardBuf := Function.update line.keyboardBuf k 0 }

def copyLoop (keyboardBuf : Nat → UInt8) (num : Int) : Nat → Nat → List UInt8 × Nat
  | 0, i => ([], i)
  | left + 1, i =>
      if (i : Int) < num then
        if keyboardBuf i = 10 then ([keyboardBuf i], i)
        else
          let rest := copyLoop keyboardBuf num left (i + 1)
          (keyboardBuf i :: rest.1, rest.2)
      else ([], i)

def Line.reset (line : Line) : Line where
  keyboardBuf := fun k => if k < 128 then 0 else line.keyboardBuf k
  index := 0
  enterRead := false
  bufferEnable := 0

def enableRead (kb : State) : State := kb.onDisplayed Line.enable

def readLine (keyboardBuf : Nat → UInt8) (num : Int) : ReadResult :=
  let copied := copyLoop keyboardBuf num keyboardSize 0
  ⟨copied.1, (copied.2 : Int) + 1⟩

def finishRead (num : Int) (kb : State) : ReadResult × State :=
  (readLine kb.displayed.keyboardBuf num, kb.onDisplayed Line.reset)

-- read_terminal as an interrupt may cut it: one access of the shared keyboard
-- state a step. `i` is its loop counter; the terminal is read anew from
-- disp_term_k every time, except by memset, which takes its address once.
inductive Phase where
  | idle
  | enable (num : Int)
  | wait (num : Int)
  | copy (num : Int) (i : Nat)
  | test (num : Int) (i : Nat)
  | memset (i : Nat)
  | clear (i : Nat) (term : Term) (k : Nat)
  | resetIndex (i : Nat)
  | resetEnter (i : Nat)
  | resetEnable (i : Nat)
deriving DecidableEq, Repr

structure Reading where
  phase : Phase
  kb : State
  stored : List UInt8
  ret : Option Int

def readStep (r : Reading) : Reading :=
  match r.phase with
  | .idle => r
  | .enable num => { r with phase := .wait num, kb := enableRead r.kb }
  | .wait num => if r.kb.displayed.enterRead then { r with phase := .copy num 0 } else r
  | .copy num i =>
      if (i : Int) < num ∧ i < keyboardSize then
        { r with phase := .test num i, stored := r.stored ++ [r.kb.displayed.keyboardBuf i] }
      else { r with phase := .memset i }
  | .test num i =>
      if r.kb.displayed.keyboardBuf i = 10 then { r with phase := .memset i }
      else { r with phase := .copy num (i + 1) }
  | .memset i => { r with phase := .clear i r.kb.dispTermK 0 }
  | .clear i term k =>
      if k < 128 then
        { r with phase := .clear i term (k + 1),
                 kb := { r.kb with lines := Function.update r.kb.lines term ((r.kb.lines term).clearCell k) } }
      else { r with phase := .resetIndex i }
  | .resetIndex i => { r with phase := .resetEnter i, kb := r.kb.onDisplayed Line.zeroIndex }
  | .resetEnter i => { r with phase := .resetEnable i, kb := r.kb.onDisplayed Line.clearEnter }
  | .resetEnable i =>
      { r with phase := .idle, kb := r.kb.onDisplayed Line.disable,
               ret := some ((i : Int) + 1) }

def Steps : Reading → Reading → Prop := Relation.ReflTransGen fun r next => next = readStep r

theorem steps_head (r next last : Reading) (first : readStep r = next) (rest : Steps next last) : Steps r last :=
  Relation.ReflTransGen.head first.symm rest

theorem copy_steps (kb : State) (num : Int) (left i : Nat) (stored : List UInt8) (ret : Option Int)
    (count : left + i = keyboardSize) :
    Steps ⟨.copy num i, kb, stored, ret⟩
      ⟨.memset (copyLoop kb.displayed.keyboardBuf num left i).2, kb,
        stored ++ (copyLoop kb.displayed.keyboardBuf num left i).1, ret⟩ := by
  induction left generalizing i stored with
  | zero =>
      have ended : ¬ ((i : Int) < num ∧ i < keyboardSize) := fun more => by omega
      refine steps_head _ _ _ (by simp only [readStep, if_neg ended]; rfl) ?_
      simp only [copyLoop, List.append_nil]
      exact Relation.ReflTransGen.refl
  | succ left ih =>
      have within : i < keyboardSize := by omega
      by_cases more : (i : Int) < num
      · refine steps_head _ ⟨.test num i, kb, stored ++ [kb.displayed.keyboardBuf i], ret⟩ _
          (by simp only [readStep, if_pos (And.intro more within)]) ?_
        by_cases newline : kb.displayed.keyboardBuf i = 10
        · refine steps_head _ _ _ (by simp only [readStep, if_pos newline]; rfl) ?_
          simp only [copyLoop, if_pos more, if_pos newline]
          exact Relation.ReflTransGen.refl
        · refine steps_head _ _ _ (by simp only [readStep, if_neg newline]; rfl) ?_
          have rest := ih (i + 1) (stored ++ [kb.displayed.keyboardBuf i]) (by omega)
          simpa only [copyLoop, if_pos more, if_neg newline, List.append_assoc, List.singleton_append] using rest
      · have ended : ¬ ((i : Int) < num ∧ i < keyboardSize) := fun both => more both.1
        refine steps_head _ _ _ (by simp only [readStep, if_neg ended]; rfl) ?_
        simp only [copyLoop, if_neg more, List.append_nil]
        exact Relation.ReflTransGen.refl

def Line.clearFrom (k : Nat) (line : Line) : Line :=
  { line with keyboardBuf := fun m => if k ≤ m ∧ m < 128 then 0 else line.keyboardBuf m }

theorem clear_cell_from (k : Nat) (line : Line) (within : k < 128) :
    (line.clearCell k).clearFrom (k + 1) = line.clearFrom k := by
  simp only [Line.clearFrom, Line.clearCell, Line.mk.injEq, and_true]
  funext m
  by_cases here : m = k
  · simp [here, within]
  · rw [Function.update_of_ne here]
    have same : (k + 1 ≤ m ∧ m < 128) ↔ (k ≤ m ∧ m < 128) := by omega
    simp only [same]

theorem clear_steps (kb : State) (i : Nat) (left k : Nat) (stored : List UInt8) (ret : Option Int) (term : Term)
    (count : left + k = 128) :
    Steps ⟨.clear i term k, kb, stored, ret⟩
      ⟨.resetIndex i, { kb with lines := Function.update kb.lines term ((kb.lines term).clearFrom k) }, stored, ret⟩ := by
  induction left generalizing k kb with
  | zero =>
      have ended : ¬ k < 128 := by omega
      have untouched : (kb.lines term).clearFrom k = kb.lines term := by
        have outside : ∀ m, ¬ (k ≤ m ∧ m < 128) := fun m => by omega
        simp only [Line.clearFrom, if_neg (outside _)]
      rw [untouched, Function.update_eq_self]
      exact steps_head _ _ _ (by simp only [readStep, if_neg ended]) Relation.ReflTransGen.refl
  | succ left ih =>
      have within : k < 128 := by omega
      refine steps_head _ _ _ (by simp only [readStep, if_pos within]; rfl) ?_
      have rest := ih { kb with lines := Function.update kb.lines term ((kb.lines term).clearCell k) } (k + 1) (by omega)
      simpa only [Function.update_self, Function.update_idem, clear_cell_from k _ within] using rest

theorem read_terminal_completes (kb : State) (num : Int) (entered : kb.displayed.enterRead = true) :
    Steps ⟨.wait num, kb, [], none⟩
      ⟨.idle, (finishRead num kb).2, (finishRead num kb).1.stored, some (finishRead num kb).1.ret⟩ := by
  have reset : (({ kb with lines := Function.update kb.lines kb.dispTermK (kb.displayed.clearFrom 0) }.onDisplayed
      Line.zeroIndex).onDisplayed Line.clearEnter).onDisplayed Line.disable = kb.onDisplayed Line.reset := by
    simp [State.onDisplayed, State.displayed, Line.clearFrom, Line.zeroIndex, Line.clearEnter, Line.disable, Line.reset]
  refine steps_head _ ⟨.copy num 0, kb, [], none⟩ _ (by simp only [readStep, if_pos entered]) ?_
  refine Relation.ReflTransGen.trans (copy_steps kb num keyboardSize 0 [] none rfl) ?_
  refine steps_head _ _ _ rfl ?_
  refine Relation.ReflTransGen.trans (clear_steps kb _ 128 0 _ none kb.dispTermK rfl) ?_
  refine steps_head _ _ _ rfl ?_
  refine steps_head _ _ _ rfl ?_
  refine steps_head _ _ _ rfl ?_
  rw [finishRead, readLine, ← reset]
  exact Relation.ReflTransGen.refl

end SimpleKernel.Keyboard
