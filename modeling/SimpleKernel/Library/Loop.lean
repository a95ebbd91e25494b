import Mathlib.Data.Nat.Basic

set_option autoImplicit false

-- Loops given by what one round does: it goes on with a state, or leaves the
-- loop with a result, or does not come to an end itself.
namespace Loop

variable {State Result : Type*}

def run (round : State → Option (State ⊕ Result)) : Nat → State → Option Result
  | 0, _ => none
  | fuel + 1, state =>
      (round state).bind fun outcome =>
        match outcome with
        | .inl next => run round fuel next
        | .inr result => some result

variable (round : State → Option (State ⊕ Result))

def Endless (state : State) : Prop := ∀ fuel, run round fuel state = none

theorem run_leaves (fuel : Nat) (state : State) (result : Result) (leaves : round state = some (.inr result)) :
    run round (fuel + 1) state = some result := by
  rw [run, leaves]
  rfl

theorem run_continues (fuel : Nat) (state next : State) (continues : round state = some (.inl next)) :
    run round (fuel + 1) state = run round fuel next := by
  rw [run, continues]
  rfl

theorem run_longer (fuel more : Nat) (state : State) (result : Result) (ended : run round fuel state = some result) :
    run round (fuel + more) state = some result := by
  induction fuel generalizing state with
  | zero => cases ended
  | succ fuel ih =>
      have longer : fuel + 1 + more = fuel + more + 1 := Nat.add_right_comm fuel 1 more
      rw [longer]
      cases outcome : round state with
      | none =>
          rw [run, outcome] at ended
          cases ended
      | some way =>
          cases way with
          | inl next =>
              rw [run_continues round _ state next outcome] at ended ⊢
              exact ih next ended
          | inr final =>
              rw [run_leaves round _ state final outcome] at ended ⊢
              exact ended

theorem endless (inv : State → Prop) (keeps : ∀ state, inv state → ∃ next, round state = some (.inl next) ∧ inv next)
    (state : State) (initial : inv state) : Endless round state := by
  intro fuel
  induction fuel generalizing state with
  | zero => rfl
  | succ fuel ih =>
      obtain ⟨next, continues, after⟩ := keeps state initial
      rw [run_continues round fuel state next continues]
      exact ih next after

theorem ends_with (inv : State → Prop) (variant : State → Nat) (wanted : Result → Prop)
    (each : ∀ state, inv state →
      (∃ next, round state = some (.inl next) ∧ inv next ∧ variant next < variant state) ∨
        ∃ result, round state = some (.inr result) ∧ wanted result)
    (state : State) (initial : inv state) : ∃ result, run round (variant state + 1) state = some result ∧ wanted result := by
  induction same : variant state using Nat.strongRecOn generalizing state with
  | ind size ih =>
      cases each state initial with
      | inl goes =>
          obtain ⟨next, continues, after, less⟩ := goes
          obtain ⟨result, ended, right⟩ := ih (variant next) (same ▸ less) next after rfl
          obtain ⟨more, enough⟩ : ∃ more, size = variant next + 1 + more := ⟨size - (variant next + 1), by omega⟩
          rw [run_continues round size state next continues, enough]
          exact ⟨result, run_longer round _ more next result ended, right⟩
      | inr stops =>
          obtain ⟨result, leaves, right⟩ := stops
          exact ⟨result, run_leaves round size state result leaves, right⟩

end Loop
