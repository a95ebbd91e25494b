import Mathlib.Logic.Basic

set_option autoImplicit false

-- Runs of a deterministic system given by its step function. A state reached
-- by a run is the final state of one of its prefixes, so a statement about
-- `final` over every event list speaks about every reached state.
namespace Run

variable {State Event : Type*}

def final (step : State → Event → State) (start : State) (events : List Event) : State :=
  events.foldl step start

def Guarded (step : State → Event → State) (admits : State → Event → Prop) : State → List Event → Prop
  | _, [] => True
  | state, event :: rest => admits state event ∧ Guarded step admits (step state event) rest

instance decidableGuarded (step : State → Event → State) (admits : State → Event → Prop)
    [each : ∀ state event, Decidable (admits state event)] :
    (state : State) → (events : List Event) → Decidable (Guarded step admits state events)
  | _, [] => inferInstanceAs (Decidable True)
  | state, event :: rest =>
      have := decidableGuarded step admits (step state event) rest
      inferInstanceAs (Decidable (admits state event ∧ Guarded step admits (step state event) rest))

variable (step : State → Event → State)

@[simp] theorem final_nil (state : State) : final step state [] = state := rfl

@[simp] theorem final_cons (state : State) (event : Event) (rest : List Event) :
    final step state (event :: rest) = final step (step state event) rest := rfl

theorem final_append (state : State) (before after : List Event) :
    final step state (before ++ after) = final step (final step state before) after := by
  simp only [final, List.foldl_append]

theorem final_concat (state : State) (before : List Event) (event : Event) :
    final step state (before ++ [event]) = step (final step state before) event := by
  rw [final_append]
  rfl

theorem guarded_append (admits : State → Event → Prop) (state : State) (before after : List Event) :
    Guarded step admits state (before ++ after) ↔
      Guarded step admits state before ∧ Guarded step admits (final step state before) after := by
  induction before generalizing state with
  | nil => exact ⟨fun guarded => ⟨trivial, guarded⟩, fun both => both.2⟩
  | cons event rest ih =>
      simp only [List.cons_append, Guarded, final_cons, ih (step state event), and_assoc]

theorem guarded_and (admits other : State → Event → Prop) (state : State) (events : List Event)
    (first : Guarded step admits state events) (second : Guarded step other state events) :
    Guarded step (fun current event => admits current event ∧ other current event) state events := by
  induction events generalizing state with
  | nil => trivial
  | cons event rest ih =>
      exact ⟨⟨first.1, second.1⟩, ih (step state event) first.2 second.2⟩

theorem guarded_all (admitted : Event → Prop) (state : State) (events : List Event) (all : ∀ event ∈ events, admitted event) :
    Guarded step (fun _ event => admitted event) state events := by
  induction events generalizing state with
  | nil => trivial
  | cons event rest ih =>
      exact ⟨all event List.mem_cons_self, ih (step state event) fun later member =>
        all later (List.mem_cons_of_mem _ member)⟩

theorem guarded_invariant (admits : State → Event → Prop) (inv : State → Prop)
    (keeps : ∀ state event, inv state → admits state event → inv (step state event))
    (state : State) (events : List Event) (initial : inv state) (guarded : Guarded step admits state events) :
    inv (final step state events) := by
  induction events generalizing state with
  | nil => exact initial
  | cons event rest ih =>
      exact ih (step state event) (keeps state event initial guarded.1) guarded.2

theorem invariant (inv : State → Prop) (keeps : ∀ state event, inv state → inv (step state event))
    (state : State) (events : List Event) (initial : inv state) : inv (final step state events) := by
  induction events generalizing state with
  | nil => exact initial
  | cons event rest ih => exact ih (step state event) (keeps state event initial)

theorem guarded_simulation {Other : Type*} (other : Other → Event → Other) (admits : State → Event → Prop)
    (related : State → Other → Prop)
    (keeps : ∀ state abstract event, related state abstract → admits state event →
      related (step state event) (other abstract event))
    (state : State) (abstract : Other) (events : List Event) (initial : related state abstract)
    (guarded : Guarded step admits state events) : related (final step state events) (final other abstract events) := by
  induction events generalizing state abstract with
  | nil => exact initial
  | cons event rest ih =>
      exact ih (step state event) (other abstract event) (keeps state abstract event initial guarded.1) guarded.2

theorem guarded_law_ahead (admits law : State → Event → Prop) (inv : State → List Event → Prop)
    (keeps : ∀ state event rest, inv state (event :: rest) → admits state event → inv (step state event) rest)
    (lawful : ∀ state event rest, inv state (event :: rest) → admits state event → law state event)
    (state : State) (events : List Event) (initial : inv state events) (guarded : Guarded step admits state events) :
    Guarded step law state events := by
  induction events generalizing state with
  | nil => trivial
  | cons event rest ih =>
      exact ⟨lawful state event rest initial guarded.1,
        ih (step state event) (keeps state event rest initial guarded.1) guarded.2⟩

theorem guarded_law (admits law : State → Event → Prop) (inv : State → Prop)
    (keeps : ∀ state event, inv state → admits state event → inv (step state event))
    (lawful : ∀ state event, inv state → admits state event → law state event)
    (state : State) (events : List Event) (initial : inv state) (guarded : Guarded step admits state events) :
    Guarded step law state events :=
  guarded_law_ahead step admits law (fun current _ => inv current) (fun current event _ => keeps current event)
    (fun current event _ => lawful current event) state events initial guarded

theorem reached_iff_guarded (good : State → Prop) (state : State) (events : List Event) (initial : good state) :
    (∀ before after, events = before ++ after → good (final step state before)) ↔
      Guarded step (fun current event => good (step current event)) state events := by
  induction events generalizing state with
  | nil =>
      refine ⟨fun _ => trivial, fun _ before after split => ?_⟩
      have empty := (List.append_eq_nil_iff.mp split.symm).1
      subst empty
      exact initial
  | cons event rest ih =>
      constructor
      · intro reached
        have next : good (step state event) := reached [event] rest rfl
        refine ⟨next, (ih (step state event) next).mp fun before after split => ?_⟩
        exact reached (event :: before) after (by rw [split]; rfl)
      · rintro ⟨next, guarded⟩ before after split
        cases before with
        | nil => exact initial
        | cons first later =>
            obtain ⟨same, tail⟩ := List.cons.inj split
            subst same
            exact (ih (step state event) next).mpr guarded later after tail

-- Two guards that agree wherever the invariant holds admit the same runs,
-- because a run leaves the invariant only through a step that neither admits.
theorem guarded_congr_ahead (admits other : State → Event → Prop) (inv : State → List Event → Prop)
    (keeps : ∀ state event rest, inv state (event :: rest) → admits state event → inv (step state event) rest)
    (agree : ∀ state event rest, inv state (event :: rest) → (admits state event ↔ other state event))
    (state : State) (events : List Event) (initial : inv state events) :
    Guarded step admits state events ↔ Guarded step other state events := by
  constructor
  · exact guarded_law_ahead step admits other inv keeps
      (fun current event rest good => (agree current event rest good).mp) state events initial
  · exact guarded_law_ahead step other admits inv
      (fun current event rest good admitted => keeps current event rest good ((agree current event rest good).mpr admitted))
      (fun current event rest good => (agree current event rest good).mpr) state events initial

theorem guarded_congr (admits other : State → Event → Prop) (inv : State → Prop)
    (keeps : ∀ state event, inv state → admits state event → inv (step state event))
    (agree : ∀ state event, inv state → (admits state event ↔ other state event))
    (state : State) (events : List Event) (initial : inv state) :
    Guarded step admits state events ↔ Guarded step other state events :=
  guarded_congr_ahead step admits other (fun current _ => inv current) (fun current event _ => keeps current event)
    (fun current event _ => agree current event) state events initial

theorem each_iff_guarded (law : State → Event → Prop) (state : State) (events : List Event) :
    (∀ before event after, events = before ++ event :: after → law (final step state before) event) ↔
      Guarded step law state events := by
  induction events generalizing state with
  | nil =>
      refine ⟨fun _ => trivial, fun _ before event after split => ?_⟩
      cases before with
      | nil => cases split
      | cons first later => cases split
  | cons event rest ih =>
      constructor
      · intro each
        refine ⟨each [] event rest rfl, (ih (step state event)).mp fun before later after split => ?_⟩
        exact each (event :: before) later after (by rw [split]; rfl)
      · intro guarded before later after split
        cases before with
        | nil =>
            obtain ⟨same, _⟩ := List.cons.inj split
            subst same
            exact guarded.1
        | cons first tail =>
            obtain ⟨same, tailSplit⟩ := List.cons.inj split
            subst same
            exact (ih (step state event)).mpr guarded.2 tail later after tailSplit

end Run
