import Mathlib.Logic.Function.Basic
import Mathlib.Data.Fintype.Card

set_option autoImplicit false

-- Singly linked lists in a pool of nodes: `next` is the link of each node, and
-- a list is given by its first link.
namespace Chain

variable {Node : Type*}

def Segment (next : Node → Option Node) : Option Node → List Node → Option Node → Prop
  | start, [], stop => start = stop
  | start, node :: rest, stop => start = some node ∧ Segment next (next node) rest stop

def Linked (next : Node → Option Node) (start : Option Node) (nodes : List Node) : Prop := Segment next start nodes none

def Reaches (next : Node → Option Node) (start : Option Node) (node : Node) : Prop :=
  ∃ before, Segment next start before (some node)

variable (next : Node → Option Node)

theorem segment_append (start stop : Option Node) (before after : List Node) :
    Segment next start (before ++ after) stop ↔
      ∃ middle, Segment next start before middle ∧ Segment next middle after stop := by
  induction before generalizing start with
  | nil =>
      constructor
      · intro segment
        exact ⟨start, rfl, segment⟩
      · rintro ⟨middle, same, segment⟩
        exact same ▸ segment
  | cons node rest ih =>
      simp only [List.cons_append, Segment, ih (next node)]
      constructor
      · rintro ⟨here, middle, first, second⟩
        exact ⟨middle, ⟨here, first⟩, second⟩
      · rintro ⟨middle, ⟨here, first⟩, second⟩
        exact ⟨here, middle, first, second⟩

theorem segment_frame (other : Node → Option Node) (start stop : Option Node) (nodes : List Node)
    (same : ∀ node ∈ nodes, other node = next node) (segment : Segment next start nodes stop) :
    Segment other start nodes stop := by
  induction nodes generalizing start with
  | nil => exact segment
  | cons node rest ih =>
      refine ⟨segment.1, ?_⟩
      rw [same node List.mem_cons_self]
      exact ih (next node) (fun later member => same later (List.mem_cons_of_mem _ member)) segment.2

theorem segment_update (start stop link : Option Node) (nodes : List Node) (changed : Node) (apart : changed ∉ nodes)
    [DecidableEq Node] (segment : Segment next start nodes stop) :
    Segment (Function.update next changed link) start nodes stop := by
  apply segment_frame next _ start stop nodes _ segment
  intro node member
  apply Function.update_of_ne
  rintro rfl
  exact apart member

theorem linked_continues (start stop : Option Node) (before nodes : List Node) (first : Segment next start before stop)
    (linked : Linked next start nodes) : ∃ after, nodes = before ++ after ∧ Linked next stop after := by
  induction before generalizing start nodes with
  | nil => exact ⟨nodes, rfl, first ▸ linked⟩
  | cons node rest ih =>
      cases nodes with
      | nil =>
          have empty : start = none := linked
          rw [empty] at first
          cases first.1
      | cons head tail =>
          have same : node = head := Option.some.inj (first.1.symm.trans linked.1)
          obtain ⟨after, split, behind⟩ := ih (next node) tail first.2 (same ▸ linked.2)
          exact ⟨after, by rw [split, same]; rfl, behind⟩

theorem linked_unique (start : Option Node) (nodes others : List Node) (first : Linked next start nodes)
    (second : Linked next start others) : nodes = others := by
  obtain ⟨after, split, behind⟩ := linked_continues next start none nodes others first second
  cases after with
  | nil => rw [split, List.append_nil]
  | cons node rest => cases behind.1

theorem linked_nodup (start : Option Node) (nodes : List Node) (linked : Linked next start nodes) : nodes.Nodup := by
  induction nodes generalizing start with
  | nil => exact List.nodup_nil
  | cons node rest ih =>
      rw [List.nodup_cons]
      refine ⟨fun again => ?_, ih (next node) linked.2⟩
      obtain ⟨before, after, split⟩ := List.append_of_mem again
      have tail := linked.2
      rw [split] at tail
      obtain ⟨middle, _, returned⟩ := (segment_append next (next node) none before (node :: after)).mp tail
      have here : Linked next (some node) (node :: rest) := ⟨rfl, linked.2⟩
      have there : Linked next (some node) (node :: after) := ⟨rfl, returned.2⟩
      have same := linked_unique next (some node) _ _ here there
      rw [split] at same
      have sizes := congrArg List.length same
      simp only [List.length_cons, List.length_append] at sizes
      omega

theorem linked_length [Fintype Node] (start : Option Node) (nodes : List Node) (linked : Linked next start nodes) :
    nodes.length ≤ Fintype.card Node := (linked_nodup next start nodes linked).length_le_card

theorem linked_reaches (start : Option Node) (nodes : List Node) (linked : Linked next start nodes) (node : Node) :
    Reaches next start node ↔ node ∈ nodes := by
  constructor
  · rintro ⟨before, first⟩
    obtain ⟨after, split, behind⟩ := linked_continues next start (some node) before nodes first linked
    cases after with
    | nil => cases behind
    | cons head rest =>
        have same : node = head := Option.some.inj behind.1
        rw [split, same]
        exact List.mem_append_right _ List.mem_cons_self
  · intro member
    obtain ⟨before, after, split⟩ := List.append_of_mem member
    rw [split] at linked
    obtain ⟨middle, first, second⟩ := (segment_append next start none before (node :: after)).mp linked
    exact ⟨before, second.1 ▸ first⟩

variable [DecidableEq Node]

theorem linked_push (start : Option Node) (nodes : List Node) (node : Node) (fresh : node ∉ nodes)
    (linked : Linked next start nodes) : Linked (Function.update next node start) (some node) (node :: nodes) := by
  refine ⟨rfl, ?_⟩
  rw [Function.update_self]
  exact segment_update next start none start nodes node fresh linked

theorem push_again_endless (start : Option Node) (nodes : List Node) (node : Node) (member : node ∈ nodes)
    (linked : Linked next start nodes) (others : List Node) :
    ¬ Linked (Function.update next node start) (some node) others := by
  intro ended
  obtain ⟨before, after, split⟩ := List.append_of_mem member
  have distinct := linked_nodup next start nodes linked
  rw [split] at linked distinct
  obtain ⟨middle, first, second⟩ := (segment_append next start none before (node :: after)).mp linked
  have apart : node ∉ before := by
    intro earlier
    exact (List.nodup_append.mp distinct).2.2 node earlier node List.mem_cons_self rfl
  rw [second.1] at first
  have ring : Segment (Function.update next node start) (some node) (node :: before) (some node) := by
    refine ⟨rfl, ?_⟩
    rw [Function.update_self]
    exact segment_update next start (some node) start before node apart first
  obtain ⟨rest, whole, again⟩ := linked_continues _ (some node) (some node) (node :: before) others ring ended
  have same := linked_unique _ (some node) others rest ended again
  have sizes := congrArg List.length whole
  rw [same, List.length_append, List.length_cons] at sizes
  omega

theorem linked_unlink (start : Option Node) (before after : List Node) (previous node : Node)
    (linked : Linked next start (before ++ previous :: node :: after)) :
    Linked (Function.update next previous (next node)) start (before ++ previous :: after) := by
  have distinct := linked_nodup next start _ linked
  obtain ⟨middle, first, second⟩ := (segment_append next start none before _).mp linked
  obtain ⟨here, link, rest⟩ := second
  rw [List.nodup_append, List.nodup_cons] at distinct
  obtain ⟨_, ⟨notAfter, _⟩, apart⟩ := distinct
  have notBefore : previous ∉ before := fun earlier => apart previous earlier previous List.mem_cons_self rfl
  rw [Linked, segment_append]
  refine ⟨middle, segment_update next start middle _ before previous notBefore first, here, ?_⟩
  rw [Function.update_self]
  exact segment_update next (next node) none _ after previous (fun later => notAfter (List.mem_cons_of_mem _ later)) rest

end Chain
