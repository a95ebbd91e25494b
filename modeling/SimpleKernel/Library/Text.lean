import Mathlib.Data.List.GetD
import Mathlib.Data.List.TakeWhile
import Mathlib.Data.List.Infix
import Mathlib.Logic.Function.Basic
import SimpleKernel.Library.Scan

set_option autoImplicit false

-- Texts that lie in a memory, and the lines that a separator cuts them into.
namespace Text

variable {Symbol Output : Type*}

def Holds (memory : Nat → Symbol) : Nat → List Symbol → Prop
  | _, [] => True
  | start, symbol :: rest => memory start = symbol ∧ Holds memory (start + 1) rest

theorem holds_append (memory : Nat → Symbol) (start : Nat) (first rest : List Symbol) :
    Holds memory start (first ++ rest) ↔ Holds memory start first ∧ Holds memory (start + first.length) rest := by
  induction first generalizing start with
  | nil => simp only [List.nil_append, Holds, true_and, List.length_nil, Nat.add_zero]
  | cons symbol tail ih =>
      have shift : start + 1 + tail.length = start + (symbol :: tail).length := by
        rw [List.length_cons]
        omega
      simp only [List.cons_append, Holds, ih (start + 1), shift, and_assoc]

theorem holds_congr (memory other : Nat → Symbol) (start : Nat) (text : List Symbol)
    (same : ∀ i, start ≤ i → i < start + text.length → other i = memory i) (holds : Holds memory start text) :
    Holds other start text := by
  induction text generalizing start with
  | nil => trivial
  | cons symbol rest ih =>
      rw [List.length_cons] at same
      refine ⟨(same start (Nat.le_refl start) (by omega)).trans holds.1, ih (start + 1) ?_ holds.2⟩
      intro i low high
      exact same i (by omega) (by omega)

theorem holds_update (memory : Nat → Symbol) (start : Nat) (text : List Symbol) (place : Nat) (value : Symbol)
    (apart : place < start ∨ start + text.length ≤ place) (holds : Holds memory start text) :
    Holds (Function.update memory place value) start text := by
  apply holds_congr memory _ start text _ holds
  intro i low high
  exact Function.update_of_ne (by omega) _ _

theorem holds_unique (memory : Nat → Symbol) (start : Nat) (first second : List Symbol)
    (length : first.length = second.length) (one : Holds memory start first) (two : Holds memory start second) :
    first = second := by
  induction first generalizing start second with
  | nil => exact (List.length_eq_zero_iff.mp length.symm).symm
  | cons symbol rest ih =>
      cases second with
      | nil => cases length
      | cons other tail =>
          rw [← one.1, ← two.1, ih (start + 1) tail (Nat.succ.inj length) one.2 two.2]

theorem holds_member (memory : Nat → Symbol) (start : Nat) (text : List Symbol) (holds : Holds memory start text) (k : Nat)
    (bound : k < text.length) : memory (start + k) ∈ text := by
  induction text generalizing start k with
  | nil => cases bound
  | cons symbol rest ih =>
      cases k with
      | zero => exact holds.1 ▸ List.mem_cons_self
      | succ k =>
          have later := ih (start + 1) holds.2 k (Nat.lt_of_succ_lt_succ bound)
          rw [Nat.add_right_comm] at later
          exact List.mem_cons_of_mem _ later

theorem holds_get (memory : Nat → Symbol) (start : Nat) (text : List Symbol) (holds : Holds memory start text) (k : Nat)
    (bound : k < text.length) (default : Symbol) : memory (start + k) = text.getD k default := by
  induction text generalizing start k with
  | nil => cases bound
  | cons symbol rest ih =>
      cases k with
      | zero => exact holds.1
      | succ k =>
          have later := ih (start + 1) holds.2 k (Nat.lt_of_succ_lt_succ bound)
          rwa [Nat.add_right_comm] at later

theorem holds_infix (memory : Nat → Symbol) (start : Nat) (text part : List Symbol) (holds : Holds memory start text) :
    (∃ place, start ≤ place ∧ place + part.length ≤ start + text.length ∧ Holds memory place part) ↔ part <:+: text := by
  constructor
  · rintro ⟨place, low, high, found⟩
    obtain ⟨front, middle, back, whole, before, length⟩ : ∃ front middle back, text = front ++ (middle ++ back) ∧
        front.length = place - start ∧ middle.length = part.length := by
      refine ⟨text.take (place - start), (text.drop (place - start)).take part.length,
        (text.drop (place - start)).drop part.length, ?_, ?_, ?_⟩
      · rw [List.take_append_drop, List.take_append_drop]
      · rw [List.length_take]
        omega
      · rw [List.length_take, List.length_drop]
        omega
    have skipped : start + front.length = place := by omega
    rw [whole, holds_append, holds_append, skipped] at holds
    have same := holds_unique memory place middle part length holds.2.1 found
    exact ⟨front, back, by rw [whole, same, List.append_assoc]⟩
  · rintro ⟨front, back, whole⟩
    rw [← whole, holds_append, holds_append] at holds
    refine ⟨start + front.length, Nat.le_add_right _ _, ?_, holds.1.2⟩
    rw [← whole, List.length_append, List.length_append]
    omega

theorem holds_shift (memory : Nat → Symbol) (start i : Nat) (text : List Symbol) :
    Holds (fun k => memory (start + k)) i text ↔ Holds memory (start + i) text := by
  induction text generalizing i with
  | nil => exact Iff.rfl
  | cons symbol rest ih =>
      rw [Holds, Holds, ih (i + 1)]
      rfl

theorem holds_range (memory : Nat → Symbol) (start : Nat) (text : List Symbol) (holds : Holds memory start text) :
    (List.range text.length).map (fun i => memory (start + i)) = text := by
  induction text generalizing start with
  | nil => rfl
  | cons symbol rest ih =>
      have later := ih (start + 1) holds.2
      rw [List.length_cons, List.range_succ_eq_map, List.map_cons, List.map_map, Nat.add_zero, holds.1]
      refine congrArg (symbol :: ·) (Eq.trans (List.map_congr_left fun i _ => ?_) later)
      exact congrArg memory (Nat.add_right_comm start i 1)

theorem holds_list (earlier text : List Symbol) (default : Symbol) :
    Holds (fun i => (earlier ++ text).getD i default) earlier.length text := by
  induction text generalizing earlier with
  | nil => trivial
  | cons symbol rest ih =>
      have later := ih (earlier ++ [symbol])
      rw [List.append_assoc, List.length_append] at later
      refine ⟨?_, later⟩
      change (earlier ++ symbol :: rest).getD earlier.length default = symbol
      rw [List.getD_append_right _ _ _ _ (Nat.le_refl _), Nat.sub_self]
      rfl

theorem holds_same_start (memory other : Nat → Symbol) (start place : Nat) (text : List Symbol) (nonempty : text ≠ [])
    (one : Holds memory start text) (two : Holds other place text) : memory start = other place := by
  cases text with
  | nil => exact absurd rfl nonempty
  | cons symbol rest => exact one.1.trans two.1.symm

theorem first_of_holds [DecidableEq Symbol] (memory : Nat → Symbol) (start : Nat) (line rest : List Symbol) (stop : Symbol)
    (left : Nat) (holds : Holds memory start (line ++ stop :: rest)) (clean : stop ∉ line) (fits : line.length ≤ left) :
    Scan.first (fun i => memory i = stop) left start = start + line.length := by
  obtain ⟨before, here⟩ := (holds_append memory start line (stop :: rest)).mp holds
  apply Scan.first_exact _ left start line.length _ here.1 fits
  intro k bound same
  exact clean (same ▸ holds_member memory start line before k bound)

theorem first_passes_line [DecidableEq Symbol] (memory : Nat → Symbol) (start : Nat) (line : List Symbol) (stop : Symbol)
    (holds : Holds memory start line) (clean : stop ∉ line) :
    Scan.first (fun i => memory i = stop) line.length start = start + line.length := by
  apply Scan.first_passes
  intro k bound same
  exact clean (same ▸ holds_member memory start line holds k bound)

section Lines

variable [BEq Symbol] [LawfulBEq Symbol] (sep : Symbol) (report : List Symbol → List Output)

def each (text : List Symbol) : List Output := (text.splitOn sep).flatMap report

def firstLine (text : List Symbol) : List Symbol := text.takeWhile (· != sep)
def lastLine (text : List Symbol) : List Symbol := (text.reverse.takeWhile (· != sep)).reverse

theorem each_break (first rest : List Symbol) :
    each sep report (first ++ sep :: rest) = each sep report first ++ each sep report rest := by
  rw [each, List.splitOn_append_cons_self, List.flatMap_append]
  rfl

theorem each_line (line : List Symbol) (clean : sep ∉ line) : each sep report line = report line := by
  rw [each, List.splitOn_eq_singleton clean, List.flatMap_singleton]

theorem first_line_clean (text : List Symbol) : sep ∉ firstLine sep text := by
  intro member
  have passed := List.mem_takeWhile_imp member
  rw [bne_self_eq_false] at passed
  cases passed

theorem first_line_split (text : List Symbol) :
    text = firstLine sep text ∨ ∃ rest, text = firstLine sep text ++ sep :: rest := by
  induction text with
  | nil => exact Or.inl rfl
  | cons symbol tail ih =>
      by_cases same : symbol = sep
      · refine Or.inr ⟨tail, ?_⟩
        rw [firstLine, List.takeWhile_cons_of_neg (by rw [same, bne_self_eq_false]; decide), same]
        rfl
      · have kept : firstLine sep (symbol :: tail) = symbol :: firstLine sep tail :=
          List.takeWhile_cons_of_pos (bne_iff_ne.mpr same)
        rw [kept]
        cases ih with
        | inl whole => exact Or.inl (congrArg (symbol :: ·) whole)
        | inr cut =>
            obtain ⟨rest, cut⟩ := cut
            exact Or.inr ⟨rest, congrArg (symbol :: ·) cut⟩

theorem by_lines {motive : List Symbol → Prop} (line : ∀ line, sep ∉ line → motive line)
    (cut : ∀ line rest, sep ∉ line → motive rest → motive (line ++ sep :: rest)) (text : List Symbol) : motive text := by
  induction same : text.length using Nat.strongRecOn generalizing text with
  | ind size ih =>
      have clean := first_line_clean sep text
      cases first_line_split sep text with
      | inl whole =>
          rw [whole]
          exact line _ clean
      | inr split =>
          obtain ⟨rest, split⟩ := split
          have shorter : rest.length < size := by
            rw [← same, split, List.length_append, List.length_cons]
            omega
          rw [split]
          exact cut _ rest clean (ih rest.length shorter rest rfl)

theorem last_line_clean (text : List Symbol) : sep ∉ lastLine sep text := by
  rw [lastLine, List.mem_reverse]
  exact first_line_clean sep text.reverse

theorem last_line_split (text : List Symbol) :
    text = lastLine sep text ∨ ∃ front, text = front ++ sep :: lastLine sep text := by
  cases first_line_split sep text.reverse with
  | inl whole => exact Or.inl (List.reverse_eq_iff.mp whole)
  | inr cut =>
      obtain ⟨rest, cut⟩ := cut
      refine Or.inr ⟨rest.reverse, ?_⟩
      have turned := List.reverse_eq_iff.mp cut
      rw [List.reverse_append, List.reverse_cons, List.append_assoc] at turned
      exact turned

theorem last_line_break (front : List Symbol) : lastLine sep (front ++ [sep]) = [] := by
  rw [lastLine, List.reverse_append, List.reverse_singleton, List.singleton_append,
    List.takeWhile_cons_of_neg (by rw [bne_self_eq_false]; decide), List.reverse_nil]

theorem ends_in_line (text : List Symbol) :
    ∃ line, sep ∉ line ∧ (text = line ∨ ∃ front, text = front ++ sep :: line) :=
  ⟨lastLine sep text, last_line_clean sep text, last_line_split sep text⟩

theorem each_from_last (text : List Symbol) :
    ∃ before, ∀ later, each sep report (text ++ later) = before ++ each sep report (lastLine sep text ++ later) := by
  cases last_line_split sep text with
  | inl whole => exact ⟨[], fun later => by rw [← whole, List.nil_append]⟩
  | inr cut =>
      obtain ⟨front, cut⟩ := cut
      refine ⟨each sep report front, fun later => ?_⟩
      calc each sep report (text ++ later)
          = each sep report (front ++ sep :: (lastLine sep text ++ later)) := by
            rw [← List.cons_append, ← List.append_assoc, ← cut]
        _ = each sep report front ++ each sep report (lastLine sep text ++ later) := each_break sep report front _

theorem each_to_first (text : List Symbol) :
    ∃ after, ∀ earlier, sep ∉ earlier →
      each sep report (earlier ++ text) = report (earlier ++ firstLine sep text) ++ after := by
  have clean (earlier : List Symbol) (none : sep ∉ earlier) : sep ∉ earlier ++ firstLine sep text := by
    rw [List.mem_append, not_or]
    exact ⟨none, first_line_clean sep text⟩
  cases first_line_split sep text with
  | inl whole =>
      refine ⟨[], fun earlier none => ?_⟩
      rw [← each_line sep report _ (clean earlier none), ← whole, List.append_nil]
  | inr cut =>
      obtain ⟨rest, cut⟩ := cut
      refine ⟨each sep report rest, fun earlier none => ?_⟩
      calc each sep report (earlier ++ text)
          = each sep report ((earlier ++ firstLine sep text) ++ sep :: rest) := by rw [List.append_assoc, ← cut]
        _ = each sep report (earlier ++ firstLine sep text) ++ each sep report rest := each_break sep report _ rest
        _ = report (earlier ++ firstLine sep text) ++ each sep report rest := by
            rw [each_line sep report _ (clean earlier none)]

theorem each_cut (before after : List Symbol) :
    each sep report before ++ each sep report after = each sep report (before ++ after) ↔
      report (lastLine sep before) ++ report (firstLine sep after) =
        report (lastLine sep before ++ firstLine sep after) := by
  obtain ⟨head, fromLast⟩ := each_from_last sep report before
  obtain ⟨tail, toFirst⟩ := each_to_first sep report after
  have last := last_line_clean sep before
  have left := fromLast []
  have right := toFirst [] List.not_mem_nil
  rw [List.append_nil, List.append_nil, each_line sep report _ last] at left
  rw [List.nil_append, List.nil_append] at right
  rw [left, right, fromLast after, toFirst _ last, ← List.append_assoc, List.append_assoc head,
    ← List.append_assoc head (report (lastLine sep before ++ firstLine sep after)) tail, List.append_cancel_right_eq,
    List.append_cancel_left_eq]

theorem split_clean (text : List Symbol) : ∀ line ∈ text.splitOn sep, sep ∉ line := by
  induction text using by_lines sep with
  | line whole clean =>
      rw [List.splitOn_eq_singleton clean]
      exact fun line member => List.mem_singleton.mp member ▸ clean
  | cut first rest clean ih =>
      rw [List.splitOn_append_cons_self_of_not_mem clean]
      intro line member
      cases List.mem_cons.mp member with
      | inl same => exact same ▸ clean
      | inr later => exact ih line later

theorem infix_line (run text : List Symbol) (part : run <:+: text) (clean : sep ∉ run) :
    ∃ line ∈ text.splitOn sep, run <:+: line := by
  obtain ⟨before, after, whole⟩ := part
  obtain ⟨head, fromLast⟩ := each_from_last sep (fun line => [line]) before
  obtain ⟨tail, toFirst⟩ := each_to_first sep (fun line => [line]) after
  have joined : sep ∉ lastLine sep before ++ run := by
    rw [List.mem_append, not_or]
    exact ⟨last_line_clean sep before, clean⟩
  have lines : text.splitOn sep = head ++ ([lastLine sep before ++ run ++ firstLine sep after] ++ tail) := by
    rw [← toFirst _ joined, List.append_assoc, ← fromLast, ← List.append_assoc, whole, each, List.flatMap_singleton']
  refine ⟨lastLine sep before ++ run ++ firstLine sep after, ?_, ⟨_, _, rfl⟩⟩
  rw [lines]
  exact List.mem_append_right _ (List.mem_append_left _ (List.mem_singleton.mpr rfl))

theorem line_infix (text line : List Symbol) (member : line ∈ text.splitOn sep) : line <:+: text := by
  induction text using by_lines sep with
  | line whole clean =>
      rw [List.splitOn_eq_singleton clean, List.mem_singleton] at member
      rw [member]
  | cut first rest clean ih =>
      rw [List.splitOn_append_cons_self_of_not_mem clean, List.mem_cons] at member
      cases member with
      | inl same => exact same ▸ (List.prefix_append first _).isInfix
      | inr later => exact (ih later).trans ⟨first ++ [sep], [], by rw [List.append_nil, List.append_assoc]; rfl⟩

end Lines

end Text
