import Mathlib.Data.List.TakeWhile

set_option autoImplicit false

-- The words of a text. Blanks and line breaks separate words, and a line break
-- that does not end a word ends the text.
namespace Words

variable {Symbol : Type*} (blank newline : Symbol)

structure Word (word : List Symbol) : Prop where
  nonempty : word ≠ []
  noBlank : blank ∉ word
  noBreak : newline ∉ word

inductive Cut : List Symbol → List (List Symbol) → Prop
  | done (n : Nat) : Cut (List.replicate n blank) []
  | stop (n : Nat) (rest : List Symbol) : Cut (List.replicate n blank ++ newline :: rest) []
  | last (n : Nat) (word : List Symbol) (clean : Word blank newline word) : Cut (List.replicate n blank ++ word) [word]
  | next (n : Nat) (word : List Symbol) (sep : Symbol) (rest : List Symbol) (words : List (List Symbol))
      (clean : Word blank newline word) (separates : sep = blank ∨ sep = newline) (later : Cut rest words) :
      Cut (List.replicate n blank ++ (word ++ sep :: rest)) (word :: words)

theorem cut_count (text : List Symbol) (words : List (List Symbol)) (cut : Cut blank newline text words) :
    2 * words.length ≤ text.length + 1 := by
  induction cut with
  | done n => exact Nat.zero_le _
  | stop n rest => exact Nat.zero_le _
  | last n word clean =>
      have positive := List.length_pos_iff.mpr clean.nonempty
      rw [List.length_append, List.length_singleton]
      omega
  | next n word sep rest words clean _ _ ih =>
      have positive := List.length_pos_iff.mpr clean.nonempty
      simp only [List.length_append, List.length_cons]
      omega

variable [DecidableEq Symbol]

theorem leading_blanks (text : List Symbol) :
    ∃ n rest, text = List.replicate n blank ++ rest ∧ rest.head? ≠ some blank := by
  induction text with
  | nil => exact ⟨0, [], rfl, Option.some_ne_none blank |>.symm⟩
  | cons symbol text ih =>
      by_cases same : symbol = blank
      · obtain ⟨n, rest, whole, other⟩ := ih
        exact ⟨n + 1, rest, by rw [whole, same]; rfl, other⟩
      · exact ⟨0, symbol :: text, rfl, fun head => same (Option.some.inj head)⟩

theorem leading_word (text : List Symbol) :
    ∃ word rest, text = word ++ rest ∧ blank ∉ word ∧ newline ∉ word ∧
      (rest = [] ∨ ∃ sep tail, rest = sep :: tail ∧ (sep = blank ∨ sep = newline)) := by
  induction text with
  | nil => exact ⟨[], [], rfl, List.not_mem_nil, List.not_mem_nil, Or.inl rfl⟩
  | cons symbol text ih =>
      by_cases separates : symbol = blank ∨ symbol = newline
      · exact ⟨[], symbol :: text, rfl, List.not_mem_nil, List.not_mem_nil, Or.inr ⟨symbol, text, rfl, separates⟩⟩
      · obtain ⟨word, rest, whole, noBlank, noBreak, ends⟩ := ih
        rw [not_or] at separates
        refine ⟨symbol :: word, rest, by rw [whole]; rfl, ?_, ?_, ends⟩
        · exact List.not_mem_cons_of_ne_of_not_mem (Ne.symm separates.1) noBlank
        · exact List.not_mem_cons_of_ne_of_not_mem (Ne.symm separates.2) noBreak

theorem cut_exists (text : List Symbol) : ∃ words, Cut blank newline text words := by
  induction same : text.length using Nat.strongRecOn generalizing text with
  | ind size ih =>
      obtain ⟨n, behind, whole, notBlank⟩ := leading_blanks blank text
      obtain ⟨word, rest, cut, noBlank, noBreak, ends⟩ := leading_word blank newline behind
      have length := congrArg List.length whole
      rw [List.length_append] at length
      rw [whole, cut]
      cases word with
      | nil =>
          cases ends with
          | inl none => exact ⟨[], by rw [none, List.nil_append, List.append_nil]; exact Cut.done n⟩
          | inr some =>
              obtain ⟨sep, tail, split, separates⟩ := some
              rw [List.nil_append] at cut
              have notHere : sep ≠ blank := by
                rintro rfl
                rw [cut, split] at notBlank
                exact notBlank rfl
              rw [split, List.nil_append, separates.resolve_left notHere]
              exact ⟨[], Cut.stop n tail⟩
      | cons symbol word =>
          have clean : Word blank newline (symbol :: word) := ⟨List.cons_ne_nil _ _, noBlank, noBreak⟩
          cases ends with
          | inl none => exact ⟨[symbol :: word], by rw [none, List.append_nil]; exact Cut.last n _ clean⟩
          | inr some =>
              obtain ⟨sep, tail, split, separates⟩ := some
              have shorter : tail.length < size := by
                rw [cut, split] at length
                simp only [List.length_append, List.length_cons] at length
                omega
              obtain ⟨words, later⟩ := ih tail.length shorter tail rfl
              exact ⟨(symbol :: word) :: words, by rw [split]; exact Cut.next n _ sep tail words clean separates later⟩

end Words
