import Mathlib.Data.List.Basic
import Mathlib.Logic.Function.Basic

set_option autoImplicit false

namespace SimpleKernel.Keyboard

def cells (buf : Nat → UInt8) (i j : Nat) : List UInt8 := (List.range' i (j - i)).map buf

def FirstNewline (buf : Nat → UInt8) (n f : Nat) : Prop := f < n ∧ buf f = 10 ∧ ∀ k < f, buf k ≠ 10

-- The first newline below n is at or after i, and what is left of the line
-- from j on can still be delivered from the keys of `future`.
def Scanning (buf : Nat → UInt8) (n i j : Nat) (future : List UInt8) : Prop :=
  ∃ f, FirstNewline buf n f ∧ i ≤ f ∧ (cells buf j (f + 1)).Sublist future

def Held (buf : Nat → UInt8) (n : Nat) (future : List UInt8) : Prop :=
  Scanning buf n 0 0 future ∨ (∀ k < n, buf k ≠ 10) ∧ (cells buf 0 n).Sublist future

theorem cells_congr (buf other : Nat → UInt8) (i j : Nat) (same : ∀ k < j, other k = buf k) :
    cells other i j = cells buf i j := by
  refine List.map_congr_left fun k member => same k ?_
  have bounds := List.mem_range'_1.mp member
  omega

theorem cells_last (buf : Nat → UInt8) (n : Nat) : cells buf 0 (n + 1) = cells buf 0 n ++ [buf n] := by
  simp [cells, List.range'_concat]

theorem cells_first (buf : Nat → UInt8) (i j : Nat) (below : i < j) : cells buf i j = buf i :: cells buf (i + 1) j := by
  have count : j - i = (j - (i + 1)) + 1 := by omega
  rw [cells, count, List.range'_succ]
  rfl

theorem cells_shorter (buf : Nat → UInt8) (n : Nat) : (cells buf 0 n).Sublist (cells buf 0 (n + 1)) := by
  rw [cells_last]
  exact List.sublist_append_left _ _

theorem update_below (buf : Nat → UInt8) (n : Nat) (byte : UInt8) (k : Nat) (below : k < n) :
    Function.update buf n byte k = buf k :=
  Function.update_of_ne (Nat.ne_of_lt below) _ _

theorem scanning_mono (buf : Nat → UInt8) (n i j : Nat) (future more : List UInt8) (scanning : Scanning buf n i j future) :
    Scanning buf n i j (future ++ more) := by
  obtain ⟨f, first, after, rest⟩ := scanning
  exact ⟨f, first, after, rest.trans (List.sublist_append_left _ _)⟩

theorem held_mono (buf : Nat → UInt8) (n : Nat) (future more : List UInt8) (held : Held buf n future) :
    Held buf n (future ++ more) := by
  rcases held with ended | ⟨noNewline, rest⟩
  · exact Or.inl (scanning_mono buf n 0 0 future more ended)
  · exact Or.inr ⟨noNewline, rest.trans (List.sublist_append_left _ _)⟩

theorem scanning_write (buf : Nat → UInt8) (n i j : Nat) (future : List UInt8) (byte : UInt8)
    (scanning : Scanning buf n i j future) : Scanning (Function.update buf n byte) (n + 1) i j future := by
  obtain ⟨f, ⟨below, newline, earlier⟩, after, rest⟩ := scanning
  have same : ∀ k < f + 1, Function.update buf n byte k = buf k := fun k inside =>
    update_below buf n byte k (by omega)
  refine ⟨f, ⟨by omega, ?_, fun k inside => ?_⟩, after, ?_⟩
  · rw [same f (Nat.lt_succ_self f)]
    exact newline
  · rw [same k (by omega)]
    exact earlier k inside
  · rw [cells_congr buf _ j (f + 1) same]
    exact rest

theorem open_write (buf : Nat → UInt8) (n : Nat) (future : List UInt8) (byte : UInt8)
    (rest : (cells buf 0 n).Sublist future) :
    (cells (Function.update buf n byte) 0 (n + 1)).Sublist (future ++ [byte]) := by
  have earlier := cells_congr buf (Function.update buf n byte) 0 n (update_below buf n byte)
  rw [cells_last, earlier, Function.update_self]
  exact List.Sublist.append_right rest [byte]

theorem held_newline (buf : Nat → UInt8) (n : Nat) (future : List UInt8) (held : Held buf n future) :
    Scanning (Function.update buf n 10) (n + 1) 0 0 (future ++ [10]) := by
  rcases held with ended | ⟨noNewline, rest⟩
  · exact scanning_mono _ _ 0 0 future [10] (scanning_write buf n 0 0 future 10 ended)
  · refine ⟨n, ⟨Nat.lt_succ_self n, Function.update_self _ _ _, fun k below => ?_⟩, Nat.zero_le n,
      open_write buf n future 10 rest⟩
    rw [update_below buf n 10 k below]
    exact noNewline k below

theorem held_write (buf : Nat → UInt8) (n : Nat) (future : List UInt8) (byte : UInt8) (held : Held buf n future) :
    Held (Function.update buf n byte) (n + 1) (future ++ [byte]) := by
  by_cases newline : byte = 10
  · subst newline
    exact Or.inl (held_newline buf n future held)
  · rcases held with ended | ⟨noNewline, rest⟩
    · exact Or.inl (scanning_mono _ _ 0 0 future [byte] (scanning_write buf n 0 0 future byte ended))
    · refine Or.inr ⟨fun k below => ?_, open_write buf n future byte rest⟩
      by_cases last : k = n
      · subst last
        rw [Function.update_self]
        exact newline
      · rw [update_below buf n byte k (by omega)]
        exact noNewline k (by omega)

theorem held_erase (buf : Nat → UInt8) (n : Nat) (future : List UInt8) (held : Held buf (n + 1) future) :
    Held (Function.update buf n 0) n future := by
  have same : ∀ k < n, Function.update buf n 0 k = buf k := update_below buf n 0
  rcases held with ⟨f, ⟨below, newline, earlier⟩, _, rest⟩ | ⟨noNewline, rest⟩
  · by_cases last : f = n
    · subst last
      refine Or.inr ⟨fun k inside => ?_, ?_⟩
      · rw [same k inside]
        exact earlier k inside
      · rw [cells_congr buf _ 0 f same]
        exact (cells_shorter buf f).trans rest
    · have inside : ∀ k < f + 1, Function.update buf n 0 k = buf k := fun k bound => same k (by omega)
      refine Or.inl ⟨f, ⟨by omega, ?_, fun k bound => ?_⟩, Nat.zero_le f, ?_⟩
      · rw [same f (by omega)]
        exact newline
      · rw [same k (by omega)]
        exact earlier k bound
      · rw [cells_congr buf _ 0 (f + 1) inside]
        exact rest
  · refine Or.inr ⟨fun k inside => ?_, ?_⟩
    · rw [same k inside]
      exact noNewline k (by omega)
    · rw [cells_congr buf _ 0 n same]
      exact (cells_shorter buf n).trans rest

theorem scanning_erase (buf : Nat → UInt8) (n i j : Nat) (future : List UInt8) (scanning : Scanning buf (n + 1) i j future)
    (remains : ∃ k < n, buf k = 10) : Scanning (Function.update buf n 0) n i j future := by
  obtain ⟨f, ⟨_, newline, earlier⟩, after, rest⟩ := scanning
  obtain ⟨k, kept, another⟩ := remains
  have below : f < n := by
    by_contra past
    exact earlier k (by omega) another
  have same : ∀ m < f + 1, Function.update buf n 0 m = buf m := fun m bound => update_below buf n 0 m (by omega)
  refine ⟨f, ⟨below, ?_, fun m bound => ?_⟩, after, ?_⟩
  · rw [same f (Nat.lt_succ_self f)]
    exact newline
  · rw [same m (by omega)]
    exact earlier m bound
  · rw [cells_congr buf _ j (f + 1) same]
    exact rest

theorem scanning_copy (buf : Nat → UInt8) (n i : Nat) (past future delivered : List UInt8) (got : delivered.Sublist past)
    (scanning : Scanning buf n i i future) :
    ∃ taken rest, future = taken ++ rest ∧ (delivered ++ [buf i]).Sublist (past ++ taken) ∧
      Scanning buf n i (i + 1) rest := by
  obtain ⟨f, first, after, left⟩ := scanning
  rw [cells_first buf i (f + 1) (by omega), List.cons_sublist_iff] at left
  obtain ⟨taken, rest, split, member, later⟩ := left
  exact ⟨taken, rest, split, got.append (List.singleton_sublist.mpr member), f, first, after, later⟩

theorem scanning_next (buf : Nat → UInt8) (n i : Nat) (future : List UInt8) (other : buf i ≠ 10)
    (scanning : Scanning buf n i (i + 1) future) : Scanning buf n (i + 1) (i + 1) future := by
  obtain ⟨f, first, after, rest⟩ := scanning
  have later : i ≠ f := by
    rintro rfl
    exact other first.2.1
  exact ⟨f, first, by omega, rest⟩

theorem held_empty (buf : Nat → UInt8) (future : List UInt8) : Held buf 0 future :=
  Or.inr ⟨fun _ below => absurd below (Nat.not_lt_zero _), List.nil_sublist future⟩

end SimpleKernel.Keyboard
