import Mathlib.Data.BitVec
import Mathlib.Data.List.Induction

set_option autoImplicit false

namespace SimpleKernel

abbrev Bytes := Nat → UInt8

structure CString where
  bytes : List UInt8
  noNul : ∀ byte ∈ bytes, byte ≠ 0
deriving DecidableEq

-- What a read leaves behind: the bytes it stored from the start of buf, and
-- its return value. The two need not have the same length.
structure ReadResult where
  stored : List UInt8
  ret : Int
deriving DecidableEq, Repr

def CString.memory (s : CString) : Bytes := fun i => s.bytes.getD i 0

def strlenFrom (s : Bytes) : Nat → Nat → Nat
  | 0, len => len
  | fuel + 1, len => if s len = 0 then len else strlenFrom s fuel (len + 1)

-- `bound` is an index at or before which the memory holds a NUL.
def strlen (s : Bytes) (bound : Nat) : Nat := strlenFrom s bound 0

def strncmpFrom (s1 s2 : Bytes) : Nat → Nat → Int
  | 0, _ => 0
  | left + 1, i =>
      if s1 i ≠ s2 i ∨ s1 i = 0 then (s1 i).toInt8.toInt - (s2 i).toInt8.toInt
      else strncmpFrom s1 s2 left (i + 1)

def strncmp (s1 s2 : Bytes) (n : Nat) : Int := strncmpFrom s1 s2 n 0

def strncpyFrom (src : Bytes) : Nat → Nat → List UInt8
  | 0, _ => []
  | left + 1, i => if src i ≠ 0 then src i :: strncpyFrom src left (i + 1) else List.replicate (left + 1) 0

def strncpy (src : Bytes) (n : Nat) : List UInt8 := strncpyFrom src n 0

def nameFrom (s : Bytes) : Nat → Nat → List UInt8
  | 0, _ => []
  | left + 1, i => if s i = 0 then [] else s i :: nameFrom s left (i + 1)

def nameIn (s : Bytes) (n : Nat) : List UInt8 := nameFrom s n 0

theorem int8_difference_zero (a b : UInt8) : a.toInt8.toInt - b.toInt8.toInt = 0 ↔ a = b := by
  constructor
  · intro zero
    have same : a.toInt8.toInt = b.toInt8.toInt := by omega
    simpa using congrArg Int8.toUInt8 (Int8.toInt_inj.mp same)
  · rintro rfl
    exact Int.sub_self _

theorem strncmp_from_zero (s1 s2 : Bytes) (left i : Nat) :
    strncmpFrom s1 s2 left i = 0 ↔ nameFrom s1 left i = nameFrom s2 left i := by
  induction left generalizing i with
  | zero => exact ⟨fun _ => rfl, fun _ => rfl⟩
  | succ left ih =>
      by_cases stop : s1 i ≠ s2 i ∨ s1 i = 0
      · rw [strncmpFrom, if_pos stop, int8_difference_zero]
        by_cases end1 : s1 i = 0 <;> by_cases end2 : s2 i = 0
        · simp [nameFrom, end1, end2]
        · simp [nameFrom, end1, end2, Ne.symm end2]
        · simp [nameFrom, end1, end2]
        · have different : s1 i ≠ s2 i := by
            rcases stop with different | zero
            · exact different
            · exact absurd zero end1
          simp [nameFrom, end1, end2, different]
      · push Not at stop
        obtain ⟨same, nonzero⟩ := stop
        have nonzero2 : s2 i ≠ 0 := same ▸ nonzero
        rw [strncmpFrom, if_neg (by simp [same, nonzero2]), ih (i + 1)]
        simp [nameFrom, nonzero2, same]

theorem strncmp_zero (s1 s2 : Bytes) (n : Nat) : strncmp s1 s2 n = 0 ↔ nameIn s1 n = nameIn s2 n :=
  strncmp_from_zero s1 s2 n 0

theorem strncpy_from_name (src : Bytes) (left i : Nat) :
    strncpyFrom src left i =
      nameFrom src left i ++ List.replicate (left - (nameFrom src left i).length) 0 := by
  induction left generalizing i with
  | zero => rfl
  | succ left ih =>
      by_cases stop : src i = 0
      · simp [strncpyFrom, nameFrom, stop]
      · simp only [strncpyFrom, nameFrom, stop, ne_eq, not_false_eq_true, if_true, if_false, List.length_cons,
          List.cons_append, Nat.reduceSubDiff]
        rw [ih (i + 1)]

theorem strncpy_name (src : Bytes) (n : Nat) :
    strncpy src n = nameIn src n ++ List.replicate (n - (nameIn src n).length) 0 :=
  strncpy_from_name src n 0

theorem name_from_length (s : Bytes) (left i : Nat) : (nameFrom s left i).length ≤ left := by
  induction left generalizing i with
  | zero => simp [nameFrom]
  | succ left ih =>
      by_cases stop : s i = 0
      · simp [nameFrom, stop]
      · simpa [nameFrom, stop] using ih (i + 1)

theorem name_in_length (s : Bytes) (n : Nat) : (nameIn s n).length ≤ n := name_from_length s n 0

theorem name_from_no_nul (s : Bytes) (left i : Nat) : ∀ byte ∈ nameFrom s left i, byte ≠ 0 := by
  induction left generalizing i with
  | zero => simp [nameFrom]
  | succ left ih =>
      by_cases stop : s i = 0
      · simp [nameFrom, stop]
      · simpa [nameFrom, stop] using ih (i + 1)

theorem name_in_no_nul (s : Bytes) (n : Nat) : ∀ byte ∈ nameIn s n, byte ≠ 0 := name_from_no_nul s n 0

theorem name_from_list (text rest : List UInt8) (left : Nat) (s : Bytes) (i : Nat) (noNul : ∀ byte ∈ text, byte ≠ 0)
    (fits : text.length ≤ left) (stops : rest.head?.getD 0 = 0)
    (holds : ∀ k < left, s (i + k) = (text ++ rest).getD k 0) : nameFrom s left i = text := by
  induction text generalizing left i with
  | nil =>
      cases left with
      | zero => rfl
      | succ left =>
          have head : s i = 0 := by
            have first := holds 0 (by omega)
            cases rest with
            | nil => simpa using first
            | cons byte tail =>
                have zero : byte = 0 := by simpa using stops
                simpa [zero] using first
          simp [nameFrom, head]
  | cons byte tail ih =>
      cases left with
      | zero => simp at fits
      | succ left =>
          have head : s i = byte := by simpa using holds 0 (by omega)
          have nonzero : byte ≠ 0 := noNul byte List.mem_cons_self
          have next := ih left (i + 1) (fun item member => noNul item (List.mem_cons_of_mem _ member))
            (by simpa using fits) (fun k bound => by
              simpa [Nat.add_assoc, Nat.add_comm 1 k] using holds (k + 1) (by omega))
          simp [nameFrom, head, nonzero, next]

theorem name_from_stop (text : List UInt8) (left : Nat) (s : Bytes) (i : Nat) (noNul : ∀ byte ∈ text, byte ≠ 0)
    (inside : ∀ k < text.length, s (i + k) = text.getD k 0) (stop : s (i + text.length) = 0) (fits : text.length < left) :
    nameFrom s left i = text := by
  induction text generalizing left i with
  | nil =>
      cases left with
      | zero => cases fits
      | succ left => rw [nameFrom, if_pos (show s i = 0 from stop)]
  | cons byte tail ih =>
      cases left with
      | zero => cases fits
      | succ left =>
          have head : s i = byte := inside 0 (Nat.succ_pos _)
          have nonzero : byte ≠ 0 := noNul byte List.mem_cons_self
          rw [List.length_cons, ← Nat.add_assoc, Nat.add_right_comm] at stop
          have next := ih left (i + 1) (fun item member => noNul item (List.mem_cons_of_mem _ member))
            (fun k bound => by
              have later := inside (k + 1) (Nat.succ_lt_succ bound)
              rwa [← Nat.add_assoc, Nat.add_right_comm] at later)
            stop (Nat.lt_of_succ_lt_succ fits)
          rw [nameFrom, head, if_neg nonzero, next]

theorem c_string_name (s : CString) (n : Nat) (fits : s.bytes.length ≤ n) : nameIn s.memory n = s.bytes := by
  refine name_from_list s.bytes [] n s.memory 0 s.noNul fits rfl ?_
  intro k _
  simp [CString.memory]

theorem strncpy_name_again (src : Bytes) (n m : Nat) (more : n ≤ m) :
    nameIn (fun i => (strncpy src n).getD i 0) m = nameIn src n := by
  have short := name_in_length src n
  refine name_from_list (nameIn src n) (List.replicate (n - (nameIn src n).length) 0) m _ 0
    (name_in_no_nul src n) (by omega) ?_ ?_
  · cases n - (nameIn src n).length <;> simp [List.replicate_succ]
  · intro k _
    simp [strncpy_name]

theorem strlen_from_name (s : Bytes) (fuel i : Nat) : strlenFrom s fuel i = i + (nameFrom s fuel i).length := by
  induction fuel generalizing i with
  | zero => rfl
  | succ fuel ih =>
      by_cases stop : s i = 0
      · simp [strlenFrom, nameFrom, stop]
      · simp only [strlenFrom, nameFrom, stop, if_false, List.length_cons, ih (i + 1)]
        omega

theorem strlen_name (s : Bytes) (bound : Nat) : strlen s bound = (nameIn s bound).length := by
  simp [strlen, nameIn, strlen_from_name]

end SimpleKernel
