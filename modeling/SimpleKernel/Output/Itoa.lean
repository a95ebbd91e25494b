import Mathlib.Data.List.GetD
import SimpleKernel.Library.Numeral
import SimpleKernel.Strings

set_option autoImplicit false

namespace SimpleKernel.Output

-- A character array; `stores` has every index stored to, the latest first.
structure Buffer where
  bytes : Bytes
  stores : List Nat

def Buffer.poke (i : Nat) (value : UInt8) (b : Buffer) : Buffer :=
  ⟨Function.update b.bytes i value, i :: b.stores⟩

def lookupTable : List UInt8 :=
  [48, 49, 50, 51, 52, 53, 54, 55, 56, 57, 65, 66, 67, 68, 69, 70, 71, 72, 73, 74, 75, 76, 77, 78, 79, 80, 81, 82, 83, 84, 85,
    86, 87, 88, 89, 90]

def lookup (i : Nat) : UInt8 := lookupTable.getD i 0

def zeroDigit : UInt8 := 48
def minusSign : UInt8 := 45

def swap (i j : Nat) (b : Buffer) : Buffer :=
  let tmp := b.bytes j
  let first := b.poke j (b.bytes i)
  first.poke i tmp

def reverseFrom (s : Nat) : Nat → Nat → Nat → Buffer → Buffer
  | 0, _, _, b => b
  | left + 1, first, last, b =>
      if first < last then reverseFrom s left (first + 1) (last - 1) (swap (s + first) (s + last) b) else b

-- `bound` is an index at or before which the string at s has its NUL. On an
-- empty string the source's end is -1, and the loop is not entered either.
def strrev (s bound : Nat) (b : Buffer) : Buffer :=
  let len := strlen (fun i => b.bytes (s + i)) bound
  reverseFrom s len 0 (len - 1) b

-- none: the passes allowed do not bring newval to zero.
def storeDigits (radix : Nat) : Nat → Nat → Nat → Buffer → Option (Nat × Buffer)
  | 0, newval, newbuf, b => if newval > 0 then none else some (newbuf, b)
  | left + 1, newval, newbuf, b =>
      if newval > 0 then storeDigits radix left (newval / radix) (newbuf + 1) (b.poke newbuf (lookup (newval % radix)))
      else some (newbuf, b)

def itoa (value : BitVec 32) (buf radix : Nat) (b : Buffer) : Option Buffer :=
  if value = 0 then some ((b.poke buf zeroDigit).poke (buf + 1) 0)
  else
    match storeDigits radix 32 value.toNat buf b with
    | none => none
    | some (newbuf, stored) => some (strrev buf (newbuf - buf) (stored.poke newbuf 0))

structure Wrote (before after : Buffer) (base : Nat) (text : List UInt8) : Prop where
  inside : ∀ k, k < text.length → after.bytes (base + k) = text.getD k 0
  outside : ∀ i, i < base ∨ base + text.length ≤ i → after.bytes i = before.bytes i
  stores : ∀ i ∈ after.stores, i ∈ before.stores ∨ base ≤ i ∧ i < base + text.length

theorem wrote_nothing (b : Buffer) (base : Nat) : Wrote b b base [] :=
  ⟨fun k bound => absurd bound (Nat.not_lt_zero k), fun _ _ => rfl, fun _ member => Or.inl member⟩

theorem wrote_join (before middle after : Buffer) (base : Nat) (text more : List UInt8)
    (inside : ∀ k, k < text.length → after.bytes (base + k) = text.getD k 0)
    (beyond : ∀ k, k < more.length → after.bytes (base + text.length + k) = more.getD k 0)
    (outside : ∀ i, i < base ∨ base + text.length + more.length ≤ i → after.bytes i = before.bytes i)
    (first : ∀ i ∈ middle.stores, i ∈ before.stores ∨ base ≤ i ∧ i < base + text.length + more.length)
    (second : ∀ i ∈ after.stores, i ∈ middle.stores ∨ base ≤ i ∧ i < base + text.length + more.length) :
    Wrote before after base (text ++ more) := by
  have size : (text ++ more).length = text.length + more.length := List.length_append
  refine ⟨fun k bound => ?_, fun i apart => outside i (by omega), fun i member => ?_⟩
  · by_cases early : k < text.length
    · rw [inside k early, List.getD_append _ _ _ _ early]
    · have place : base + k = base + text.length + (k - text.length) := by omega
      rw [place, beyond _ (by omega), List.getD_append_right _ _ _ _ (Nat.not_lt.mp early)]
  · rw [size, ← Nat.add_assoc]
    cases second i member with
    | inl earlier => exact first i earlier
    | inr own => exact Or.inr own

theorem wrote_append (before middle after : Buffer) (base : Nat) (text more : List UInt8)
    (first : Wrote before middle base text)
    (second : Wrote middle after (base + text.length) more) : Wrote before after base (text ++ more) := by
  apply wrote_join before middle after base text more
  · intro k bound
    rw [second.outside _ (by omega), first.inside k bound]
  · exact second.inside
  · intro i apart
    rw [second.outside i (by omega), first.outside i (by omega)]
  · intro i member
    exact (first.stores i member).imp_right fun own => ⟨own.1, by omega⟩
  · intro i member
    exact (second.stores i member).imp_right fun own => ⟨by omega, own.2⟩

theorem wrote_prepend (before middle after : Buffer) (base : Nat) (text more : List UInt8)
    (first : Wrote before middle (base + text.length) more) (second : Wrote middle after base text) :
    Wrote before after base (text ++ more) := by
  apply wrote_join before middle after base text more second.inside
  · intro k bound
    rw [second.outside _ (by omega), first.inside k bound]
  · intro i apart
    rw [second.outside i (by omega), first.outside i (by omega)]
  · intro i member
    exact (first.stores i member).imp_right fun own => ⟨by omega, own.2⟩
  · intro i member
    exact (second.stores i member).imp_right fun own => ⟨own.1, by omega⟩

theorem wrote_poke (before after : Buffer) (base : Nat) (text : List UInt8) (value : UInt8)
    (wrote : Wrote before after base text) :
    Wrote before (after.poke (base + text.length) value) base (text ++ [value]) := by
  apply wrote_append before after _ base text [value] wrote
  refine ⟨fun k bound => ?_, fun i apart => ?_, fun i member => ?_⟩
  · have first : k = 0 := Nat.lt_one_iff.mp bound
    rw [first]
    exact Function.update_self _ _ _
  · exact Function.update_of_ne (by rw [List.length_singleton] at apart; omega) _ _
  · cases member with
    | head => exact Or.inr ⟨Nat.le_refl _, Nat.lt_succ_self _⟩
    | tail _ earlier => exact Or.inl earlier

theorem store_digits_wrote (radix left newval base : Nat) (text : List UInt8) (before b : Buffer) (binary : 1 < radix)
    (bound : newval < radix ^ left) (wrote : Wrote before b base text) :
    ∃ after, storeDigits radix left newval (base + text.length) b =
        some (base + (text ++ (Nat.digits radix newval).map lookup).length, after) ∧
      Wrote before after base (text ++ (Nat.digits radix newval).map lookup) := by
  induction left generalizing newval text b with
  | zero =>
      have zero : newval = 0 := by
        rw [Nat.pow_zero] at bound
        omega
      rw [zero, Nat.digits_zero, List.map_nil, List.append_nil]
      exact ⟨b, rfl, wrote⟩
  | succ left ih =>
      by_cases positive : newval > 0
      · have smaller : newval / radix < radix ^ left := by
          apply Nat.div_lt_of_lt_mul
          rwa [← Nat.pow_succ']
        obtain ⟨after, done, written⟩ := ih (newval / radix) (text ++ [lookup (newval % radix)]) _ smaller
          (wrote_poke before b base text (lookup (newval % radix)) wrote)
        rw [Nat.digits_def' binary positive, List.map_cons]
        rw [List.append_assoc, List.singleton_append] at done written
        refine ⟨after, ?_, written⟩
        rw [storeDigits, if_pos positive, ← done, List.length_append, List.length_singleton, Nat.add_assoc]
      · have zero : newval = 0 := by omega
        rw [zero, Nat.digits_zero, List.map_nil, List.append_nil]
        exact ⟨b, rfl, wrote⟩

theorem swap_bytes (i j k : Nat) (b : Buffer) :
    (swap i j b).bytes k = if k = i then b.bytes j else if k = j then b.bytes i else b.bytes k := by
  simp only [swap, Buffer.poke, Function.update_apply]

theorem turned_single (s first last i : Nat) (bytes : Bytes) (single : last ≤ first) :
    bytes i = if s + first ≤ i ∧ i ≤ s + last then bytes (s + first + (s + last) - i) else bytes i := by
  by_cases inside : s + first ≤ i ∧ i ≤ s + last
  · have here : s + first + (s + last) - i = i := by omega
    rw [if_pos inside, here]
  · rw [if_neg inside]

-- The loop turns the cells between first and last around their middle; half as
-- many passes as there are cells are enough.
theorem reverse_bytes (s left first last i : Nat) (b : Buffer) (enough : last ≤ first + 2 * left) :
    (reverseFrom s left first last b).bytes i =
      if s + first ≤ i ∧ i ≤ s + last then b.bytes (s + first + (s + last) - i) else b.bytes i := by
  induction left generalizing first last b with
  | zero => exact turned_single s first last i b.bytes (by omega)
  | succ left ih =>
      by_cases more : first < last
      · rw [reverseFrom, if_pos more, ih (first + 1) (last - 1) _ (by omega), swap_bytes, swap_bytes]
        by_cases low : i = s + first
        · have other : s + first + (s + last) - i = s + last := by omega
          rw [if_neg (by omega), if_pos low, if_pos (by omega), other]
        · by_cases high : i = s + last
          · have other : s + first + (s + last) - i = s + first := by omega
            rw [if_neg (by omega), if_neg low, if_pos high, if_pos (by omega), other]
          · by_cases inside : s + first ≤ i ∧ i ≤ s + last
            · have mirror : s + (first + 1) + (s + (last - 1)) - i = s + first + (s + last) - i := by omega
              rw [if_pos (by omega), if_pos inside, mirror, if_neg (by omega), if_neg (by omega)]
            · rw [if_neg (by omega), if_neg low, if_neg high, if_neg inside]
      · rw [reverseFrom, if_neg more]
        exact turned_single s first last i b.bytes (by omega)

theorem reverse_stores (s left first last : Nat) (b : Buffer) :
    ∀ i ∈ (reverseFrom s left first last b).stores, i ∈ b.stores ∨ s + first ≤ i ∧ i ≤ s + last := by
  induction left generalizing first last b with
  | zero => exact fun _ member => Or.inl member
  | succ left ih =>
      intro i member
      by_cases more : first < last
      · rw [reverseFrom, if_pos more] at member
        cases ih (first + 1) (last - 1) _ i member with
        | inl swapped =>
            cases swapped with
            | head => exact Or.inr ⟨Nat.le_refl _, by omega⟩
            | tail _ before =>
                cases before with
                | head => exact Or.inr ⟨by omega, Nat.le_refl _⟩
                | tail _ old => exact Or.inl old
        | inr inside => exact Or.inr ⟨by omega, by omega⟩
      · rw [reverseFrom, if_neg more] at member
        exact Or.inl member

theorem name_at (bytes : Bytes) (s : Nat) (text : List UInt8) (bound : Nat) (noNul : ∀ c ∈ text, c ≠ 0)
    (fits : text.length ≤ bound) (holds : ∀ k < text.length, bytes (s + k) = text.getD k 0)
    (ends : bytes (s + text.length) = 0) : nameIn (fun i => bytes (s + i)) bound = text := by
  apply name_from_list text ((List.range (bound - text.length)).map fun j => bytes (s + (text.length + j))) bound _ 0
    noNul fits
  · cases size : bound - text.length with
    | zero => rfl
    | succ n =>
        rw [List.range_succ_eq_map, List.map_cons, List.head?_cons]
        exact ends
  · intro k bounded
    rw [Nat.zero_add]
    by_cases early : k < text.length
    · rw [List.getD_append _ _ _ _ early, holds k early]
    · have late : text.length ≤ k := Nat.not_lt.mp early
      have place : text.length + (k - text.length) = k := by omega
      rw [List.getD_append_right _ _ _ _ late, List.getD_eq_getElem _ _ (by rw [List.length_map, List.length_range]; omega),
        List.getElem_map, List.getElem_range, place]

theorem strrev_wrote (before b : Buffer) (s : Nat) (text : List UInt8) (noNul : ∀ c ∈ text, c ≠ 0)
    (wrote : Wrote before b s (text ++ [0])) : Wrote before (strrev s text.length b) s (text.reverse ++ [0]) := by
  have size : (text ++ [(0 : UInt8)]).length = text.length + 1 := by rw [List.length_append, List.length_singleton]
  have turned : (text.reverse ++ [(0 : UInt8)]).length = text.length + 1 := by
    rw [List.length_append, List.length_reverse, List.length_singleton]
  have holds (k : Nat) (bound : k < text.length) : b.bytes (s + k) = text.getD k 0 := by
    rw [wrote.inside k (by omega), List.getD_append _ _ _ _ bound]
  have ends : b.bytes (s + text.length) = 0 := by
    rw [wrote.inside text.length (by omega), List.getD_append_right _ _ _ _ (Nat.le_refl _), Nat.sub_self]
    rfl
  have length : strlen (fun i => b.bytes (s + i)) text.length = text.length := by
    rw [strlen_name, name_at b.bytes s text text.length noNul (Nat.le_refl _) holds ends]
  have bytes := fun i => reverse_bytes s text.length 0 (text.length - 1) i b (by omega)
  have stores := reverse_stores s text.length 0 (text.length - 1) b
  rw [strrev, length]
  refine ⟨fun k bound => ?_, fun i apart => ?_, fun i member => ?_⟩
  · rw [bytes]
    by_cases last : k = text.length
    · have beyond : ¬ (s + 0 ≤ s + k ∧ s + k ≤ s + (text.length - 1)) ∨
        s + 0 + (s + (text.length - 1)) - (s + k) = s + k := by omega
      rw [last, List.getD_append_right _ _ _ _ (by rw [List.length_reverse]), List.length_reverse, Nat.sub_self]
      rw [last] at beyond
      cases beyond with
      | inl outside => rw [if_neg outside, ends]; rfl
      | inr here => rw [here, ite_self, ends]; rfl
    · have early : k < text.length := by omega
      have mirror : s + 0 + (s + (text.length - 1)) - (s + k) = s + (text.length - 1 - k) := by omega
      rw [if_pos (by omega), mirror, holds _ (by omega), List.getD_append _ _ _ _ (by rw [List.length_reverse]; exact early)]
      rw [List.getD_eq_getElem _ _ (by omega), List.getD_eq_getElem _ _ (by rw [List.length_reverse]; exact early),
        List.getElem_reverse]
  · rw [bytes, if_neg (by omega), wrote.outside i (by omega)]
  · cases stores i member with
    | inl old =>
        cases wrote.stores i old with
        | inl oldest => exact Or.inl oldest
        | inr inside => exact Or.inr ⟨inside.1, by omega⟩
    | inr inside => exact Or.inr ⟨by omega, by omega⟩

theorem lookup_injective (a b : Nat) (first : a < 36) (second : b < 36) (same : lookup a = lookup b) : a = b := by
  have distinct : ∀ i < 36, ∀ j < 36, lookup i = lookup j → i = j := by decide
  exact distinct a first b second same

theorem lookup_not_nul (i : Nat) (bound : i < 36) : lookup i ≠ 0 := by
  have all : ∀ j < 36, lookup j ≠ 0 := by decide
  exact all i bound

def IsNumeral (radix number : Nat) (text : List UInt8) : Prop :=
  ∃ digits, Numeral.Denotes radix number digits ∧ text = digits.map lookup

def numeral (radix number : Nat) : List UInt8 :=
  if number = 0 then [zeroDigit] else (Nat.digits radix number).reverse.map lookup

theorem numeral_is (radix number : Nat) (base : 1 < radix) : IsNumeral radix number (numeral radix number) := by
  by_cases zero : number = 0
  · rw [numeral, if_pos zero, zero]
    exact ⟨[0], Numeral.denotes_zero radix (by omega), rfl⟩
  · rw [numeral, if_neg zero]
    exact ⟨_, Numeral.denotes_digits radix number base (Nat.pos_of_ne_zero zero), rfl⟩

theorem numeral_unique (radix number : Nat) (base : 1 < radix) (text : List UInt8) (other : IsNumeral radix number text) :
    text = numeral radix number := by
  obtain ⟨digits, denotes, same⟩ := numeral_is radix number base
  obtain ⟨others, denotesOther, sameOther⟩ := other
  rw [same, sameOther, Numeral.denotes_unique radix number digits others base denotes denotesOther]

theorem numeral_no_nul (radix number : Nat) (base : 1 < radix) (top : radix ≤ 36) : ∀ c ∈ numeral radix number, c ≠ 0 := by
  obtain ⟨digits, denotes, same⟩ := numeral_is radix number base
  rw [same]
  intro c member
  obtain ⟨digit, listed, shown⟩ := List.mem_map.mp member
  have bound := denotes.small digit listed
  rw [← shown]
  exact lookup_not_nul digit (by omega)

theorem numeral_length (radix number size : Nat) (base : 1 < radix) (room : 0 < size) (bound : number < radix ^ size) :
    (numeral radix number).length ≤ size := by
  obtain ⟨digits, denotes, same⟩ := numeral_is radix number base
  rw [same, List.length_map]
  exact Numeral.denotes_length radix number size digits base denotes room bound

theorem numeral_not_empty (radix number : Nat) (base : 1 < radix) : numeral radix number ≠ [] := by
  obtain ⟨digits, denotes, same⟩ := numeral_is radix number base
  rw [same]
  exact mt List.map_eq_nil_iff.mp denotes.nonempty

theorem itoa_wrote (value : BitVec 32) (buf radix : Nat) (b : Buffer) (base : 1 < radix) (top : radix ≤ 36) :
    ∃ after, itoa value buf radix b = some after ∧ Wrote b after buf (numeral radix value.toNat ++ [0]) := by
  by_cases zero : value = 0
  · have digit := wrote_poke b b buf [] zeroDigit (wrote_nothing b buf)
    have whole := wrote_poke b _ buf [zeroDigit] 0 digit
    have text : numeral radix value.toNat = [zeroDigit] := by
      rw [zero]
      rfl
    rw [text]
    exact ⟨_, if_pos zero, whole⟩
  · have positive : value.toNat ≠ 0 := fun none => zero (BitVec.eq_of_toNat_eq none)
    have passes : value.toNat < radix ^ 32 :=
      Nat.lt_of_lt_of_le value.isLt (Nat.pow_le_pow_left base 32)
    obtain ⟨stored, done, wrote⟩ := store_digits_wrote radix 32 value.toNat buf [] b b base passes (wrote_nothing b buf)
    rw [List.nil_append] at done wrote
    have text : ((Nat.digits radix value.toNat).map lookup).reverse = numeral radix value.toNat := by
      rw [numeral, if_neg positive, List.map_reverse]
    have digits : ∀ c ∈ (Nat.digits radix value.toNat).map lookup, c ≠ 0 := by
      intro c member
      apply numeral_no_nul radix value.toNat base top c
      rw [← text, List.mem_reverse]
      exact member
    have turned := strrev_wrote b _ buf _ digits (wrote_poke b stored buf _ 0 wrote)
    rw [text] at turned
    refine ⟨_, ?_, turned⟩
    have start : buf + ([] : List UInt8).length = buf := rfl
    rw [start] at done
    rw [itoa, if_neg zero, done]
    change some (strrev buf (buf + ((Nat.digits radix value.toNat).map lookup).length - buf) _) = _
    rw [Nat.add_sub_cancel_left]

end SimpleKernel.Output
