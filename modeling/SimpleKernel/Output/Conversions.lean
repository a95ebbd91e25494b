import SimpleKernel.Output.Itoa

set_option autoImplicit false

namespace SimpleKernel.Output

-- The bytes passed to putc for the string at `index`, of which `left` bytes
-- may be read. none: no NUL among them.
def putsFrom (s : Bytes) : Nat → Nat → Option (List UInt8)
  | 0, _ => none
  | left + 1, index => if s index = 0 then some [] else (putsFrom s left (index + 1)).map (s index :: ·)

def puts (size index : Nat) (conv : Buffer) : Option (List UInt8 × Buffer) :=
  (putsFrom conv.bytes (size - index) index).map fun shown => (shown, conv)

def padZeros : Nat → Nat → Buffer → Buffer
  | 0, _, b => b
  | left + 1, i, b => if i < 8 then padZeros left (i + 1) (b.poke i zeroDigit) else b

def hexSize : Nat := 64
def decimalSize : Nat := 36

def printHex (value : BitVec 32) (conv : Buffer) : Option (List UInt8 × Buffer) :=
  (itoa value 0 16 conv).bind (puts hexSize 0)

def printAlternate (value : BitVec 32) (conv : Buffer) : Option (List UInt8 × Buffer) :=
  (itoa value 8 16 conv).bind fun written =>
    let startingIndex := strlen (fun i => written.bytes (8 + i)) (hexSize - 8)
    puts hexSize startingIndex (padZeros 8 startingIndex written)

def printUnsigned (value : BitVec 32) (conv : Buffer) : Option (List UInt8 × Buffer) :=
  (itoa value 0 10 conv).bind (puts decimalSize 0)

def printSigned (value : BitVec 32) (conv : Buffer) : Option (List UInt8 × Buffer) :=
  if value.toInt < 0 then (itoa (-value) 1 10 (conv.poke 0 minusSign)).bind (puts decimalSize 0)
  else (itoa value 0 10 conv).bind (puts decimalSize 0)

def digitOf (radix : Nat) (c : UInt8) : Option Nat := (List.range radix).find? fun digit => lookup digit = c

def decode (radix : Nat) (text : List UInt8) : Option Nat := (text.mapM (digitOf radix)).map (Numeral.value radix)

def decodeSigned : List UInt8 → Option Int
  | [] => none
  | c :: rest =>
      if c = minusSign then (decode 10 rest).map fun number : Nat => -(number : Int)
      else (decode 10 (c :: rest)).map fun number : Nat => (number : Int)

theorem digit_of_lookup (radix digit : Nat) (top : radix ≤ 36) (small : digit < radix) :
    digitOf radix (lookup digit) = some digit := by
  rw [digitOf, List.find?_range_eq_some]
  refine ⟨decide_eq_true rfl, List.mem_range.mpr small, fun other before => ?_⟩
  rw [Bool.not_eq_true', decide_eq_false_iff_not]
  intro same
  exact absurd (lookup_injective other digit (by omega) (by omega) same) (by omega)

theorem decode_digits (radix : Nat) (digits : List Nat) (top : radix ≤ 36) (small : ∀ digit ∈ digits, digit < radix) :
    decode radix (digits.map lookup) = some (Numeral.value radix digits) := by
  have read : (digits.map lookup).mapM (digitOf radix) = some digits := by
    induction digits with
    | nil => rfl
    | cons digit rest ih =>
        have later := ih fun other member => small other (List.mem_cons_of_mem _ member)
        rw [List.map_cons, List.mapM_cons, digit_of_lookup radix digit top (small digit List.mem_cons_self), later]
        rfl
  rw [decode, read]
  rfl

theorem decode_numeral (radix number : Nat) (base : 1 < radix) (top : radix ≤ 36) :
    decode radix (numeral radix number) = some number := by
  obtain ⟨digits, denotes, same⟩ := numeral_is radix number base
  rw [same, decode_digits radix digits top denotes.small, denotes.value]

theorem puts_from_text (s : Bytes) (left index : Nat) (text : List UInt8) (noNul : ∀ c ∈ text, c ≠ 0)
    (room : text.length < left) (holds : ∀ k ≤ text.length, s (index + k) = (text ++ [0]).getD k 0) :
    putsFrom s left index = some text := by
  induction text generalizing left index with
  | nil =>
      cases left with
      | zero => exact absurd room (Nat.not_lt_zero _)
      | succ left => exact if_pos (holds 0 (Nat.le_refl _))
  | cons c rest ih =>
      cases left with
      | zero => exact absurd room (Nat.not_lt_zero _)
      | succ left =>
          have head : s index = c := holds 0 (Nat.zero_le _)
          have tail := ih left (index + 1) (fun d member => noNul d (List.mem_cons_of_mem _ member))
            (Nat.lt_of_succ_lt_succ room) fun k bound => by
              have later := holds (k + 1) (Nat.succ_le_succ bound)
              rw [Nat.add_assoc, Nat.add_comm 1 k]
              exact later
          rw [putsFrom, head, if_neg (noNul c List.mem_cons_self), tail]
          rfl

theorem puts_wrote (size index : Nat) (before conv : Buffer) (text : List UInt8) (noNul : ∀ c ∈ text, c ≠ 0)
    (room : index + text.length < size) (wrote : Wrote before conv index (text ++ [0])) :
    puts size index conv = some (text, conv) := by
  have whole : (text ++ [(0 : UInt8)]).length = text.length + 1 := by rw [List.length_append, List.length_singleton]
  rw [puts, puts_from_text conv.bytes (size - index) index text noNul (by omega) fun k bound => wrote.inside k (by omega)]
  rfl

def Prints (result : Option (List UInt8 × Buffer)) (size : Nat) (text : List UInt8) : Prop :=
  ∃ after, result = some (text, after) ∧ ∀ i ∈ after.stores, i < size

theorem wrote_prints (size index : Nat) (after : Buffer) (bytes : Bytes) (text : List UInt8) (noNul : ∀ c ∈ text, c ≠ 0)
    (room : index + text.length < size) (wrote : Wrote ⟨bytes, []⟩ after index (text ++ [0])) :
    Prints (puts size index after) size text := by
  refine ⟨after, puts_wrote size index _ after text noNul room wrote, fun i member => ?_⟩
  cases wrote.stores i member with
  | inl old => cases old
  | inr inside =>
      rw [List.length_append, List.length_singleton] at inside
      omega

theorem itoa_prints (value : BitVec 32) (radix digits size : Nat) (bytes : Bytes) (base : 1 < radix) (top : radix ≤ 36)
    (some : 0 < digits) (bound : value.toNat < radix ^ digits) (room : digits < size) :
    Prints ((itoa value 0 radix ⟨bytes, []⟩).bind (puts size 0)) size (numeral radix value.toNat) := by
  obtain ⟨after, done, wrote⟩ := itoa_wrote value 0 radix ⟨bytes, []⟩ base top
  have short := numeral_length radix value.toNat digits base some bound
  rw [done]
  exact wrote_prints size 0 after bytes _ (numeral_no_nul radix value.toNat base top) (by omega) wrote

theorem unsigned_fits (value : BitVec 32) : value.toNat < 10 ^ 10 ∧ value.toNat < 16 ^ 8 := by
  have bound := value.isLt
  omega

theorem print_hex_prints (value : BitVec 32) (bytes : Bytes) :
    Prints (printHex value ⟨bytes, []⟩) hexSize (numeral 16 value.toNat) :=
  itoa_prints value 16 8 hexSize bytes (by decide) (by decide) (by decide) (unsigned_fits value).2 (by decide)

theorem print_unsigned_prints (value : BitVec 32) (bytes : Bytes) :
    Prints (printUnsigned value ⟨bytes, []⟩) decimalSize (numeral 10 value.toNat) :=
  itoa_prints value 10 10 decimalSize bytes (by decide) (by decide) (by decide) (unsigned_fits value).1 (by decide)

def signed (number : Int) : List UInt8 :=
  if number < 0 then minusSign :: numeral 10 number.natAbs else numeral 10 number.natAbs

def padded (number : Nat) : List UInt8 :=
  List.replicate (8 - (numeral 16 number).length) zeroDigit ++ numeral 16 number

-- For -2^31 the negation is the value again, which itoa reads as 2^31.
theorem negated_magnitude (value : BitVec 32) (negative : value.toInt < 0) : (-value).toNat = value.toInt.natAbs := by
  have bound := value.isLt
  rw [BitVec.toInt_eq_toNat_cond] at negative ⊢
  rw [BitVec.toNat_neg]
  split at negative
  · omega
  · rename_i large
    rw [if_neg large, Nat.mod_eq_of_lt (by omega)]
    omega

theorem nonnegative_magnitude (value : BitVec 32) (nonnegative : ¬ value.toInt < 0) : value.toNat = value.toInt.natAbs := by
  have bound := value.isLt
  rw [BitVec.toInt_eq_toNat_cond] at nonnegative ⊢
  split at nonnegative
  · rename_i small
    rw [if_pos small, Int.natAbs_natCast]
  · omega

theorem print_signed_prints (value : BitVec 32) (bytes : Bytes) :
    Prints (printSigned value ⟨bytes, []⟩) decimalSize (signed value.toInt) := by
  by_cases negative : value.toInt < 0
  · have minus := wrote_poke ⟨bytes, []⟩ ⟨bytes, []⟩ 0 [] minusSign (wrote_nothing _ 0)
    obtain ⟨after, done, wrote⟩ := itoa_wrote (-value) 1 10 ((⟨bytes, []⟩ : Buffer).poke 0 minusSign) (by decide) (by decide)
    have noNul := numeral_no_nul 10 (-value).toNat (by decide) (by decide)
    have short := numeral_length 10 (-value).toNat 10 (by decide) (by decide) (unsigned_fits (-value)).1
    have whole := wrote_append ⟨bytes, []⟩ _ after 0 [minusSign] (numeral 10 (-value).toNat ++ [0]) minus wrote
    rw [printSigned, if_pos negative, done, signed, if_pos negative, ← negated_magnitude value negative]
    exact wrote_prints decimalSize 0 after bytes _ (List.forall_mem_cons.mpr ⟨by decide, noNul⟩)
      (by rw [List.length_cons, decimalSize]; omega) whole
  · rw [printSigned, if_neg negative, signed, if_neg negative, ← nonnegative_magnitude value negative]
    exact print_unsigned_prints value bytes

theorem pad_wrote (left i : Nat) (b : Buffer) (start : i ≤ 8) (enough : 8 - i ≤ left) :
    Wrote b (padZeros left i b) i (List.replicate (8 - i) zeroDigit) := by
  induction left generalizing i b with
  | zero =>
      have none : 8 - i = 0 := by omega
      rw [none]
      exact wrote_nothing b i
  | succ left ih =>
      by_cases more : i < 8
      · have rest := ih (i + 1) (b.poke i zeroDigit) more (by omega)
        have size : 8 - i = (8 - (i + 1)) + 1 := by omega
        rw [padZeros, if_pos more, size, List.replicate_succ, ← List.singleton_append]
        exact wrote_append b _ _ i [zeroDigit] _ (wrote_poke b b i [] zeroDigit (wrote_nothing b i)) rest
      · have none : 8 - i = 0 := by omega
        rw [padZeros, if_neg more, none]
        exact wrote_nothing b i

theorem hex_length (value : BitVec 32) : (numeral 16 value.toNat).length ≤ 8 :=
  numeral_length 16 value.toNat 8 (by decide) (by decide) (unsigned_fits value).2

theorem padded_length (value : BitVec 32) : (padded value.toNat).length = 8 := by
  have short := hex_length value
  rw [padded, List.length_append, List.length_replicate]
  omega

theorem padded_no_nul (number : Nat) : ∀ c ∈ padded number, c ≠ 0 := by
  intro c member
  cases List.mem_append.mp member with
  | inl padding =>
      rw [List.eq_of_mem_replicate padding]
      decide
  | inr digit => exact numeral_no_nul 16 number (by decide) (by decide) c digit

-- The digits start at index 8, so the zeros from index L on and the L digits
-- make eight characters without a gap.
theorem print_alternate_prints (value : BitVec 32) (bytes : Bytes) :
    Prints (printAlternate value ⟨bytes, []⟩) hexSize (padded value.toNat) := by
  obtain ⟨written, done, wrote⟩ := itoa_wrote value 8 16 ⟨bytes, []⟩ (by decide) (by decide)
  have noNul := numeral_no_nul 16 value.toNat (by decide) (by decide)
  have short := hex_length value
  have joined (text : List UInt8) (same : numeral 16 value.toNat = text) (fits : text.length ≤ 8) :
      strlen (fun i => written.bytes (8 + i)) (hexSize - 8) = text.length ∧
      Wrote ⟨bytes, []⟩ (padZeros 8 text.length written) text.length (List.replicate (8 - text.length) zeroDigit ++
        text ++ [0]) := by
    rw [same] at wrote noNul
    have whole : (text ++ [(0 : UInt8)]).length = text.length + 1 := by rw [List.length_append, List.length_singleton]
    have holds (k : Nat) (bound : k < text.length) : written.bytes (8 + k) = text.getD k 0 := by
      rw [wrote.inside k (by omega), List.getD_append _ _ _ _ bound]
    have ends : written.bytes (8 + text.length) = 0 := by
      rw [wrote.inside _ (by omega), List.getD_append_right _ _ _ _ (Nat.le_refl _), Nat.sub_self]
      rfl
    refine ⟨?_, ?_⟩
    · rw [strlen_name, name_at written.bytes 8 text _ noNul (by rw [hexSize]; omega) holds ends]
    · have begins : text.length + (List.replicate (8 - text.length) zeroDigit).length = 8 := by
        rw [List.length_replicate]
        omega
      have digits := wrote
      rw [← begins] at digits
      rw [List.append_assoc]
      exact wrote_prepend ⟨bytes, []⟩ written _ text.length _ (text ++ [0]) digits
        (pad_wrote 8 text.length written fits (Nat.sub_le 8 _))
  obtain ⟨start, whole⟩ := joined _ rfl short
  rw [printAlternate, done, Option.bind_some, start]
  exact wrote_prints hexSize _ _ bytes (padded value.toNat) (padded_no_nul value.toNat)
    (by rw [padded_length, hexSize]; omega) whole

theorem numeral_no_minus (radix number : Nat) (base : 1 < radix) (top : radix ≤ 36) :
    (numeral radix number).head? ≠ some minusSign := by
  obtain ⟨digits, denotes, same⟩ := numeral_is radix number base
  have noMinus : ∀ digit < 36, lookup digit ≠ minusSign := by decide
  intro first
  rw [same, List.head?_map] at first
  obtain ⟨digit, lead, shown⟩ := Option.map_eq_some_iff.mp first
  have bound := denotes.small digit (List.mem_of_mem_head? lead)
  exact noMinus digit (by omega) shown

theorem decode_signed (number : Int) : decodeSigned (signed number) = some number := by
  have read := decode_numeral 10 number.natAbs (by decide) (by decide)
  by_cases negative : number < 0
  · rw [signed, if_pos negative, decodeSigned, if_pos rfl, read, Option.map_some]
    congr 1
    omega
  · have noMinus := numeral_no_minus 10 number.natAbs (by decide) (by decide)
    rw [signed, if_neg negative]
    cases digits : numeral 10 number.natAbs with
    | nil => exact absurd digits (numeral_not_empty 10 _ (by decide))
    | cons c rest =>
        rw [digits] at noMinus read
        have plain : c ≠ minusSign := fun same => noMinus (congrArg some same)
        rw [decodeSigned, if_neg plain, read, Option.map_some]
        congr 1
        omega

theorem decode_padded (number : Nat) : decode 16 (padded number) = some number := by
  obtain ⟨digits, denotes, same⟩ := numeral_is 16 number (by decide)
  have zeros (count : Nat) : List.replicate count zeroDigit = (List.replicate count 0).map lookup := by
    rw [List.map_replicate]
    rfl
  rw [padded, same, zeros, ← List.map_append, decode_digits 16 _ (by decide), Numeral.value_padded, denotes.value]
  intro digit member
  cases List.mem_append.mp member with
  | inl padding =>
      rw [List.eq_of_mem_replicate padding]
      decide
  | inr own => exact denotes.small digit own

theorem itoa_conversions_exact (value : BitVec 32) (bytes : Bytes) :
    (∀ radix buf, 1 < radix → radix ≤ 36 → ∃ after text, itoa value buf radix ⟨bytes, []⟩ = some after ∧
      (∀ other, IsNumeral radix value.toNat other ↔ other = text) ∧
      (∀ k ≤ text.length, after.bytes (buf + k) = (text ++ [0]).getD k 0) ∧
      (∀ i ∈ after.stores, buf ≤ i ∧ i < buf + 33)) ∧
    (∃ text, Prints (printUnsigned value ⟨bytes, []⟩) decimalSize text ∧ decode 10 text = some value.toNat) ∧
    (∃ text, Prints (printHex value ⟨bytes, []⟩) hexSize text ∧ decode 16 text = some value.toNat) ∧
    (∃ text, Prints (printSigned value ⟨bytes, []⟩) decimalSize text ∧ decodeSigned text = some value.toInt) ∧
    (∃ text, Prints (printAlternate value ⟨bytes, []⟩) hexSize text ∧ text.length = 8 ∧
      decode 16 text = some value.toNat) := by
  refine ⟨fun radix buf base top => ?_, ?_, ?_, ?_, ?_⟩
  · have bound : value.toNat < radix ^ 32 := Nat.lt_of_lt_of_le value.isLt (Nat.pow_le_pow_left base 32)
    obtain ⟨after, done, wrote⟩ := itoa_wrote value buf radix ⟨bytes, []⟩ base top
    have short := numeral_length radix value.toNat 32 base (by decide) bound
    have whole : (numeral radix value.toNat ++ [(0 : UInt8)]).length = (numeral radix value.toNat).length + 1 := by
      rw [List.length_append, List.length_singleton]
    refine ⟨after, _, done, fun other => ⟨numeral_unique radix value.toNat base other, fun same => ?_⟩, fun k within => ?_,
      fun i member => ?_⟩
    · rw [same]
      exact numeral_is radix value.toNat base
    · exact wrote.inside k (by omega)
    · cases wrote.stores i member with
      | inl old => cases old
      | inr inside => exact ⟨inside.1, by omega⟩
  · exact ⟨_, print_unsigned_prints value bytes, decode_numeral 10 _ (by decide) (by decide)⟩
  · exact ⟨_, print_hex_prints value bytes, decode_numeral 16 _ (by decide) (by decide)⟩
  · exact ⟨_, print_signed_prints value bytes, decode_signed value.toInt⟩
  · exact ⟨_, print_alternate_prints value bytes, padded_length value, decode_padded value.toNat⟩

end SimpleKernel.Output
