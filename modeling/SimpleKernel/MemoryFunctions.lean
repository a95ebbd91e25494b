import Mathlib.Logic.Function.Basic
import Mathlib.Tactic.IntervalCases
import SimpleKernel.Library.Flags
import SimpleKernel.Library.Region

set_option autoImplicit false

namespace SimpleKernel.MemoryFunctions

open Region (Within Fits write fill copy)

abbrev Address := BitVec 32
abbrev Memory := Address → UInt8

def storeByte (address : Address) (value : UInt8) (memory : Memory) : Memory := Function.update memory address value

def byteOf (value : BitVec 32) (j : Nat) : UInt8 := UInt8.ofBitVec (value.extractLsb' (8 * j) 8)

def storeDword (address : Address) (value : BitVec 32) (memory : Memory) : Memory :=
  storeByte (address + 3) (byteOf value 3) (storeByte (address + 2) (byteOf value 2)
    (storeByte (address + 1) (byteOf value 1) (storeByte address (byteOf value 0) memory)))

def loadDword (address : Address) (memory : Memory) : BitVec 32 :=
  (memory (address + 3)).toBitVec ++ (memory (address + 2)).toBitVec ++ (memory (address + 1)).toBitVec ++
    (memory address).toBitVec

-- The counters ecx and edx only ever count down to zero, so they are numbers
-- here; edi and esi may wrap behind the last byte.
def repStosl (eax : BitVec 32) : Nat → Address → Memory → Address × Memory
  | 0, edi, memory => (edi, memory)
  | ecx + 1, edi, memory => repStosl eax ecx (edi + 4) (storeDword edi eax memory)

def memsetBottom (eax : BitVec 32) : Nat → Address → Memory → Memory
  | 0, _, memory => memory
  | edx + 1, edi, memory => memsetBottom eax edx (edi + 1) (storeByte edi (byteOf eax 0) memory)

def memsetAligned (eax : BitVec 32) (ecx : Nat) (edi : Address) (memory : Memory) : Memory :=
  let words := repStosl eax (ecx >>> 2) edi memory
  memsetBottom eax (ecx &&& 3) words.1 words.2

def memsetTop (eax : BitVec 32) : Nat → Address → Memory → Memory
  | 0, _, memory => memory
  | ecx + 1, edi, memory =>
      if Flags.equal (Flags.test edi 3) then memsetAligned eax (ecx + 1) edi memory
      else memsetTop eax ecx (edi + 1) (storeByte edi (byteOf eax 0) memory)

def memset (s : Address) (c n : BitVec 32) (memory : Memory) : Address × Memory :=
  let c := c &&& 0xFF
  (s, memsetTop (c <<< 24 ||| c <<< 16 ||| c <<< 8 ||| c) n.toNat s memory)

def repMovsl : Nat → Address → Address → Memory → Address × Address × Memory
  | 0, edi, esi, memory => (edi, esi, memory)
  | ecx + 1, edi, esi, memory => repMovsl ecx (edi + 4) (esi + 4) (storeDword edi (loadDword esi memory) memory)

def memcpyBottom : Nat → Address → Address → Memory → Memory
  | 0, _, _, memory => memory
  | edx + 1, edi, esi, memory => memcpyBottom edx (edi + 1) (esi + 1) (storeByte edi (memory esi) memory)

def memcpyAligned (ecx : Nat) (edi esi : Address) (memory : Memory) : Memory :=
  let words := repMovsl (ecx >>> 2) edi esi memory
  memcpyBottom (ecx &&& 3) words.1 words.2.1 words.2.2

def memcpyTop : Nat → Address → Address → Memory → Memory
  | 0, _, _, memory => memory
  | ecx + 1, edi, esi, memory =>
      if Flags.equal (Flags.test edi 3) then memcpyAligned (ecx + 1) edi esi memory
      else memcpyTop ecx (edi + 1) (esi + 1) (storeByte edi (memory esi) memory)

def memcpy (dest src : Address) (n : BitVec 32) (memory : Memory) : Address × Memory :=
  (dest, memcpyTop n.toNat dest src memory)

def repMovsb (step : Address) : Nat → Address → Address → Memory → Memory
  | 0, _, _, memory => memory
  | ecx + 1, edi, esi, memory => repMovsb step ecx (edi + step) (esi + step) (storeByte edi (memory esi) memory)

def memmove (dest src : Address) (n : BitVec 32) (memory : Memory) : Address × Memory :=
  if Flags.below (Flags.compare src dest) then (dest, repMovsb (-1) n.toNat (dest + n - 1) (src + n - 1) memory)
  else (dest, repMovsb 1 n.toNat dest src memory)

theorem store_byte_write (address : Address) (values : Nat → UInt8) (memory : Memory) :
    storeByte address (values 0) memory = write address 1 values memory := by
  funext other
  by_cases same : other = address
  · have within : Within address 1 other := by
      rw [same, Within]
      omega
    rw [write, if_pos within, same, BitVec.sub_self]
    exact Function.update_self _ _ _
  · have apart : ¬ Within address 1 other := by
      intro within
      rw [Within] at within
      exact same (BitVec.eq_of_toNat_eq (by omega))
    rw [write, if_neg apart]
    exact Function.update_of_ne same _ _

theorem store_byte_after (base : Address) (count : Nat) (values : Nat → UInt8) (memory : Memory)
    (fits : Fits base (count + 1)) :
    storeByte (base + BitVec.ofNat 32 count) (values count) (write base count values memory) =
      write base (count + 1) values memory := by
  rw [← Region.write_append base count 1 values memory fits]
  exact store_byte_write _ (fun i => values (count + i)) _

theorem store_dword_write (address : Address) (value : BitVec 32) (memory : Memory) (fits : Fits address 4) :
    storeDword address value memory = write address 4 (byteOf value) memory := by
  have first : storeByte address (byteOf value 0) memory = write address 1 (byteOf value) memory :=
    store_byte_write address (byteOf value) memory
  rw [← store_byte_after address 3 (byteOf value) memory fits,
    ← store_byte_after address 2 (byteOf value) memory (Region.fits_first address 3 1 fits),
    ← store_byte_after address 1 (byteOf value) memory (Region.fits_first address 2 2 fits), ← first]
  rfl

def lowByte (c : BitVec 32) : UInt8 := byteOf c 0

def spread (c : BitVec 32) : BitVec 32 := c <<< 24 ||| c <<< 16 ||| c <<< 8 ||| c

theorem low_byte_mask (c : BitVec 32) : c &&& 0xFF = (c.extractLsb' 0 8).setWidth 32 := by
  apply BitVec.eq_of_getLsbD_eq
  intro i inside
  have mask : ∀ k < 32, (0xFF : BitVec 32).getLsbD k = decide (k < 8) := by decide
  rw [BitVec.getLsbD_and, mask i inside, BitVec.getLsbD_setWidth, BitVec.getLsbD_extractLsb', Nat.zero_add,
    decide_eq_true inside, Bool.true_and, Bool.and_comm]

theorem spread_byte (c : BitVec 32) (j : Nat) (bound : j < 4) : byteOf (spread (c &&& 0xFF)) j = lowByte c := by
  have each : ∀ low : BitVec 8, ∀ k < 4, byteOf (spread (low.setWidth 32)) k = UInt8.ofBitVec low := by decide +kernel
  rw [low_byte_mask]
  exact each _ j bound

theorem dword_bytes (a b c d : BitVec 8) :
    (d ++ c ++ b ++ a).extractLsb' 0 8 = a ∧ (d ++ c ++ b ++ a).extractLsb' 8 8 = b ∧
      (d ++ c ++ b ++ a).extractLsb' 16 8 = c ∧ (d ++ c ++ b ++ a).extractLsb' 24 8 = d := by
  refine ⟨?_, ?_, ?_, ?_⟩
  all_goals
    apply BitVec.eq_of_getLsbD_eq
    intro i inside
    simp only [BitVec.getLsbD_extractLsb', BitVec.getLsbD_append, inside, decide_true, Bool.true_and]
    grind

theorem load_dword_byte (address : Address) (memory : Memory) (j : Nat) (bound : j < 4) :
    byteOf (loadDword address memory) j = memory (address + BitVec.ofNat 32 j) := by
  obtain ⟨zero, one, two, three⟩ := dword_bytes (memory address).toBitVec (memory (address + 1)).toBitVec
    (memory (address + 2)).toBitVec (memory (address + 3)).toBitVec
  interval_cases j
  · rw [BitVec.add_zero]
    exact congrArg UInt8.ofBitVec zero
  · exact congrArg UInt8.ofBitVec one
  · exact congrArg UInt8.ofBitVec two
  · exact congrArg UInt8.ofBitVec three

theorem store_byte_fill (edi : Address) (value : UInt8) (memory : Memory) :
    storeByte edi value memory = fill edi 1 value memory :=
  store_byte_write edi (fun _ => value) memory

theorem store_byte_copy (edi esi : Address) (memory : Memory) :
    storeByte edi (memory esi) memory = copy edi esi 1 memory := by
  have stored := store_byte_write edi (fun i => memory (esi + BitVec.ofNat 32 i)) memory
  rw [BitVec.add_zero] at stored
  exact stored

theorem store_dword_fill (eax : BitVec 32) (value : UInt8) (edi : Address) (memory : Memory) (fits : Fits edi 4)
    (bytes : ∀ j < 4, byteOf eax j = value) : storeDword edi eax memory = fill edi 4 value memory := by
  rw [store_dword_write edi eax memory fits]
  exact Region.write_congr edi 4 _ _ memory bytes

theorem store_dword_copy (edi esi : Address) (memory : Memory) (fits : Fits edi 4) :
    storeDword edi (loadDword esi memory) memory = copy edi esi 4 memory := by
  rw [store_dword_write edi _ memory fits]
  exact Region.write_congr edi 4 _ _ memory (load_dword_byte esi memory)

theorem shifted_parts (n : Nat) : 4 * (n >>> 2) + (n &&& 3) = n := by
  have rest : n &&& 3 = n % 4 := Nat.and_two_pow_sub_one_eq_mod n 2
  rw [rest, Nat.shiftRight_eq_div_pow]
  omega

theorem rep_stosl_fill (eax : BitVec 32) (value : UInt8) (ecx : Nat) (edi : Address) (memory : Memory)
    (fits : Fits edi (4 * ecx))
    (bytes : ∀ j < 4, byteOf eax j = value) :
    repStosl eax ecx edi memory = (edi + BitVec.ofNat 32 (4 * ecx), fill edi (4 * ecx) value memory) := by
  induction ecx generalizing edi memory with
  | zero =>
      rw [repStosl, Nat.mul_zero, BitVec.add_zero]
      exact congrArg (Prod.mk edi) (Region.write_none edi _ memory).symm
  | succ ecx ih =>
      have size : 4 * (ecx + 1) = 4 + 4 * ecx := by omega
      rw [size] at fits ⊢
      rw [repStosl, store_dword_fill eax value edi memory (Region.fits_first edi 4 _ fits) bytes,
        ih (edi + 4) _ (Region.fits_rest edi 4 _ fits)]
      have filled := Region.fill_append edi 4 (4 * ecx) value memory fits
      have place := Region.source_place edi 4 (4 * ecx)
      exact Prod.ext place filled

theorem memset_bottom_fill (eax : BitVec 32) (edx : Nat) (edi : Address) (memory : Memory) (fits : Fits edi edx) :
    memsetBottom eax edx edi memory = fill edi edx (byteOf eax 0) memory := by
  induction edx generalizing edi memory with
  | zero => exact (Region.write_none edi _ memory).symm
  | succ edx ih =>
      rw [Nat.add_comm] at fits ⊢
      rw [Nat.add_comm, memsetBottom, store_byte_fill, ih (edi + 1) _ (Region.fits_rest edi 1 edx fits), Nat.add_comm]
      exact Region.fill_append edi 1 edx (byteOf eax 0) memory fits

theorem memset_top_fill (eax : BitVec 32) (ecx : Nat) (edi : Address) (memory : Memory) (fits : Fits edi ecx)
    (bytes : ∀ j < 4, byteOf eax j = byteOf eax 0) : memsetTop eax ecx edi memory = fill edi ecx (byteOf eax 0) memory := by
  induction ecx generalizing edi memory with
  | zero => exact (Region.write_none edi _ memory).symm
  | succ ecx ih =>
      cases aligned : Flags.equal (Flags.test edi 3) with
      | true =>
          have parts := shifted_parts (ecx + 1)
          rw [memsetTop, if_pos aligned, memsetAligned]
          rw [← parts] at fits
          rw [rep_stosl_fill eax _ _ edi memory (Region.fits_first edi _ _ fits) bytes,
            memset_bottom_fill eax _ _ _ (Region.fits_rest edi _ _ fits), Region.fill_append edi _ _ _ memory fits, parts]
      | false =>
          have whole : ecx + 1 = 1 + ecx := Nat.add_comm ecx 1
          rw [whole] at fits
          rw [memsetTop, if_neg (by rw [aligned]; decide), store_byte_fill,
            ih (edi + 1) _ (Region.fits_rest edi 1 ecx fits), whole]
          exact Region.fill_append edi 1 ecx (byteOf eax 0) memory fits

theorem memset_fill (s : Address) (c n : BitVec 32) (memory : Memory) (fits : Fits s n.toNat) :
    memset s c n memory = (s, fill s n.toNat (lowByte c) memory) := by
  have low := spread_byte c 0 (by decide)
  have bytes (j : Nat) (bound : j < 4) : byteOf (spread (c &&& 0xFF)) j = byteOf (spread (c &&& 0xFF)) 0 := by
    rw [spread_byte c j bound, low]
  have filled := memset_top_fill (spread (c &&& 0xFF)) n.toNat s memory fits bytes
  rw [low] at filled
  exact congrArg (Prod.mk s) filled

structure Upwards (dest src : Address) (count : Nat) : Prop where
  destFits : Fits dest count
  srcFits : Fits src count
  clear : dest.toNat ≤ src.toNat ∨ src.toNat + count ≤ dest.toNat

theorem upwards_first (dest src : Address) (first rest : Nat) (upwards : Upwards dest src (first + rest)) :
    Upwards dest src first :=
  ⟨Region.fits_first dest first rest upwards.destFits, Region.fits_first src first rest upwards.srcFits,
    upwards.clear.imp_right fun apart => by omega⟩

theorem upwards_rest (dest src : Address) (first rest : Nat) (upwards : Upwards dest src (first + rest)) :
    Upwards (dest + BitVec.ofNat 32 first) (src + BitVec.ofNat 32 first) rest := by
  refine ⟨Region.fits_rest dest first rest upwards.destFits, Region.fits_rest src first rest upwards.srcFits, ?_⟩
  have clear := upwards.clear
  cases Region.fits_later dest first rest upwards.destFits with
  | inl none => omega
  | inr place =>
      cases Region.fits_later src first rest upwards.srcFits with
      | inl none => omega
      | inr source => omega

theorem upwards_copy (dest src : Address) (first rest : Nat) (memory : Memory) (upwards : Upwards dest src (first + rest)) :
    copy (dest + BitVec.ofNat 32 first) (src + BitVec.ofNat 32 first) rest (copy dest src first memory) =
      copy dest src (first + rest) memory := by
  apply Region.copy_append dest src first rest memory upwards.destFits
  intro i past inside within
  have place := Region.offset_inside src (first + rest) i upwards.srcFits inside
  have clear := upwards.clear
  rw [Within, place] at within
  omega

theorem rep_movsl_copy (ecx : Nat) (edi esi : Address) (memory : Memory) (upwards : Upwards edi esi (4 * ecx)) :
    repMovsl ecx edi esi memory =
      (edi + BitVec.ofNat 32 (4 * ecx), esi + BitVec.ofNat 32 (4 * ecx), copy edi esi (4 * ecx) memory) := by
  induction ecx generalizing edi esi memory with
  | zero =>
      rw [repMovsl, Nat.mul_zero, BitVec.add_zero, BitVec.add_zero, copy, Region.write_none]
  | succ ecx ih =>
      have size : 4 * (ecx + 1) = 4 + 4 * ecx := by omega
      rw [size] at upwards ⊢
      rw [repMovsl, store_dword_copy edi esi memory (upwards_first edi esi 4 _ upwards).destFits,
        ih (edi + 4) (esi + 4) _ (upwards_rest edi esi 4 _ upwards)]
      have copied := upwards_copy edi esi 4 (4 * ecx) memory upwards
      have place := Region.source_place edi 4 (4 * ecx)
      have source := Region.source_place esi 4 (4 * ecx)
      exact Prod.ext place (Prod.ext source copied)

theorem memcpy_bottom_copy (edx : Nat) (edi esi : Address) (memory : Memory) (upwards : Upwards edi esi edx) :
    memcpyBottom edx edi esi memory = copy edi esi edx memory := by
  induction edx generalizing edi esi memory with
  | zero => exact (Region.write_none edi _ memory).symm
  | succ edx ih =>
      have whole : edx + 1 = 1 + edx := Nat.add_comm edx 1
      rw [whole] at upwards
      rw [memcpyBottom, store_byte_copy, ih (edi + 1) (esi + 1) _ (upwards_rest edi esi 1 edx upwards), whole]
      exact upwards_copy edi esi 1 edx memory upwards

theorem memcpy_top_copy (ecx : Nat) (edi esi : Address) (memory : Memory) (upwards : Upwards edi esi ecx) :
    memcpyTop ecx edi esi memory = copy edi esi ecx memory := by
  induction ecx generalizing edi esi memory with
  | zero => exact (Region.write_none edi _ memory).symm
  | succ ecx ih =>
      cases aligned : Flags.equal (Flags.test edi 3) with
      | true =>
          have parts := shifted_parts (ecx + 1)
          rw [memcpyTop, if_pos aligned, memcpyAligned]
          rw [← parts] at upwards
          rw [rep_movsl_copy _ edi esi memory (upwards_first edi esi _ _ upwards),
            memcpy_bottom_copy _ _ _ _ (upwards_rest edi esi _ _ upwards), upwards_copy edi esi _ _ memory upwards, parts]
      | false =>
          have whole : ecx + 1 = 1 + ecx := Nat.add_comm ecx 1
          rw [whole] at upwards
          rw [memcpyTop, if_neg (by rw [aligned]; decide), store_byte_copy,
            ih (edi + 1) (esi + 1) _ (upwards_rest edi esi 1 ecx upwards), whole]
          exact upwards_copy edi esi 1 ecx memory upwards

theorem rep_movsb_upwards (ecx : Nat) (edi esi : Address) (memory : Memory) (upwards : Upwards edi esi ecx) :
    repMovsb 1 ecx edi esi memory = copy edi esi ecx memory := by
  induction ecx generalizing edi esi memory with
  | zero => exact (Region.write_none edi _ memory).symm
  | succ ecx ih =>
      have whole : ecx + 1 = 1 + ecx := Nat.add_comm ecx 1
      rw [whole] at upwards
      rw [repMovsb, store_byte_copy, ih (edi + 1) (esi + 1) _ (upwards_rest edi esi 1 ecx upwards), whole]
      exact upwards_copy edi esi 1 ecx memory upwards

theorem last_place (base : Address) (count : Nat) :
    base + BitVec.ofNat 32 (count + 1) - 1 = base + BitVec.ofNat 32 count := by
  have whole : base + BitVec.ofNat 32 (count + 1) = base + BitVec.ofNat 32 count + 1 := by
    rw [BitVec.ofNat_add, BitVec.add_assoc]
    rfl
  rw [whole, BitVec.add_sub_cancel]

-- Downwards the source lies below the destination, and the bytes still to be
-- read lie below the byte just written.
theorem rep_movsb_downwards (ecx : Nat) (dest src : Address) (memory : Memory) (fits : Fits dest ecx)
    (fitsSource : Fits src ecx)
    (lower : src.toNat < dest.toNat) :
    repMovsb (-1) ecx (dest + BitVec.ofNat 32 ecx - 1) (src + BitVec.ofNat 32 ecx - 1) memory = copy dest src ecx memory := by
  induction ecx generalizing memory with
  | zero => exact (Region.write_none dest _ memory).symm
  | succ ecx ih =>
      have back (base : Address) : base + BitVec.ofNat 32 ecx + -1 = base + BitVec.ofNat 32 ecx - 1 :=
        (BitVec.sub_eq_add_neg _ _).symm
      rw [last_place, last_place, repMovsb, store_byte_copy, back, back,
        ih _ (Region.fits_first dest ecx 1 fits) (Region.fits_first src ecx 1 fitsSource)]
      apply Region.copy_prepend dest src ecx 1 memory fits
      intro i inside within
      have place := Region.offset_inside dest (ecx + 1) ecx fits (Nat.lt_succ_self ecx)
      have source := Region.offset_inside src (ecx + 1) i fitsSource (by omega)
      rw [Within, place, source] at within
      omega

theorem memmove_copy (dest src : Address) (n : BitVec 32) (memory : Memory) (fits : Fits dest n.toNat)
    (fitsSource : Fits src n.toNat) : memmove dest src n memory = (dest, copy dest src n.toNat memory) := by
  have direction := Flags.compare_below src dest
  cases lower : Flags.below (Flags.compare src dest) with
  | true =>
      have less := direction.mp lower
      have copied := rep_movsb_downwards n.toNat dest src memory fits fitsSource less
      rw [BitVec.ofNat_toNat, BitVec.setWidth_eq] at copied
      rw [memmove, if_pos lower, copied]
  | false =>
      rw [lower] at direction
      have upwards : Upwards dest src n.toNat := ⟨fits, fitsSource, Or.inl (by
        rw [Bool.false_eq_true, false_iff] at direction
        omega)⟩
      rw [memmove, if_neg (by rw [lower]; decide), rep_movsb_upwards n.toNat dest src memory upwards]

def Apart (dest src : Address) (count : Nat) : Prop := dest.toNat + count ≤ src.toNat ∨ src.toNat + count ≤ dest.toNat

theorem memcpy_copy (dest src : Address) (n : BitVec 32) (memory : Memory) (fits : Fits dest n.toNat)
    (fitsSource : Fits src n.toNat) (apart : Apart dest src n.toNat) :
    memcpy dest src n memory = (dest, copy dest src n.toNat memory) := by
  have upwards : Upwards dest src n.toNat := ⟨fits, fitsSource, by rw [Apart] at apart; omega⟩
  rw [memcpy, memcpy_top_copy n.toNat dest src memory upwards]

structure Holds (base : Address) (count : Nat) (values : Nat → UInt8) (before after : Memory) : Prop where
  inside : ∀ i < count, after (base + BitVec.ofNat 32 i) = values i
  outside : ∀ address, ¬ Within base count address → after address = before address

theorem write_holds (base : Address) (count : Nat) (values : Nat → UInt8) (before : Memory) (fits : Fits base count) :
    Holds base count values before (write base count values before) :=
  ⟨fun i bound => Region.write_at base count i values before fits bound, fun _ apart => if_neg apart⟩

theorem memory_functions_exact (memory : Memory) (n : BitVec 32) :
    (∀ s c, Fits s n.toNat → (memset s c n memory).1 = s ∧
      Holds s n.toNat (fun _ => lowByte c) memory (memset s c n memory).2) ∧
    (∀ dest src, Fits dest n.toNat → Fits src n.toNat → Apart dest src n.toNat → (memcpy dest src n memory).1 = dest ∧
      Holds dest n.toNat (fun i => memory (src + BitVec.ofNat 32 i)) memory (memcpy dest src n memory).2) ∧
    (∀ dest src, Fits dest n.toNat → Fits src n.toNat → (memmove dest src n memory).1 = dest ∧
      Holds dest n.toNat (fun i => memory (src + BitVec.ofNat 32 i)) memory (memmove dest src n memory).2) := by
  refine ⟨fun s c fits => ?_, fun dest src fits fitsSource apart => ?_, fun dest src fits fitsSource => ?_⟩
  · rw [memset_fill s c n memory fits]
    exact ⟨rfl, write_holds s n.toNat _ memory fits⟩
  · rw [memcpy_copy dest src n memory fits fitsSource apart]
    exact ⟨rfl, write_holds dest n.toNat _ memory fits⟩
  · rw [memmove_copy dest src n memory fits fitsSource]
    exact ⟨rfl, write_holds dest n.toNat _ memory fits⟩

theorem overlapping_move_exact :
    let memory : Memory := fun address => UInt8.ofNat address.toNat
    Holds 0xFFFFFFFB 5 (fun i => memory (0xFFFFFFFA + BitVec.ofNat 32 i)) memory
      (memmove 0xFFFFFFFB 0xFFFFFFFA 5 memory).2 := by
  intro memory
  exact ((memory_functions_exact memory 5).2.2 0xFFFFFFFB 0xFFFFFFFA (by decide) (by decide)).2

end SimpleKernel.MemoryFunctions
