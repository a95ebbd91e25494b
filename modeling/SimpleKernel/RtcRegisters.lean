import Mathlib.Tactic.IntervalCases
import Mathlib.Logic.Function.Basic
import SimpleKernel.Library.Run
import SimpleKernel.Rtc

set_option autoImplicit false

namespace SimpleKernel.RtcRegisters

def commandPort : Nat := 0x70
def rtcPort : Nat := 0x71
def regA : UInt8 := 0x8A

structure Chip where
  index : UInt8
  registers : UInt8 → UInt8
  freqValue : Int

-- Bit 7 of the index only masks the NMI; the other seven select the register.
def Chip.selected (chip : Chip) : UInt8 := chip.index &&& 0x7F

def outb (data : UInt8) (port : Nat) (chip : Chip) : Chip :=
  if port = commandPort then { chip with index := data }
  else if port = rtcPort then { chip with registers := Function.update chip.registers chip.selected data }
  else chip

def inb (port : Nat) (chip : Chip) : UInt8 :=
  if port = rtcPort then chip.registers chip.selected else chip.index

def Chip.registerA (chip : Chip) : UInt8 := chip.registers (regA &&& 0x7F)

def openRtc (chip : Chip) : Int × Chip :=
  let read := outb regA commandPort chip
  let prev := inb rtcPort read
  let valFreq := setFreqRtc 2
  (0, outb (rateBits prev valFreq) rtcPort (outb regA commandPort read))

def writeRtc (frequency : BitVec 32) (chip : Chip) : Int × Chip :=
  let read := outb regA commandPort chip
  let prev := inb rtcPort read
  let valFreq := setFreqRtc frequency.toInt
  let kept := { read with freqValue := valFreq }
  (0, outb (rateBits prev valFreq) rtcPort (outb regA commandPort kept))

inductive Call where
  | openRtc
  | writeRtc (frequency : BitVec 32)
deriving DecidableEq

def Call.perform (chip : Chip) : Call → Int × Chip
  | .openRtc => RtcRegisters.openRtc chip
  | .writeRtc frequency => RtcRegisters.writeRtc frequency chip

def step (chip : Chip) (call : Call) : Chip := (call.perform chip).2

-- What the register pair hides: the calls as functions of register A alone.
def Chip.rtc (chip : Chip) : Rtc := ⟨chip.registerA, chip.freqValue⟩

theorem select_store (data : UInt8) (chip : Chip) :
    (outb data rtcPort (outb regA commandPort chip)).rtc = ⟨data, chip.freqValue⟩ := by
  have stored : (outb data rtcPort (outb regA commandPort chip)).registers =
      Function.update chip.registers (regA &&& 0x7F) data := rfl
  rw [Chip.rtc, Chip.registerA, stored, Function.update_self]
  rfl

theorem open_rtc_register (chip : Chip) :
    (openRtc chip).1 = (SimpleKernel.openRtc chip.rtc).1 ∧ (openRtc chip).2.rtc = (SimpleKernel.openRtc chip.rtc).2 :=
  ⟨rfl, select_store _ _⟩

theorem write_rtc_register (frequency : BitVec 32) (chip : Chip) :
    (writeRtc frequency chip).1 = (SimpleKernel.writeRtc frequency.toInt chip.rtc).1 ∧
      (writeRtc frequency chip).2.rtc = (SimpleKernel.writeRtc frequency.toInt chip.rtc).2 :=
  ⟨rfl, select_store _ _⟩

theorem other_registers_kept (call : Call) (chip : Chip) (register : UInt8) (other : register ≠ regA &&& 0x7F) :
    (step chip call).registers register = chip.registers register := by
  cases call with
  | openRtc => exact Function.update_of_ne other _ _
  | writeRtc frequency => exact Function.update_of_ne other _ _

theorem open_register_a (chip : Chip) : (step chip .openRtc).registerA = rateBits chip.registerA (setFreqRtc 2) :=
  congrArg Rtc.regA (open_rtc_register chip).2

theorem write_register_a (frequency : BitVec 32) (chip : Chip) :
    (step chip (.writeRtc frequency)).registerA = rateBits chip.registerA (setFreqRtc frequency.toInt) :=
  congrArg Rtc.regA (write_rtc_register frequency chip).2

def Accepted (frequency : Int) : Prop := 2 ≤ frequency ∧ frequency ≤ 1024 ∧ ∃ k : Nat, frequency = 2 ^ k

theorem accepted_exponent (frequency : Int) (accepted : Accepted frequency) :
    ∃ k : Nat, 1 ≤ k ∧ k ≤ 10 ∧ frequency = 2 ^ k := by
  obtain ⟨low, high, k, power⟩ := accepted
  refine ⟨k, ?_, ?_, power⟩
  · cases k with
    | zero => simp only [power, Int.pow_zero] at low; omega
    | succ n => exact Nat.succ_pos n
  · apply (Nat.pow_le_pow_iff_right (show 1 < 2 by decide)).mp
    have cast : ((2 ^ k : Nat) : Int) = frequency := by rw [power]; norm_cast
    omega

theorem exponent_accepted (k : Nat) (low : 1 ≤ k) (high : k ≤ 10) : Accepted (2 ^ k) := by
  refine ⟨?_, ?_, k, rfl⟩
  · interval_cases k <;> decide
  · interval_cases k <;> decide

instance (frequency : Int) : Decidable (Accepted frequency) :=
  decidable_of_iff (∃ k ∈ List.range' 1 10, frequency = 2 ^ k) <| by
    constructor
    · rintro ⟨k, member, power⟩
      obtain ⟨low, high⟩ := List.mem_range'_1.mp member
      rw [power]
      exact exponent_accepted k low (by omega)
    · intro accepted
      obtain ⟨k, low, high, power⟩ := accepted_exponent frequency accepted
      exact ⟨k, List.mem_range'_1.mpr ⟨low, by omega⟩, power⟩

theorem set_freq_accepted (k : Nat) (low : 1 ≤ k) (high : k ≤ 10) : setFreqRtc (2 ^ k) = 16 - k := by
  interval_cases k <;> rfl

theorem set_freq_rejected (frequency : Int) (rejected : ¬ Accepted frequency) : setFreqRtc frequency = -1 := by
  have differs (k : Nat) (low : 1 ≤ k) (high : k ≤ 10) : frequency ≠ 2 ^ k := by
    intro same
    rw [same] at rejected
    exact rejected (exponent_accepted k low high)
  have differing : frequency ≠ 1024 ∧ frequency ≠ 512 ∧ frequency ≠ 256 ∧ frequency ≠ 128 ∧ frequency ≠ 64 ∧
      frequency ≠ 32 ∧ frequency ≠ 16 ∧ frequency ≠ 8 ∧ frequency ≠ 4 ∧ frequency ≠ 2 :=
    ⟨differs 10 (by decide) (by decide), differs 9 (by decide) (by decide), differs 8 (by decide) (by decide),
      differs 7 (by decide) (by decide), differs 6 (by decide) (by decide), differs 5 (by decide) (by decide),
      differs 4 (by decide) (by decide), differs 3 (by decide) (by decide), differs 2 (by decide) (by decide),
      differs 1 (by decide) (by decide)⟩
  by_cases outside : frequency < 2 ∨ frequency > 1024
  · exact if_pos outside
  · rw [setFreqRtc, if_neg outside]
    simp only [differing, if_false]

theorem masked_union (a b mask : UInt8) : (a ||| b) &&& mask = (a &&& mask) ||| (b &&& mask) :=
  UInt8.toBitVec_inj.mp BitVec.and_or_distrib_right

theorem rate_bits_upper (regA value : UInt8) (low : value &&& 0xF0 = 0) :
    ((0xF0 &&& regA) ||| value) &&& 0xF0 = regA &&& 0xF0 := by
  calc ((0xF0 &&& regA) ||| value) &&& 0xF0
    _ = (0xF0 &&& regA &&& 0xF0) ||| (value &&& 0xF0) := masked_union _ _ _
    _ = 0xF0 &&& regA &&& 0xF0 := by rw [low, UInt8.or_zero]
    _ = regA &&& 0xF0 := by rw [UInt8.and_comm 0xF0 regA, UInt8.and_assoc, UInt8.and_self]

theorem rate_bits_lower (regA value : UInt8) (low : value &&& 0x0F = value) :
    ((0xF0 &&& regA) ||| value) &&& 0x0F = value := by
  calc ((0xF0 &&& regA) ||| value) &&& 0x0F
    _ = (0xF0 &&& regA &&& 0x0F) ||| (value &&& 0x0F) := masked_union _ _ _
    _ = (regA &&& (0xF0 &&& 0x0F)) ||| value := by rw [low, UInt8.and_comm 0xF0 regA, UInt8.and_assoc]
    _ = value := by
      rw [show (0xF0 &&& 0x0F : UInt8) = 0 from rfl, UInt8.and_zero, UInt8.zero_or]

-- The error code of set_freq_rtc is a byte of ones, so the merge keeps nothing
-- of the register.
theorem rate_bits_rejected (regA : UInt8) : rateBits regA (-1) = 0xFF := by
  change (0xF0 &&& regA) ||| (-1 : UInt8) = -1
  exact UInt8.or_neg_one

theorem rate_nibble (k : Nat) (low : 1 ≤ k) (high : k ≤ 10) :
    UInt8.ofNat ((16 - k : Int) % 256).toNat &&& 0xF0 = 0 ∧
      UInt8.ofNat ((16 - k : Int) % 256).toNat &&& 0x0F = UInt8.ofNat ((16 - k : Int) % 256).toNat ∧
      32768 >>> ((UInt8.ofNat ((16 - k : Int) % 256).toNat).toNat - 1) = 2 ^ k := by
  interval_cases k <;> decide

def Chip.rate (chip : Chip) : Nat := 32768 >>> ((chip.registerA &&& 0x0F).toNat - 1)

theorem rate_bits_accepted (regA : UInt8) (frequency : Int) (accepted : Accepted frequency) :
    rateBits regA (setFreqRtc frequency) &&& 0xF0 = regA &&& 0xF0 ∧
      ((32768 >>> ((rateBits regA (setFreqRtc frequency) &&& 0x0F).toNat - 1) : Nat) : Int) = frequency := by
  obtain ⟨k, low, high, power⟩ := accepted_exponent frequency accepted
  obtain ⟨noUpper, onlyLower, hertz⟩ := rate_nibble k low high
  rw [power, set_freq_accepted k low high]
  constructor
  · exact rate_bits_upper regA _ noUpper
  · rw [rateBits, rate_bits_lower regA _ onlyLower, hertz]
    norm_cast

def Call.frequency : Call → Int
  | .openRtc => 2
  | .writeRtc frequency => frequency.toInt

theorem step_register_a (chip : Chip) (call : Call) :
    (step chip call).registerA = rateBits chip.registerA (setFreqRtc call.frequency) := by
  cases call with
  | openRtc => exact open_register_a chip
  | writeRtc frequency => exact write_register_a frequency chip

theorem step_accepted (chip : Chip) (call : Call) (accepted : Accepted call.frequency) :
    (step chip call).registerA &&& 0xF0 = chip.registerA &&& 0xF0 ∧ ((step chip call).rate : Int) = call.frequency := by
  rw [Chip.rate, step_register_a]
  exact rate_bits_accepted chip.registerA call.frequency accepted

theorem rejected_write_registers (chip : Chip) (frequency : BitVec 32) (rejected : ¬ Accepted frequency.toInt) :
    (writeRtc frequency chip).1 = 0 ∧ (writeRtc frequency chip).2.registerA = 0xFF := by
  refine ⟨rfl, ?_⟩
  rw [← rate_bits_rejected chip.registerA, ← set_freq_rejected frequency.toInt rejected]
  exact write_register_a frequency chip

theorem run_upper_kept (start : Chip) (calls : List Call) (accepted : ∀ call ∈ calls, Accepted call.frequency) :
    (Run.final step start calls).registerA &&& 0xF0 = start.registerA &&& 0xF0 := by
  apply Run.guarded_invariant step (fun _ call => Accepted call.frequency)
    (fun chip => chip.registerA &&& 0xF0 = start.registerA &&& 0xF0)
  · intro chip call kept asked
    exact (step_accepted chip call asked).1.trans kept
  · rfl
  · exact Run.guarded_all step (fun call => Accepted call.frequency) start calls accepted

def acceptedBy (last : Option Int) (call : Call) : Option Int :=
  if Accepted call.frequency then some call.frequency else last

def lastAccepted (calls : List Call) : Option Int := Run.final acceptedBy none calls

structure Lawful (start : Chip) (before : List Call) (call : Call) : Prop where
  returned : ∀ frequency, call = .writeRtc frequency →
    (call.perform (Run.final step start before)).1 = if Accepted frequency.toInt then 0 else -1
  rejected : ∀ frequency, call = .writeRtc frequency → ¬ Accepted frequency.toInt →
    (step (Run.final step start before) call).registerA = (Run.final step start before).registerA
  upper : (step (Run.final step start before) call).registerA &&& 0xF0 = start.registerA &&& 0xF0
  rate : ∀ frequency, lastAccepted (before ++ [call]) = some frequency →
    ((step (Run.final step start before) call).rate : Int) = frequency

theorem accepted_call_lawful (start : Chip) (before : List Call) (call : Call)
    (earlier : ∀ other ∈ before, Accepted other.frequency) (accepted : Accepted call.frequency) :
    Lawful start before call := by
  obtain ⟨upper, rate⟩ := step_accepted (Run.final step start before) call accepted
  constructor
  · intro frequency same
    subst same
    change (0 : Int) = if Accepted frequency.toInt then 0 else -1
    exact (if_pos accepted).symm
  · intro frequency same rejected
    subst same
    exact absurd accepted rejected
  · exact upper.trans (run_upper_kept start before earlier)
  · intro frequency last
    rw [lastAccepted, Run.final_concat, acceptedBy, if_pos accepted] at last
    exact rate.trans (Option.some.inj last)

theorem registers_exact (start : Chip) (calls : List Call) :
    (∀ before call after, calls = before ++ call :: after → Lawful start before call) ↔
      ∀ frequency, Call.writeRtc frequency ∈ calls → Accepted frequency.toInt := by
  constructor
  · intro lawful frequency member
    obtain ⟨before, after, split⟩ := List.append_of_mem member
    have returned := (lawful before (.writeRtc frequency) after split).returned frequency rfl
    by_cases accepted : Accepted frequency.toInt
    · exact accepted
    · rw [if_neg accepted] at returned
      cases returned
  · intro accepted before call after split
    have every (other : Call) (member : other ∈ calls) : Accepted other.frequency := by
      cases other with
      | openRtc => exact exponent_accepted 1 (by decide) (by decide)
      | writeRtc frequency => exact accepted frequency member
    rw [split] at every
    exact accepted_call_lawful start before call (fun other member => every other (List.mem_append_left _ member))
      (every call (List.mem_append_right _ List.mem_cons_self))

def factoryChip : Chip := ⟨0, fun _ => 0x26, 0⟩

theorem refused_frequency_merged :
    (writeRtc 3 factoryChip).1 = 0 ∧ (writeRtc 3 factoryChip).2.registerA = 0xFF ∧
      ¬ Lawful factoryChip [] (.writeRtc 3) := by
  have rejected : ¬ Accepted (3 : BitVec 32).toInt := by decide
  refine ⟨rfl, (rejected_write_registers factoryChip 3 rejected).2, fun lawful => ?_⟩
  have returned := lawful.returned 3 rfl
  rw [if_neg rejected] at returned
  cases returned

end SimpleKernel.RtcRegisters
