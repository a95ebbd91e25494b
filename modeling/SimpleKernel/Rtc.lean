import Mathlib.Data.BitVec

set_option autoImplicit false

namespace SimpleKernel

structure Rtc where
  regA : UInt8
  freqValue : Int
deriving DecidableEq, Repr

def setFreqRtc (currFreq : Int) : Int :=
  if currFreq < 2 ∨ currFreq > 1024 then -1
  else if currFreq = 1024 then 0x06
  else if currFreq = 512 then 0x07
  else if currFreq = 256 then 0x08
  else if currFreq = 128 then 0x09
  else if currFreq = 64 then 0x0A
  else if currFreq = 32 then 0x0B
  else if currFreq = 16 then 0x0C
  else if currFreq = 8 then 0x0D
  else if currFreq = 4 then 0x0E
  else if currFreq = 2 then 0x0F
  else -1

-- outb of (0xF0 & prev) | val_freq; val_freq is a signed byte.
def rateBits (regA : UInt8) (valFreq : Int) : UInt8 := (0xF0 &&& regA) ||| UInt8.ofNat (valFreq % 256).toNat

def openRtc (rtc : Rtc) : Int × Rtc := (0, { rtc with regA := rateBits rtc.regA (setFreqRtc 2) })

def writeRtc (frequency : Int) (rtc : Rtc) : Int × Rtc :=
  (0, ⟨rateBits rtc.regA (setFreqRtc frequency), setFreqRtc frequency⟩)

-- read_rtc waits for an interrupt and touches neither the buffer nor the clock.
def readRtc : Int := 0

def closeRtc : Int := 0

end SimpleKernel
