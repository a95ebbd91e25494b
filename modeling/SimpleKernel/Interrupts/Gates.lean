import SimpleKernel.Library.Handlers

set_option autoImplicit false

namespace SimpleKernel.Interrupts

open BitField (Field get put putAll)
open X86 (Word Gate)

-- idt_desc_t, with val[0] in its lower half.
abbrev Entry := BitVec 64
abbrev Idt := BitVec 8 → Entry

def offset1500 : Field := ⟨0, 16⟩
def segSelector : Field := ⟨16, 16⟩
def reserved4 : Field := ⟨32, 8⟩
def reserved3 : Field := ⟨40, 1⟩
def reserved2 : Field := ⟨41, 1⟩
def reserved1 : Field := ⟨42, 1⟩
def sizeBit : Field := ⟨43, 1⟩
def reserved0 : Field := ⟨44, 1⟩
def dplBits : Field := ⟨45, 2⟩
def presentBit : Field := ⟨47, 1⟩
def offset3116 : Field := ⟨48, 16⟩

def kernelCs : Nat := 0x10
def kernelPl : Nat := 0
def userPl : Nat := 3

def setIdtEntry (handler : Word) : List (Field × Int) :=
  [(offset3116, ((handler &&& 0xFFFF0000) >>> 16).toNat), (offset1500, (handler &&& 0xFFFF).toNat)]

def gateBits (level trap : Nat) : List (Field × Int) :=
  [(presentBit, 1), (dplBits, level), (reserved0, 0), (reserved1, 1), (reserved2, 1), (reserved4, 0), (reserved3, trap),
    (sizeBit, 1), (segSelector, kernelCs)]

-- The three functions differ in the level and in the bit of a trap gate.
def setGate (level trap : Nat) (n : BitVec 8) (addr : Word) (idt : Idt) : Idt :=
  Function.update idt n (putAll (gateBits level trap ++ setIdtEntry addr) (idt n))

def setIntrGate : BitVec 8 → Word → Idt → Idt := setGate kernelPl 0
def setTrapGate : BitVec 8 → Word → Idt → Idt := setGate kernelPl 1
def setSystemGate : BitVec 8 → Word → Idt → Idt := setGate userPl 0

inductive Exception where
  | sigDe
  | sigDb
  | sigNmi
  | sigBp
  | sigOf
  | sigBr
  | sigUd
  | sigNm
  | sigDf
  | sigSo
  | sigTs
  | sigNp
  | sigSs
  | sigGp
  | sigPf
  | sigMf
  | sigAc
  | sigMc
  | sigXf
deriving DecidableEq, Repr

-- 15 is reserved.
def Exception.vector : Exception → BitVec 8
  | .sigDe => 0
  | .sigDb => 1
  | .sigNmi => 2
  | .sigBp => 3
  | .sigOf => 4
  | .sigBr => 5
  | .sigUd => 6
  | .sigNm => 7
  | .sigDf => 8
  | .sigSo => 9
  | .sigTs => 10
  | .sigNp => 11
  | .sigSs => 12
  | .sigGp => 13
  | .sigPf => 14
  | .sigMf => 16
  | .sigAc => 17
  | .sigMc => 18
  | .sigXf => 19

def exceptions : List Exception :=
  [.sigDe, .sigDb, .sigNmi, .sigBp, .sigOf, .sigBr, .sigUd, .sigNm, .sigDf, .sigSo, .sigTs, .sigNp, .sigSs, .sigGp, .sigPf,
    .sigMf, .sigAc, .sigMc, .sigXf]

def sigRtc : BitVec 8 := 40
def sigKbd : BitVec 8 := 33
def sigPit : BitVec 8 := 32
def sigSyscall : BitVec 8 := 0x80
def sigIdk : BitVec 8 := 0xFF

inductive Handler where
  | exception (cause : Exception)
  | kbd
  | rtc
  | pit
  | syscall
  | idk
deriving DecidableEq, Repr

def initIdt (address : Handler → Word) (idt : Idt) : Idt :=
  let unknown := (List.range 256).foldl (fun idt i => setTrapGate (BitVec.ofNat 8 i) (address .idk) idt) idt
  let excepted := exceptions.foldl (fun idt cause => setIntrGate cause.vector (address (.exception cause)) idt) unknown
  setSystemGate sigSyscall (address .syscall)
    (setIntrGate sigPit (address .pit) (setIntrGate sigRtc (address .rtc) (setIntrGate sigKbd (address .kbd) excepted)))

def gateTo (level trap : Nat) (addr : Word) : Gate := ⟨addr.toNat, kernelCs, X86.interruptGate + trap, 0, level, 1⟩

theorem high_half (addr : Word) : ((addr &&& 0xFFFF0000) >>> 16).toNat = addr.toNat / 2 ^ 16 := by
  have mask : (0xFFFF0000 : Word) = BitVec.allOnes 32 <<< 16 := rfl
  have bits : (addr &&& 0xFFFF0000) >>> 16 = addr >>> 16 := by
    apply BitVec.eq_of_getLsbD_eq
    intro i bound
    rw [mask, BitVec.getLsbD_ushiftRight, BitVec.getLsbD_ushiftRight, BitVec.getLsbD_and, BitVec.getLsbD_shiftLeft,
      BitVec.getLsbD_allOnes]
    by_cases inside : 16 + i < 32
    · have shifted : ¬ 16 + i < 16 := by omega
      simp [inside, shifted, bound]
    · rw [BitVec.getLsbD_of_ge addr _ (Nat.le_of_not_lt inside), Bool.false_and]
  rw [bits, BitVec.toNat_ushiftRight, Nat.shiftRight_eq_div_pow]

theorem low_half (addr : Word) : (addr &&& 0xFFFF).toNat = addr.toNat % 2 ^ 16 := by
  rw [BitVec.toNat_and]
  exact Nat.and_two_pow_sub_one_eq_mod addr.toNat 16

theorem halves (addr : Word) :
    (BitVec.ofInt 16 (addr &&& 0xFFFF).toNat).toNat + 2 ^ 16 * (BitVec.ofInt 16 ((addr &&& 0xFFFF0000) >>> 16).toNat).toNat =
      addr.toNat := by
  have size := addr.isLt
  rw [low_half, high_half]
  simp only [BitVec.ofInt_natCast, BitVec.toNat_ofNat]
  omega

theorem entry_read (level trap : Nat) (addr : Word) (entry : Entry) (levels : level < 4) (kinds : trap < 2) :
    Gate.read (putAll (gateBits level trap ++ setIdtEntry addr) entry) = gateTo level trap addr := by
  have kind (word : Entry) : get ⟨40, 4⟩ word =
      get reserved3 word + 2 * (get reserved2 word + 2 * (get reserved1 word + 2 * get sizeBit word)) := by
    rw [BitField.get_split 40 1 3, BitField.get_split 41 1 2, BitField.get_split 42 1 1]
    rfl
  have stored (field : Field) (value : Int) (fits : field.lo + field.width ≤ 64)
      (apart : BitField.separate field (gateBits level trap ++ setIdtEntry addr) = true)
      (last : BitField.lastStored field (gateBits level trap ++ setIdtEntry addr) = some value) :
      get field (putAll (gateBits level trap ++ setIdtEntry addr) entry) = (BitVec.ofInt field.width value).toNat := by
    rw [BitField.get_putAll field _ entry fits apart, last]
    rfl
  have levelFits : (BitVec.ofInt 2 level).toNat = level := by
    rw [BitVec.ofInt_natCast, BitVec.toNat_ofNat]
    exact Nat.mod_eq_of_lt levels
  have kindFits : (BitVec.ofInt 1 trap).toNat = trap := by
    rw [BitVec.ofInt_natCast, BitVec.toNat_ofNat]
    exact Nat.mod_eq_of_lt kinds
  rw [Gate.read, gateTo, kind]
  congr 1
  · exact (congrArg₂ (· + 2 ^ 16 * ·) (stored offset1500 _ (by decide) rfl rfl)
      (stored offset3116 _ (by decide) rfl rfl)).trans
      (halves addr)
  · exact stored segSelector _ (by decide) rfl rfl
  · rw [stored reserved3 _ (by decide) rfl rfl, stored reserved2 _ (by decide) rfl rfl,
      stored reserved1 _ (by decide) rfl rfl, stored sizeBit _ (by decide) rfl rfl]
    exact (congrArg (· + 14) kindFits).trans (Nat.add_comm trap 14)
  · exact stored reserved0 _ (by decide) rfl rfl
  · exact (stored dplBits _ (by decide) rfl rfl).trans levelFits
  · exact stored presentBit _ (by decide) rfl rfl

theorem set_gate_read (level trap : Nat) (n : BitVec 8) (addr : Word) (idt : Idt) (levels : level < 4) (kinds : trap < 2) :
    Gate.read ∘ setGate level trap n addr idt = Function.update (Gate.read ∘ idt) n (gateTo level trap addr) := by
  rw [setGate, Function.comp_update, entry_read level trap addr (idt n) levels kinds]

theorem unknown_read (addr : Word) (count : Nat) (idt : Idt) (v : BitVec 8) (inside : v.toNat < count) :
    Gate.read ((List.range count).foldl (fun idt i => setTrapGate (BitVec.ofNat 8 i) addr idt) idt v) =
      gateTo kernelPl 1 addr := by
  induction count with
  | zero => exact absurd inside (Nat.not_lt_zero _)
  | succ count ih =>
      rw [List.range_succ, List.foldl_append, List.foldl_cons, List.foldl_nil]
      have last := congrFun (set_gate_read kernelPl 1 (BitVec.ofNat 8 count) addr
        ((List.range count).foldl (fun idt i => setTrapGate (BitVec.ofNat 8 i) addr idt) idt) (by decide) (by decide)) v
      refine last.trans ?_
      by_cases same : v = BitVec.ofNat 8 count
      · rw [same, Function.update_self]
      · rw [Function.update_of_ne same]
        apply ih
        have other : v.toNat ≠ count := fun equal => same (by rw [← equal, BitVec.ofNat_toNat, BitVec.setWidth_eq])
        omega

def Handler.level : Handler → Nat
  | .syscall => userPl
  | _ => kernelPl

def Handler.trap : Handler → Nat
  | .idk => 1
  | _ => 0

def gateOf (address : Handler → Word) (handler : Handler) : Gate := gateTo handler.level handler.trap (address handler)

def Handler.vector : Handler → BitVec 8
  | .exception cause => cause.vector
  | .kbd => sigKbd
  | .rtc => sigRtc
  | .pit => sigPit
  | .syscall => sigSyscall
  | .idk => sigIdk

def Handler.Known (v : BitVec 8) : Prop := ∃ handler : Handler, handler ≠ .idk ∧ handler.vector = v

def exceptGates (address : Handler → Word) (causes : List Exception) (table : BitVec 8 → Gate) : BitVec 8 → Gate :=
  causes.foldl (fun table cause => Function.update table cause.vector (gateOf address (.exception cause))) table

theorem excepted_read (address : Handler → Word) (causes : List Exception) (idt : Idt) :
    Gate.read ∘ causes.foldl (fun idt cause => setIntrGate cause.vector (address (.exception cause)) idt) idt =
      exceptGates address causes (Gate.read ∘ idt) := by
  induction causes generalizing idt with
  | nil => rfl
  | cons cause rest ih =>
      rw [List.foldl_cons, ih, setIntrGate, set_gate_read kernelPl 0 _ _ _ (by decide) (by decide)]
      rfl

theorem except_gates_other (address : Handler → Word) (causes : List Exception) (table : BitVec 8 → Gate) (v : BitVec 8)
    (other : ∀ cause : Exception, cause.vector ≠ v) : exceptGates address causes table v = table v := by
  induction causes generalizing table with
  | nil => rfl
  | cons cause rest ih =>
      exact (ih _).trans (Function.update_of_ne (other cause).symm _ _)

theorem init_idt_read (address : Handler → Word) (idt : Idt) :
    Gate.read ∘ initIdt address idt =
      Function.update (Function.update (Function.update (Function.update
        (exceptGates address exceptions fun _ => gateOf address .idk) sigKbd (gateOf address .kbd))
          sigRtc (gateOf address .rtc)) sigPit (gateOf address .pit)) sigSyscall (gateOf address .syscall) := by
  have unknown : (Gate.read ∘ (List.range 256).foldl (fun idt i => setTrapGate (BitVec.ofNat 8 i) (address .idk) idt) idt) =
      fun _ => gateOf address .idk := funext fun v => unknown_read (address .idk) 256 idt v v.isLt
  rw [initIdt, setSystemGate, set_gate_read userPl 0 _ _ _ (by decide) (by decide), setIntrGate,
    set_gate_read kernelPl 0 _ _ _ (by decide) (by decide), set_gate_read kernelPl 0 _ _ _ (by decide) (by decide),
    set_gate_read kernelPl 0 _ _ _ (by decide) (by decide)]
  have excepted := excepted_read address exceptions
    ((List.range 256).foldl (fun idt i => setTrapGate (BitVec.ofNat 8 i) (address .idk) idt) idt)
  rw [unknown] at excepted
  rw [← excepted]
  rfl

theorem init_idt_known (address : Handler → Word) (idt : Idt) (handler : Handler) :
    Gate.read (initIdt address idt handler.vector) = gateOf address handler := by
  refine (congrFun (init_idt_read address idt) handler.vector).trans ?_
  cases handler with
  | exception cause => cases cause <;> rfl
  | _ => rfl

theorem init_idt_unknown (address : Handler → Word) (idt : Idt) (v : BitVec 8) (unknown : ¬ Handler.Known v) :
    Gate.read (initIdt address idt v) = gateOf address .idk := by
  have other (handler : Handler) (known : handler ≠ .idk) : v ≠ handler.vector :=
    fun same => unknown ⟨handler, known, same.symm⟩
  refine (congrFun (init_idt_read address idt) v).trans ?_
  rw [Function.update_of_ne (show v ≠ sigSyscall from other .syscall (by decide)),
    Function.update_of_ne (show v ≠ sigPit from other .pit (by decide)),
    Function.update_of_ne (show v ≠ sigRtc from other .rtc (by decide)),
    Function.update_of_ne (show v ≠ sigKbd from other .kbd (by decide))]
  exact except_gates_other address exceptions _ v fun cause => (other (.exception cause) (by simp)).symm

theorem gate_of_valid (address : Handler → Word) (handler : Handler) : (gateOf address handler).Valid := by
  cases handler with
  | idk => exact ⟨Or.inr rfl, rfl, rfl⟩
  | _ => exact ⟨Or.inl rfl, rfl, rfl⟩

theorem level_open (handler : Handler) : handler.level = 3 ↔ handler.vector = sigSyscall := by
  cases handler with
  | exception cause => cases cause <;> decide
  | _ => decide

theorem init_idt_valid (address : Handler → Word) (idt : Idt) (v : BitVec 8) : (Gate.read (initIdt address idt v)).Valid := by
  by_cases known : Handler.Known v
  · obtain ⟨handler, _, rfl⟩ := known
    rw [init_idt_known]
    exact gate_of_valid address handler
  · rw [init_idt_unknown address idt v known]
    exact gate_of_valid address .idk

theorem init_idt_level (address : Handler → Word) (idt : Idt) (v : BitVec 8) :
    (Gate.read (initIdt address idt v)).dpl = 3 ↔ v = sigSyscall := by
  by_cases known : Handler.Known v
  · obtain ⟨handler, _, rfl⟩ := known
    rw [init_idt_known]
    exact level_open handler
  · rw [init_idt_unknown address idt v known]
    refine ⟨fun level => absurd (show kernelPl = 3 from level) (by decide), ?_⟩
    rintro rfl
    exact absurd ⟨.syscall, by decide, rfl⟩ known

theorem init_idt_gates (address : Handler → Word) (idt : Idt) :
    (∀ handler, Gate.read (initIdt address idt handler.vector) = gateOf address handler) ∧
      (∀ v, ¬ Handler.Known v → Gate.read (initIdt address idt v) = gateOf address .idk) ∧
        (∀ v, (Gate.read (initIdt address idt v)).Valid) ∧
          ∀ v, (Gate.read (initIdt address idt v)).dpl = 3 ↔ v = sigSyscall :=
  ⟨init_idt_known address idt, init_idt_unknown address idt, init_idt_valid address idt, init_idt_level address idt⟩

end SimpleKernel.Interrupts
