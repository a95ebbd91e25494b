import Mathlib.Data.BitVec
import Mathlib.Logic.Function.Basic
import SimpleKernel.Library.Run

set_option autoImplicit false

namespace SimpleKernel.I8259

def masterPort : Nat := 0x20
def slavePort : Nat := 0xA0

def icw1 : BitVec 8 := 0x11
def icw2Master : BitVec 8 := 0x20
def icw2Slave : BitVec 8 := 0x28
def icw3Master : BitVec 8 := 0x04
def icw3Slave : BitVec 8 := 0x02
def icw4 : BitVec 8 := 0x01

def maskAll : BitVec 8 := 0xFF
def slaveStart : BitVec 32 := 8

structure Pic where
  masterMask : BitVec 8
  slaveMask : BitVec 8
  -- the last byte written to each port, which is what a read of 0x21 or 0xA1 returns
  ports : Nat → BitVec 8

def outb (data : BitVec 8) (port : Nat) (pic : Pic) : Pic :=
  { pic with ports := Function.update pic.ports port data }

def inb (port : Nat) (pic : Pic) : BitVec 8 := pic.ports port

-- The masks are int expressions of which one byte is kept; `&`, `|`, `~` and
-- `<<` act on that byte alone.
def enableIrq (irqNum : BitVec 32) (pic : Pic) : Pic :=
  if 15 < irqNum.toNat then pic
  else if irqNum &&& slaveStart ≠ 0 then
    let opened := { pic with masterMask := pic.masterMask &&& ~~~(1#8 <<< 2) }
    let master := outb opened.masterMask (masterPort + 1) opened
    -- the complement is shifted here: ~(1) << k, not ~(1 << k)
    let slave := outb (master.slaveMask &&& (~~~1#8 <<< (irqNum.toNat - 8))) (slavePort + 1) master
    { slave with slaveMask := slave.slaveMask &&& ~~~(1#8 <<< (irqNum.toNat - 8)) }
  else
    let opened := { pic with masterMask := pic.masterMask &&& ~~~(1#8 <<< irqNum.toNat) }
    outb opened.masterMask (masterPort + 1) opened

def disableIrq (irqNum : BitVec 32) (pic : Pic) : Pic :=
  if 15 < irqNum.toNat then pic
  else if irqNum &&& slaveStart ≠ 0 then
    outb (inb (slavePort + 1) pic ||| 1#8 <<< (irqNum.toNat - 8)) (slavePort + 1) pic
  else
    outb (inb (masterPort + 1) pic ||| 1#8 <<< irqNum.toNat) (masterPort + 1) pic

def i8259Init (pic : Pic) : Pic :=
  let masks := { pic with masterMask := maskAll, slaveMask := maskAll }
  let master := outb icw4 (masterPort + 1) (outb icw3Master (masterPort + 1)
    (outb icw2Master (masterPort + 1) (outb icw1 masterPort masks)))
  let slave := outb icw4 (slavePort + 1) (outb icw3Slave (slavePort + 1)
    (outb icw2Slave (slavePort + 1) (outb icw1 slavePort master)))
  enableIrq 2 (outb maskAll (slavePort + 1) (outb maskAll (masterPort + 1) slave))

inductive Op where
  | enable (irqNum : BitVec 32)
  | disable (irqNum : BitVec 32)
deriving DecidableEq

def Op.irqNum : Op → BitVec 32
  | .enable irqNum => irqNum
  | .disable irqNum => irqNum

def perform (op : Op) (pic : Pic) : Pic :=
  match op with
  | .enable irqNum => enableIrq irqNum pic
  | .disable irqNum => disableIrq irqNum pic

-- Lines 0..7 are the bits of port 0x21, lines 8..15 those of port 0xA1.
def Pic.masks (pic : Pic) (line : Nat) : Bool :=
  if line < 8 then (inb (masterPort + 1) pic).getLsbD line
  else (inb (slavePort + 1) pic).getLsbD (line - 8)

def cascade : Nat := 2

def Op.opensCascade : Op → Bool
  | .enable irqNum => decide (8 ≤ irqNum.toNat ∧ irqNum.toNat ≤ 15)
  | .disable _ => false

def Op.mark (op : Op) (masked : Nat → Bool) (line : Nat) : Bool :=
  if line = op.irqNum.toNat then
    match op with
    | .enable _ => false
    | .disable _ => true
  else if line = cascade ∧ op.opensCascade = true then false
  else masked line

structure Session where
  pic : Pic
  masked : Nat → Bool

def Session.start (pic : Pic) : Session :=
  { pic := i8259Init pic, masked := fun line => decide (line ≠ cascade) }

def Session.step (session : Session) (op : Op) : Session :=
  { pic := perform op session.pic, masked := op.mark session.masked }

structure Agrees (session : Session) : Prop where
  lines : ∀ line, line < 16 → session.pic.masks line = session.masked line
  master : session.pic.masterMask = inb (masterPort + 1) session.pic
  slave : session.pic.slaveMask = inb (slavePort + 1) session.pic

def Alone (session : Session) (op : Op) : Prop :=
  ∀ line, line < 16 → line ≠ op.irqNum.toNat → ¬ (line = cascade ∧ op.opensCascade = true) →
    (perform op session.pic).masks line = session.pic.masks line

def Lawful (session : Session) (op : Op) : Prop := Alone session op ∧ Agrees (session.step op)

def Masked (session : Session) (op : Op) : Prop :=
  op.irqNum.toNat ≤ 15 →
    match op with
    | .enable irqNum => ∀ line, 8 ≤ line → line < irqNum.toNat → session.pic.masks line = false
    | .disable irqNum => session.pic.masks irqNum.toNat = true

theorem clear_bit (mask : BitVec 8) (k j : Nat) (bound : j < 8) :
    (mask &&& ~~~(1#8 <<< k)).getLsbD j = (mask.getLsbD j && decide (j ≠ k)) := by
  simp only [BitVec.getLsbD_and, BitVec.getLsbD_not, BitVec.getLsbD_shiftLeft, BitVec.getLsbD_one, bound, decide_true,
    Bool.true_and]
  congr 1
  by_cases below : j < k
  · simp [below, Nat.ne_of_lt below]
  · simp only [below, decide_false, Bool.not_false, Bool.true_and, Nat.zero_lt_succ, decide_true, ne_eq, decide_not]
    congr 2
    exact propext ⟨fun zero => by omega, fun same => by omega⟩

theorem clear_through_bit (mask : BitVec 8) (k j : Nat) (bound : j < 8) :
    (mask &&& (~~~1#8 <<< k)).getLsbD j = (mask.getLsbD j && decide (k < j)) := by
  simp only [BitVec.getLsbD_and, BitVec.getLsbD_not, BitVec.getLsbD_shiftLeft, BitVec.getLsbD_one, bound, decide_true,
    Bool.true_and]
  congr 1
  by_cases below : j < k
  · simp [below, Nat.lt_asymm below]
  · have inside : j - k < 8 := by omega
    simp only [below, decide_false, Bool.not_false, Bool.true_and, Nat.zero_lt_succ, decide_true, inside]
    by_cases above : k < j
    · simp [above, Nat.sub_ne_zero_of_lt above]
    · have same : j - k = 0 := by omega
      simp [above, same]

theorem set_bit (mask : BitVec 8) (k j : Nat) (bound : j < 8) :
    (mask ||| 1#8 <<< k).getLsbD j = (mask.getLsbD j || decide (j = k)) := by
  simp only [BitVec.getLsbD_or, BitVec.getLsbD_shiftLeft, BitVec.getLsbD_one, bound, decide_true, Bool.true_and]
  congr 1
  by_cases below : j < k
  · simp [below, Nat.ne_of_lt below]
  · simp only [below, decide_false, Bool.not_false, Bool.true_and, Nat.zero_lt_succ, decide_true]
    congr 1
    exact propext ⟨fun zero => by omega, fun same => by omega⟩

theorem same_bits (a b : BitVec 8) : a = b ↔ ∀ j, j < 8 → a.getLsbD j = b.getLsbD j :=
  ⟨fun same _ _ => by rw [same], fun bits => BitVec.eq_of_getLsbD_eq bits⟩

theorem slave_line (irqNum : BitVec 32) (bound : irqNum.toNat ≤ 15) :
    irqNum &&& slaveStart ≠ 0 ↔ 8 ≤ irqNum.toNat := by
  have lines : ∀ line : Fin 16, BitVec.ofNat 32 line.val &&& slaveStart ≠ 0 ↔ 8 ≤ line.val := by decide
  have each := lines ⟨irqNum.toNat, by omega⟩
  simpa only [BitVec.ofNat_toNat, BitVec.setWidth_eq] using each

@[simp] theorem outb_master_mask (data : BitVec 8) (port : Nat) (pic : Pic) :
    (outb data port pic).masterMask = pic.masterMask := rfl

@[simp] theorem outb_slave_mask (data : BitVec 8) (port : Nat) (pic : Pic) :
    (outb data port pic).slaveMask = pic.slaveMask := rfl

@[simp] theorem inb_fields (port : Nat) (pic : Pic) (master slave : BitVec 8) :
    inb port { pic with masterMask := master, slaveMask := slave } = inb port pic := rfl

theorem ports_apart : masterPort + 1 ≠ slavePort + 1 := by decide

@[simp] theorem inb_outb (data : BitVec 8) (port other : Nat) (pic : Pic) :
    inb other (outb data port pic) = if other = port then data else inb other pic := by
  simp only [inb, outb, Function.update_apply]

theorem masks_master (pic : Pic) (line : Nat) (bound : line < 8) :
    pic.masks line = (inb (masterPort + 1) pic).getLsbD line := if_pos bound

theorem masks_slave (pic : Pic) (line : Nat) (bound : 8 ≤ line) :
    pic.masks line = (inb (slavePort + 1) pic).getLsbD (line - 8) := if_neg (Nat.not_lt.mpr bound)

theorem ignored (op : Op) (pic : Pic) (high : 15 < op.irqNum.toNat) : perform op pic = pic := by
  cases op with
  | enable irqNum => exact if_pos high
  | disable irqNum => exact if_pos high

theorem enable_master (irqNum : BitVec 32) (pic : Pic) (low : irqNum.toNat < 8) :
    enableIrq irqNum pic =
      outb (pic.masterMask &&& ~~~(1#8 <<< irqNum.toNat)) (masterPort + 1)
        { pic with masterMask := pic.masterMask &&& ~~~(1#8 <<< irqNum.toNat) } := by
  have bound : irqNum.toNat ≤ 15 := by omega
  rw [enableIrq, if_neg (Nat.not_lt.mpr bound), if_neg (mt (slave_line irqNum bound).mp (Nat.not_le.mpr low))]

theorem enable_slave (irqNum : BitVec 32) (pic : Pic) (high : 8 ≤ irqNum.toNat) (bound : irqNum.toNat ≤ 15) :
    enableIrq irqNum pic =
      outb (pic.slaveMask &&& (~~~1#8 <<< (irqNum.toNat - 8))) (slavePort + 1)
        (outb (pic.masterMask &&& ~~~(1#8 <<< 2)) (masterPort + 1)
          { pic with masterMask := pic.masterMask &&& ~~~(1#8 <<< 2),
                     slaveMask := pic.slaveMask &&& ~~~(1#8 <<< (irqNum.toNat - 8)) }) := by
  rw [enableIrq, if_neg (Nat.not_lt.mpr bound), if_pos ((slave_line irqNum bound).mpr high)]
  rfl

theorem disable_master (irqNum : BitVec 32) (pic : Pic) (low : irqNum.toNat < 8) :
    disableIrq irqNum pic = outb (inb (masterPort + 1) pic ||| 1#8 <<< irqNum.toNat) (masterPort + 1) pic := by
  have bound : irqNum.toNat ≤ 15 := by omega
  rw [disableIrq, if_neg (Nat.not_lt.mpr bound), if_neg (mt (slave_line irqNum bound).mp (Nat.not_le.mpr low))]

theorem disable_slave (irqNum : BitVec 32) (pic : Pic) (high : 8 ≤ irqNum.toNat) (bound : irqNum.toNat ≤ 15) :
    disableIrq irqNum pic = outb (inb (slavePort + 1) pic ||| 1#8 <<< (irqNum.toNat - 8)) (slavePort + 1) pic := by
  rw [disableIrq, if_neg (Nat.not_lt.mpr bound), if_pos ((slave_line irqNum bound).mpr high)]

theorem ignored_lawful (session : Session) (op : Op) (agrees : Agrees session) (high : 15 < op.irqNum.toNat) :
    Lawful session op := by
  have same := ignored op session.pic high
  have unopened : op.opensCascade = false := by
    cases op with
    | enable irqNum => exact decide_eq_false fun range => Nat.not_lt.mpr range.2 high
    | disable irqNum => rfl
  constructor
  · intro line _ _ _
    rw [same]
  · have step : session.step op = { session with masked := op.mark session.masked } := by rw [Session.step, same]
    rw [step]
    refine ⟨fun line bound => ?_, agrees.master, agrees.slave⟩
    have other : line ≠ op.irqNum.toNat := by omega
    simpa [Op.mark, other, unopened] using agrees.lines line bound

theorem enable_master_lawful (session : Session) (irqNum : BitVec 32) (agrees : Agrees session)
    (low : irqNum.toNat < 8) : Lawful session (.enable irqNum) := by
  have masks : ∀ line, line < 16 → (perform (.enable irqNum) session.pic).masks line =
      (session.pic.masks line && decide (line ≠ irqNum.toNat)) := by
    intro line bound
    rw [perform, enable_master irqNum session.pic low]
    by_cases master : line < 8
    · rw [masks_master _ line master, masks_master _ line master, ← agrees.master]
      exact clear_bit session.pic.masterMask irqNum.toNat line master
    · have other : line ≠ irqNum.toNat := by omega
      rw [masks_slave _ line (Nat.not_lt.mp master), masks_slave _ line (Nat.not_lt.mp master)]
      rw [inb_outb, if_neg ports_apart.symm, inb_fields, decide_eq_true other, Bool.and_true]
  have unopened : (Op.enable irqNum).opensCascade = false :=
    decide_eq_false fun range => Nat.not_lt.mpr range.1 low
  constructor
  · intro line bound other _
    have apart : line ≠ irqNum.toNat := other
    rw [masks line bound, decide_eq_true apart, Bool.and_true]
  · refine ⟨fun line bound => ?_, ?_, ?_⟩
    · rw [Session.step, masks line bound, agrees.lines line bound]
      by_cases own : line = irqNum.toNat
      · simp [Op.mark, Op.irqNum, own]
      · simp [Op.mark, Op.irqNum, own, unopened]
    · rw [Session.step, perform, enable_master irqNum session.pic low, inb_outb, if_pos rfl, outb_master_mask]
    · rw [Session.step, perform, enable_master irqNum session.pic low, inb_outb, if_neg ports_apart.symm, inb_fields,
        outb_slave_mask]
      exact agrees.slave

theorem enable_slave_masks (session : Session) (irqNum : BitVec 32) (agrees : Agrees session)
    (high : 8 ≤ irqNum.toNat) (bound : irqNum.toNat ≤ 15) (line : Nat) (range : line < 16) :
    (perform (.enable irqNum) session.pic).masks line =
      (session.pic.masks line && if line < 8 then decide (line ≠ cascade) else decide (irqNum.toNat < line)) := by
  rw [perform, enable_slave irqNum session.pic high bound]
  by_cases master : line < 8
  · rw [masks_master _ line master, masks_master _ line master, ← agrees.master, if_pos master]
    have bits := clear_bit session.pic.masterMask 2 line master
    rw [inb_outb, if_neg ports_apart, inb_outb, if_pos rfl]
    exact bits
  · have slave : 8 ≤ line := Nat.not_lt.mp master
    have offset : irqNum.toNat - 8 < line - 8 ↔ irqNum.toNat < line := by omega
    rw [masks_slave _ line slave, masks_slave _ line slave, ← agrees.slave, if_neg master]
    have bits := clear_through_bit session.pic.slaveMask (irqNum.toNat - 8) (line - 8) (by omega)
    rw [inb_outb, if_pos rfl, bits, decide_eq_decide.mpr offset]

theorem enable_slave_lawful (session : Session) (irqNum : BitVec 32) (agrees : Agrees session)
    (high : 8 ≤ irqNum.toNat) (bound : irqNum.toNat ≤ 15) :
    Lawful session (.enable irqNum) ↔ Masked session (.enable irqNum) := by
  have masks := enable_slave_masks session irqNum agrees high bound
  have opened : (Op.enable irqNum).opensCascade = true := decide_eq_true ⟨high, bound⟩
  constructor
  · rintro ⟨_, next⟩ _ line slave below
    have marked := (next.lines line (by omega)).symm.trans (masks line (by omega))
    have other : line ≠ irqNum.toNat := Nat.ne_of_lt below
    have apart : line ≠ cascade := by
      rw [cascade]
      omega
    have beyond : ¬ irqNum.toNat < line := Nat.lt_asymm below
    have kept : session.masked line = false := by
      simpa [Session.step, Op.mark, Op.irqNum, other, apart, Nat.not_lt.mpr slave, beyond] using marked
    exact (agrees.lines line (by omega)).trans kept
  · intro admitted
    have unmasked := admitted bound
    have marked : ∀ line, line < 16 → (perform (.enable irqNum) session.pic).masks line =
        (Op.enable irqNum).mark session.masked line := by
      intro line range
      rw [masks line range, agrees.lines line range, Op.mark, Op.irqNum, opened]
      by_cases own : line = irqNum.toNat
      · have slave : ¬ line < 8 := by omega
        simp [own, Nat.not_lt.mpr high]
      · by_cases master : line < 8
        · by_cases apart : line = cascade
          · simp [own, master, apart.symm]
          · simp [apart, own, master]
        · have apart : line ≠ cascade := by
            rw [cascade]
            omega
          by_cases below : line < irqNum.toNat
          · have quiet := (agrees.lines line range).symm.trans (unmasked line (Nat.not_lt.mp master) below)
            simp [apart, own, quiet]
          · have beyond : irqNum.toNat < line := by omega
            simp [apart, own, master, beyond]
    refine ⟨fun line range other apart => ?_, marked, ?_, ?_⟩
    · rw [marked line range, Op.mark, if_neg other, if_neg apart]
      exact (agrees.lines line range).symm
    · rw [Session.step, perform, enable_slave irqNum session.pic high bound, inb_outb, if_neg ports_apart, inb_outb,
        if_pos rfl, outb_master_mask, outb_master_mask]
    · rw [Session.step, perform, enable_slave irqNum session.pic high bound, inb_outb, if_pos rfl, outb_slave_mask,
        outb_slave_mask, same_bits]
      intro j inside
      have low := masks_slave session.pic (j + 8) (Nat.le_add_left 8 j)
      rw [← agrees.slave, Nat.add_sub_cancel] at low
      rw [clear_bit _ _ _ inside, clear_through_bit _ _ _ inside]
      by_cases below : j + 8 < irqNum.toNat
      · have quiet := low.symm.trans (unmasked (j + 8) (Nat.le_add_left 8 j) below)
        simp [quiet]
      · congr 2
        exact propext ⟨fun other => by omega, fun above => by omega⟩

theorem disable_masks (session : Session) (irqNum : BitVec 32) (bound : irqNum.toNat ≤ 15) (line : Nat)
    (range : line < 16) :
    (perform (.disable irqNum) session.pic).masks line =
      (session.pic.masks line || decide (line = irqNum.toNat)) := by
  by_cases low : irqNum.toNat < 8
  · rw [perform, disable_master irqNum session.pic low]
    by_cases master : line < 8
    · rw [masks_master _ line master, masks_master _ line master, inb_outb, if_pos rfl, set_bit _ _ _ master]
    · have other : line ≠ irqNum.toNat := by omega
      rw [masks_slave _ line (Nat.not_lt.mp master), masks_slave _ line (Nat.not_lt.mp master)]
      rw [inb_outb, if_neg ports_apart.symm, decide_eq_false other, Bool.or_false]
  · rw [perform, disable_slave irqNum session.pic (Nat.not_lt.mp low) bound]
    by_cases master : line < 8
    · have other : line ≠ irqNum.toNat := by omega
      rw [masks_master _ line master, masks_master _ line master, inb_outb, if_neg ports_apart, decide_eq_false other,
        Bool.or_false]
    · have same : line - 8 = irqNum.toNat - 8 ↔ line = irqNum.toNat := by omega
      rw [masks_slave _ line (Nat.not_lt.mp master), masks_slave _ line (Nat.not_lt.mp master), inb_outb, if_pos rfl,
        set_bit _ _ _ (by omega), decide_eq_decide.mpr same]

theorem disable_software (irqNum : BitVec 32) (pic : Pic) (bound : irqNum.toNat ≤ 15) :
    (disableIrq irqNum pic).masterMask = pic.masterMask ∧ (disableIrq irqNum pic).slaveMask = pic.slaveMask := by
  by_cases low : irqNum.toNat < 8
  · rw [disable_master irqNum pic low]
    exact ⟨rfl, rfl⟩
  · rw [disable_slave irqNum pic (Nat.not_lt.mp low) bound]
    exact ⟨rfl, rfl⟩

theorem software_masks (pic : Pic) (master : pic.masterMask = inb (masterPort + 1) pic)
    (slave : pic.slaveMask = inb (slavePort + 1) pic) (line : Nat) :
    pic.masks line = if line < 8 then pic.masterMask.getLsbD line else pic.slaveMask.getLsbD (line - 8) := by
  rw [Pic.masks, master, slave]

theorem disable_lawful (session : Session) (irqNum : BitVec 32) (agrees : Agrees session)
    (bound : irqNum.toNat ≤ 15) : Lawful session (.disable irqNum) ↔ Masked session (.disable irqNum) := by
  have masks := disable_masks session irqNum bound
  obtain ⟨masterKept, slaveKept⟩ := disable_software irqNum session.pic bound
  constructor
  · rintro ⟨_, next⟩ _
    have now := software_masks session.pic agrees.master agrees.slave irqNum.toNat
    have later := software_masks (session.step (.disable irqNum)).pic next.master next.slave irqNum.toNat
    rw [Session.step, perform, masterKept, slaveKept, ← now] at later
    have set := masks irqNum.toNat (by omega)
    rw [perform, later, decide_eq_true rfl, Bool.or_true] at set
    exact set
  · intro admitted
    have already : session.pic.masks irqNum.toNat = true := admitted bound
    have same : ∀ line, line < 16 → (perform (.disable irqNum) session.pic).masks line = session.pic.masks line := by
      intro line range
      rw [masks line range]
      by_cases own : line = irqNum.toNat
      · rw [own, already, Bool.true_or]
      · rw [decide_eq_false own, Bool.or_false]
    refine ⟨fun line range _ _ => same line range, fun line range => ?_, ?_, ?_⟩
    · rw [Session.step, same line range, agrees.lines line range]
      by_cases own : line = irqNum.toNat
      · have set := (agrees.lines line range).symm.trans (own ▸ already)
        simp [Op.mark, Op.irqNum, own, own ▸ set]
      · simp [Op.mark, Op.irqNum, own, Op.opensCascade]
    · rw [Session.step, perform, masterKept, same_bits]
      intro j inside
      have bit := same j (by omega)
      rw [masks_master _ j inside, masks_master _ j inside, ← agrees.master] at bit
      exact bit.symm
    · rw [Session.step, perform, slaveKept, same_bits]
      intro j inside
      have bit := same (j + 8) (by omega)
      rw [masks_slave _ _ (Nat.le_add_left 8 j), masks_slave _ _ (Nat.le_add_left 8 j), Nat.add_sub_cancel,
        ← agrees.slave] at bit
      exact bit.symm

theorem step_lawful (session : Session) (op : Op) (agrees : Agrees session) :
    Lawful session op ↔ Masked session op := by
  by_cases high : 15 < op.irqNum.toNat
  · exact iff_of_true (ignored_lawful session op agrees high) fun bound => absurd bound (Nat.not_le.mpr high)
  · have bound : op.irqNum.toNat ≤ 15 := Nat.not_lt.mp high
    cases op with
    | enable irqNum =>
        by_cases low : irqNum.toNat < 8
        · refine iff_of_true (enable_master_lawful session irqNum agrees low) fun _ line slave below => ?_
          exact absurd below (by omega)
        · exact enable_slave_lawful session irqNum agrees (Nat.not_lt.mp low) bound
    | disable irqNum => exact disable_lawful session irqNum agrees bound

theorem start_agrees (pic : Pic) : Agrees (Session.start pic) := by
  have masks : (i8259Init pic).masterMask = 0xFB ∧ (i8259Init pic).slaveMask = 0xFF ∧
      inb (masterPort + 1) (i8259Init pic) = 0xFB ∧ inb (slavePort + 1) (i8259Init pic) = 0xFF := by
    rw [i8259Init, enable_master 2 _ (by decide)]
    simp [inb, outb, maskAll, masterPort, slavePort]
  obtain ⟨master, slave, masterHw, slaveHw⟩ := masks
  refine ⟨fun line bound => ?_, master.trans masterHw.symm, slave.trans slaveHw.symm⟩
  have lines : ∀ line : Fin 16, (if line.val < 8 then (0xFB : BitVec 8).getLsbD line.val
      else (0xFF : BitVec 8).getLsbD (line.val - 8)) = decide (line.val ≠ cascade) := by decide
  rw [Session.start, Pic.masks, masterHw, slaveHw]
  exact lines ⟨line, bound⟩

def blank : Pic := { masterMask := 0, slaveMask := 0, ports := fun _ => 0 }

theorem enable_opens_below :
    ¬ Alone (Session.start blank) (.enable 9) ∧ ¬ Agrees (Run.final Session.step (Session.start blank) [.enable 9]) := by
  constructor
  · intro alone
    exact absurd (alone 8 (by decide) (by decide) (by decide)) (by decide)
  · intro agrees
    exact absurd agrees.slave (by decide)

theorem masks_exact (pic : Pic) (ops : List Op) :
    (∀ before op after, ops = before ++ op :: after → Lawful (Run.final Session.step (Session.start pic) before) op) ↔
      Run.Guarded Session.step Masked (Session.start pic) ops := by
  rw [Run.each_iff_guarded Session.step Lawful]
  exact Run.guarded_congr Session.step Lawful Masked Agrees (fun _ _ _ lawful => lawful.2) step_lawful
    (Session.start pic) ops (start_agrees pic)

end SimpleKernel.I8259
