import Mathlib.Tactic.IntervalCases
import SimpleKernel.I8259
import SimpleKernel.Interrupts.Gates
import SimpleKernel.Library.Controllers

set_option autoImplicit false

namespace SimpleKernel.Interrupts

open Controllers (Chip Pair)
open I8259 (Pic masterPort slavePort slaveStart maskAll)

structure Board where
  pic : Pic
  pair : Pair

def Board.outb (data : BitVec 8) (port : Nat) (board : Board) : Board where
  pic := I8259.outb data port board.pic
  pair :=
    if port = masterPort then { board.pair with master := board.pair.master.command data }
    else if port = masterPort + 1 then { board.pair with master := board.pair.master.data data }
    else if port = slavePort then { board.pair with slave := board.pair.slave.command data }
    else if port = slavePort + 1 then { board.pair with slave := board.pair.slave.data data }
    else board.pair

def Board.setMasterMask (mask : BitVec 8) (board : Board) : Board :=
  { board with pic := { board.pic with masterMask := mask } }

def Board.setSlaveMask (mask : BitVec 8) (board : Board) : Board :=
  { board with pic := { board.pic with slaveMask := mask } }

def Board.enableIrq (irqNum : BitVec 32) (board : Board) : Board :=
  if 15 < irqNum.toNat then board
  else if irqNum &&& slaveStart ≠ 0 then
    let opened := board.setMasterMask (board.pic.masterMask &&& ~~~(1#8 <<< 2))
    let master := opened.outb opened.pic.masterMask (masterPort + 1)
    let slave := master.outb (master.pic.slaveMask &&& (~~~1#8 <<< (irqNum.toNat - 8))) (slavePort + 1)
    slave.setSlaveMask (slave.pic.slaveMask &&& ~~~(1#8 <<< (irqNum.toNat - 8)))
  else
    let opened := board.setMasterMask (board.pic.masterMask &&& ~~~(1#8 <<< irqNum.toNat))
    opened.outb opened.pic.masterMask (masterPort + 1)

def Board.i8259Init (board : Board) : Board :=
  let masks := (board.setMasterMask maskAll).setSlaveMask maskAll
  let master := (((masks.outb I8259.icw1 masterPort).outb I8259.icw2Master (masterPort + 1)).outb
    I8259.icw3Master (masterPort + 1)).outb I8259.icw4 (masterPort + 1)
  let slave := (((master.outb I8259.icw1 slavePort).outb I8259.icw2Slave (slavePort + 1)).outb
    I8259.icw3Slave (slavePort + 1)).outb I8259.icw4 (slavePort + 1)
  ((slave.outb maskAll (masterPort + 1)).outb maskAll (slavePort + 1)).enableIrq 2

def eoi : BitVec 32 := 0x60
def cascade : BitVec 32 := 2

def Board.sendEoi (irqNum : BitVec 32) (board : Board) : Board :=
  if irqNum &&& slaveStart ≠ 0 then
    (board.outb ((eoi ||| (irqNum - 8)).setWidth 8) slavePort).outb ((eoi ||| cascade).setWidth 8) masterPort
  else board.outb ((eoi ||| irqNum).setWidth 8) masterPort

theorem enable_masks (irqNum : BitVec 32) (board : Board) :
    (board.enableIrq irqNum).pic = I8259.enableIrq irqNum board.pic := by
  rw [Board.enableIrq, I8259.enableIrq]
  split
  · rfl
  · split <;> rfl

theorem init_masks (board : Board) : board.i8259Init.pic = I8259.i8259Init board.pic := by
  rw [Board.i8259Init, enable_masks]
  rfl

theorem send_eoi_master (irqNum : Nat) (inside : irqNum < 8) (board : Board) :
    (board.sendEoi (BitVec.ofNat 32 irqNum)).pair = { board.pair with master := board.pair.master.ended irqNum } := by
  interval_cases irqNum <;> rfl

theorem send_eoi_slave (irqNum : Nat) (inside : irqNum < 8) (board : Board) :
    (board.sendEoi (BitVec.ofNat 32 (irqNum + 8))).pair =
      ⟨board.pair.master.ended 2, board.pair.slave.ended irqNum⟩ := by
  interval_cases irqNum <;> rfl

structure Settled (mask base wiring : BitVec 8) (chip : Chip) : Prop where
  expects : chip.expects = .mask
  mask : chip.mask = mask
  base : chip.base = base
  wiring : chip.wiring = wiring
  automatic : chip.automatic = false

structure Wired (pair : Pair) : Prop where
  master : Settled 0xF9 0x20 0x04 pair.master
  slave : Settled 0xFE 0x28 0x02 pair.slave

inductive Service where
  | idle
  | kbd
  | rtc

def Service.master : Service → Nat → Bool
  | .idle => fun _ => false
  | .kbd => Function.update (fun _ => false) 1 true
  | .rtc => Function.update (fun _ => false) 2 true

def Service.slave : Service → Nat → Bool
  | .rtc => Function.update (fun _ => false) 0 true
  | _ => fun _ => false

structure Serves (service : Service) (pair : Pair) : Prop where
  master : pair.master.inService = service.master
  slave : pair.slave.inService = service.slave

theorem data_settled (mask byte base wiring : BitVec 8) (chip : Chip) (settled : Settled mask base wiring chip) :
    Settled byte base wiring (chip.data byte) := by
  have ready : chip.data byte = { chip with mask := byte } := by
    rw [Chip.data, settled.expects]
  rw [ready]
  exact ⟨settled.expects, rfl, settled.base, settled.wiring, settled.automatic⟩

structure Masking (master slave : BitVec 8) (board : Board) : Prop where
  masterMask : board.pic.masterMask = master
  slaveMask : board.pic.slaveMask = slave
  master : Settled master 0x20 0x04 board.pair.master
  slave : Settled slave 0x28 0x02 board.pair.slave

theorem enable_master_masking (irqNum : Nat) (inside : irqNum < 8) (master slave : BitVec 8) (board : Board)
    (masking : Masking master slave board) :
    Masking (master &&& ~~~(1#8 <<< irqNum)) slave (board.enableIrq (BitVec.ofNat 32 irqNum)) := by
  have enabled : board.enableIrq (BitVec.ofNat 32 irqNum) =
      (board.setMasterMask (board.pic.masterMask &&& ~~~(1#8 <<< irqNum))).outb
        (board.pic.masterMask &&& ~~~(1#8 <<< irqNum)) (masterPort + 1) := by
    interval_cases irqNum <;> rfl
  rw [enabled, masking.masterMask]
  exact ⟨rfl, masking.slaveMask, data_settled _ _ _ _ _ masking.master, masking.slave⟩

theorem enable_clock_masking (master slave : BitVec 8) (board : Board) (masking : Masking master slave board) :
    Masking (master &&& 0xFB) (slave &&& 0xFE) (board.enableIrq 8) := by
  have enabled : board.enableIrq 8 =
      (((board.setMasterMask (board.pic.masterMask &&& 0xFB)).outb (board.pic.masterMask &&& 0xFB) (masterPort + 1)).outb
        (board.pic.slaveMask &&& 0xFE) (slavePort + 1)).setSlaveMask (board.pic.slaveMask &&& 0xFE) := rfl
  rw [enabled, masking.masterMask, masking.slaveMask]
  exact ⟨rfl, rfl, data_settled _ _ _ _ _ masking.master, data_settled _ _ _ _ _ masking.slave⟩

theorem init_masking (board : Board) : Masking 0xFB 0xFF board.i8259Init :=
  enable_master_masking 2 (by decide) 0xFF 0xFF _ ⟨rfl, rfl, ⟨rfl, rfl, rfl, rfl, rfl⟩, ⟨rfl, rfl, rfl, rfl, rfl⟩⟩

theorem request_wired (line : Nat) (pair : Pair) (wired : Wired pair) : Wired (pair.request line) := by
  have master := wired.master
  have slave := wired.slave
  rw [Controllers.Pair.request]
  split
  · exact ⟨⟨master.expects, master.mask, master.base, master.wiring, master.automatic⟩, slave⟩
  · exact ⟨master, ⟨slave.expects, slave.mask, slave.base, slave.wiring, slave.automatic⟩⟩

theorem request_serves (line : Nat) (service : Service) (pair : Pair) (serves : Serves service pair) :
    Serves service (pair.request line) := by
  rw [Controllers.Pair.request]
  split <;> exact ⟨serves.master, serves.slave⟩

theorem request_key (line : Nat) (other : line ≠ 1) (pair : Pair) :
    (pair.request line).master.requests 1 = pair.master.requests 1 := by
  rw [Controllers.Pair.request]
  split
  · exact Function.update_of_ne (Ne.symm other) _ _
  · rfl

theorem request_tick (line : Nat) (other : line ≠ 8) (pair : Pair) :
    (pair.request line).slave.requests 0 = pair.slave.requests 0 := by
  rw [Controllers.Pair.request]
  split
  · rfl
  · exact Function.update_of_ne (by omega : (0 : Nat) ≠ line - 8) _ _

section Acknowledge

variable (pair : Pair) (wired : Wired pair) (idle : Serves .idle pair)

include wired idle

theorem slave_next : pair.slave.next = if pair.slave.requests 0 then some 0 else none := by
  have masked (line : Nat) (inside : line < 8) (other : line ≠ 0) : pair.slave.open line = false := by
    rw [Chip.open, wired.slave.mask]
    interval_cases line <;> simp_all
  have line : pair.slave.open 0 = pair.slave.requests 0 := by
    rw [Chip.open, wired.slave.mask]
    exact Bool.and_true _
  split
  · rename_i requested
    exact Controllers.next_first pair.slave wired.slave.expects 0 (by decide) (line.trans requested)
      (fun j _ => by rw [idle.slave]; rfl) fun j earlier => absurd earlier (Nat.not_lt_zero j)
  · rename_i quiet
    apply Controllers.next_none pair.slave wired.slave.expects
    intro j inside
    by_cases zero : j = 0
    · rw [zero, line]
      exact Bool.eq_false_iff.mpr quiet
    · exact masked j inside zero

theorem front_next :
    pair.front.next =
      if pair.master.requests 1 then some 1 else if pair.slave.requests 0 then some 2 else none := by
  have ready : pair.front.expects = .mask := wired.master.expects
  have mask : pair.front.mask = 0xF9 := wired.master.mask
  have free (j : Nat) : pair.front.inService j = false := by
    rw [Controllers.Pair.front, idle.master]
    rfl
  have masked (line : Nat) (inside : line < 8) (other : line ≠ 1 ∧ line ≠ 2) : pair.front.open line = false := by
    rw [Chip.open, mask]
    interval_cases line <;> simp_all
  have one : pair.front.open 1 = pair.master.requests 1 := by
    rw [Chip.open, mask]
    exact Bool.and_true _
  have two : pair.front.open 2 = pair.slave.requests 0 := by
    rw [Chip.open, mask, Controllers.Pair.front, slave_next pair wired idle]
    cases pair.slave.requests 0 <;> rfl
  split
  · rename_i keyboard
    exact Controllers.next_first pair.front ready 1 (by decide) (one.trans keyboard) (fun j _ => free j)
      fun j earlier => masked j (by omega) (by omega)
  · rename_i noKey
    split
    · rename_i clock
      apply Controllers.next_first pair.front ready 2 (by decide) (two.trans clock) (fun j _ => free j)
      intro j earlier
      by_cases here : j = 1
      · rw [here, one]
        exact Bool.eq_false_iff.mpr noKey
      · exact masked j (by omega) (by omega)
    · rename_i noTick
      apply Controllers.next_none pair.front ready
      intro j inside
      by_cases here : j = 1
      · rw [here, one]
        exact Bool.eq_false_iff.mpr noKey
      · by_cases second : j = 2
        · rw [second, two]
          exact Bool.eq_false_iff.mpr noTick
        · exact masked j inside ⟨here, second⟩

theorem acknowledge_idle :
    pair.acknowledge =
      if pair.master.requests 1 then some (sigKbd, { pair with master := pair.master.accept 1 })
      else if pair.slave.requests 0 then some (sigRtc, ⟨pair.master.accept 2, pair.slave.accept 0⟩)
      else none := by
  have wiring : (pair.master.accept 1).wiring = 0x04 ∧ (pair.master.accept 2).wiring = 0x04 :=
    ⟨wired.master.wiring, wired.master.wiring⟩
  have base : (pair.master.accept 1).base = 0x20 := wired.master.base
  rw [Controllers.Pair.acknowledge, front_next pair wired idle]
  split
  · rw [Option.map_some]
    simp only [wiring.1, base]
    rfl
  · split
    · rename_i clock
      rw [Option.map_some]
      simp only [wiring.2, wired.slave.wiring, wired.slave.base, slave_next pair wired idle, clock]
      rfl
    · rfl

end Acknowledge

theorem accepted_settled (mask base wiring : BitVec 8) (chip : Chip) (line : Nat) (settled : Settled mask base wiring chip) :
    Settled mask base wiring (chip.accept line) ∧
      (chip.accept line).inService = Function.update chip.inService line true := by
  refine ⟨⟨settled.expects, settled.mask, settled.base, settled.wiring, settled.automatic⟩, ?_⟩
  rw [Chip.accept, settled.automatic]
  rfl

theorem acknowledge_serves (pair : Pair) (wired : Wired pair) (idle : Serves .idle pair) :
    Wired { pair with master := pair.master.accept 1 } ∧ Serves .kbd { pair with master := pair.master.accept 1 } ∧
      Wired ⟨pair.master.accept 2, pair.slave.accept 0⟩ ∧ Serves .rtc ⟨pair.master.accept 2, pair.slave.accept 0⟩ := by
  have first := accepted_settled _ _ _ _ 1 wired.master
  have second := accepted_settled _ _ _ _ 2 wired.master
  have slave := accepted_settled _ _ _ _ 0 wired.slave
  exact ⟨⟨first.1, wired.slave⟩, ⟨first.2.trans (by rw [idle.master]; rfl), idle.slave⟩, ⟨second.1, slave.1⟩,
    ⟨second.2.trans (by rw [idle.master]; rfl), slave.2.trans (by rw [idle.slave]; rfl)⟩⟩

theorem ended_settled (mask base wiring : BitVec 8) (chip : Chip) (line : Nat) (settled : Settled mask base wiring chip) :
    Settled mask base wiring (chip.ended line) :=
  ⟨settled.expects, settled.mask, settled.base, settled.wiring, settled.automatic⟩

theorem update_back (line : Nat) :
    Function.update (Function.update (fun _ : Nat => false) line true) line false = fun _ => false := by
  rw [Function.update_idem]
  exact Function.update_eq_self line _

structure EndsWith (service : Service) (pair after : Pair) : Prop where
  wired : Wired after
  serves : Serves .idle after
  key : after.master.requests = pair.master.requests
  tick : after.slave.requests = pair.slave.requests

theorem eoi_key (service : Service) (board : Board) (wired : Wired board.pair) (serves : Serves service board.pair)
    (other : service ≠ .rtc) : EndsWith service board.pair (board.sendEoi 1).pair := by
  have sent : (board.sendEoi 1).pair = _ := send_eoi_master 1 (by decide) board
  rw [sent]
  refine ⟨⟨ended_settled _ _ _ _ 1 wired.master, wired.slave⟩, ⟨?_, ?_⟩, rfl, rfl⟩
  · change Function.update board.pair.master.inService 1 false = _
    rw [serves.master]
    cases service with
    | idle => exact Function.update_eq_self 1 _
    | kbd => exact update_back 1
    | rtc => exact absurd rfl other
  · cases service with
    | rtc => exact absurd rfl other
    | _ => exact serves.slave

theorem eoi_tick (board : Board) (wired : Wired board.pair) (serves : Serves .rtc board.pair) :
    EndsWith .rtc board.pair (board.sendEoi 8).pair := by
  have sent : (board.sendEoi 8).pair = _ := send_eoi_slave 0 (by decide) board
  rw [sent]
  refine ⟨⟨ended_settled _ _ _ _ 2 wired.master, ended_settled _ _ _ _ 0 wired.slave⟩, ⟨?_, ?_⟩, rfl, rfl⟩
  · change Function.update board.pair.master.inService 2 false = _
    rw [serves.master]
    exact update_back 2
  · change Function.update board.pair.slave.inService 0 false = _
    rw [serves.slave]
    exact update_back 0

end SimpleKernel.Interrupts
