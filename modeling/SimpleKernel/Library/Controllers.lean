import Mathlib.Data.BitVec
import Mathlib.Logic.Function.Basic

set_option autoImplicit false

-- Two 8259 interrupt controllers, one behind the other: edge triggered, fully
-- nested, with masks and both ends of interrupts. Priorities are never rotated.
namespace Controllers

inductive Expects where
  | mask
  | base
  | wiring
  | mode
deriving DecidableEq, Repr

structure Chip where
  requests : Nat → Bool
  inService : Nat → Bool
  mask : BitVec 8
  base : BitVec 8
  wiring : BitVec 8
  automatic : Bool
  single : Bool
  hasMode : Bool
  expects : Expects

def Chip.open (chip : Chip) (line : Nat) : Bool := chip.requests line && !chip.mask.getLsbD line

def Chip.request (line : Nat) (chip : Chip) : Chip := { chip with requests := Function.update chip.requests line true }

def Chip.ended (line : Nat) (chip : Chip) : Chip := { chip with inService := Function.update chip.inService line false }

-- Lower lines come first, and a line in service holds back itself and the ones
-- behind it.
def Chip.next (chip : Chip) : Option Nat :=
  if chip.expects = .mask then
    ((List.range 8).find? fun line => chip.inService line || chip.open line).filter fun line => !chip.inService line
  else none

def Chip.accept (line : Nat) (chip : Chip) : Chip :=
  { chip with
    requests := Function.update chip.requests line false
    inService := Function.update chip.inService line (!chip.automatic) }

def Chip.first (chip : Chip) : Option Nat := (List.range 8).find? chip.inService

-- A byte with bit 4 begins the initialisation, which forgets what edges there
-- have been; one with bit 3 chooses what is read.
def Chip.command (byte : BitVec 8) (chip : Chip) : Chip :=
  if byte.getLsbD 4 then
    { chip with
      requests := fun _ => false
      mask := 0
      automatic := false
      single := byte.getLsbD 1
      hasMode := byte.getLsbD 0
      expects := .base }
  else if byte.getLsbD 3 then chip
  else
    match (byte >>> 5).toNat with
    | 1 => (chip.first.map fun line => chip.ended line).getD chip
    | 3 => chip.ended (byte &&& 7).toNat
    | _ => chip

def Chip.data (byte : BitVec 8) (chip : Chip) : Chip :=
  match chip.expects with
  | .base =>
      { chip with
        base := byte &&& 0xF8
        expects := if chip.single then (if chip.hasMode then .mode else .mask) else .wiring }
  | .wiring => { chip with wiring := byte, expects := if chip.hasMode then .mode else .mask }
  | .mode => { chip with automatic := byte.getLsbD 1, expects := .mask }
  | .mask => { chip with mask := byte }

structure Pair where
  master : Chip
  slave : Chip

def behind : Nat := 2

def Pair.front (pair : Pair) : Chip :=
  { pair.master with requests := Function.update pair.master.requests behind pair.slave.next.isSome }

def Pair.request (line : Nat) (pair : Pair) : Pair :=
  if line < 8 then { pair with master := pair.master.request line } else { pair with slave := pair.slave.request (line - 8) }

-- The processor asks for the vector. The master leaves the answer to the chip
-- whose number is on its wiring; nobody drives the bus if there is none.
def Pair.acknowledge (pair : Pair) : Option (BitVec 8 × Pair) :=
  pair.front.next.map fun line =>
    let pair := { pair with master := pair.master.accept line }
    if pair.master.wiring.getLsbD line then
      if (pair.slave.wiring &&& 7).toNat = line then
        match pair.slave.next with
        | some other => (pair.slave.base + BitVec.ofNat 8 other, { pair with slave := pair.slave.accept other })
        | none => (pair.slave.base + 7, pair)
      else (0xFF, pair)
    else (pair.master.base + BitVec.ofNat 8 line, pair)

theorem find_range (p : Nat → Bool) (n i : Nat) (inside : i < n) (here : p i = true) (before : ∀ j < i, p j = false) :
    (List.range n).find? p = some i := by
  rw [List.find?_eq_some_iff_getElem]
  refine ⟨here, i, by rw [List.length_range]; exact inside, List.getElem_range _, ?_⟩
  intro j earlier
  rw [List.getElem_range, before j earlier]
  rfl

section Chip

variable (chip : Chip) (ready : chip.expects = .mask)

include ready

theorem next_first (line : Nat) (inside : line < 8) (here : chip.open line = true)
    (free : ∀ j ≤ line, chip.inService j = false) (before : ∀ j < line, chip.open j = false) : chip.next = some line := by
  have found := find_range (fun line => chip.inService line || chip.open line) 8 line inside
    (by simp only [here, Bool.or_true]) fun j earlier => by simp only [free j (Nat.le_of_lt earlier),
      before j earlier, Bool.or_false]
  rw [Chip.next, if_pos ready, found]
  exact Option.filter_some_pos (by rw [free line (Nat.le_refl _)]; rfl)

theorem next_none (quiet : ∀ line < 8, chip.open line = false) : chip.next = none := by
  rw [Chip.next, if_pos ready, Option.filter_eq_none_iff]
  intro line found served
  have here := List.find?_some found
  have inside := List.mem_range.mp (List.mem_of_find?_eq_some found)
  rw [quiet line inside, Bool.or_false] at here
  rw [here] at served
  cases served

end Chip

end Controllers
