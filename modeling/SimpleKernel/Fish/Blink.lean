import SimpleKernel.Library.Chain
import SimpleKernel.Library.Flags

set_option autoImplicit false

namespace SimpleKernel.Fish

abbrev Slot := Fin (80 * 25)

-- struct mp1_blink_struct; a pointer to one is a slot of blink_array.
structure Blink where
  location : BitVec 16
  onChar : UInt8
  offChar : UInt8
  onLength : BitVec 16
  offLength : BitVec 16
  countdown : BitVec 16
  status : BitVec 16
  next : Option Slot
deriving DecidableEq

-- `vmem` are the bytes from vmem_base_addr on.
structure Driver where
  blinkArray : Slot → Blink
  listHead : Option Slot
  vmem : Nat → UInt8

def zeroed : Blink := ⟨0, 0, 0, 0, 0, 0, 0, none⟩

def Driver.next (driver : Driver) (slot : Slot) : Option Slot := (driver.blinkArray slot).next

def Driver.modify (driver : Driver) (slot : Slot) (change : Blink → Blink) : Driver :=
  { driver with blinkArray := Function.update driver.blinkArray slot (change (driver.blinkArray slot)) }

def mp1Poke (offset : Nat) (byte : UInt8) (driver : Driver) : Driver :=
  { driver with vmem := Function.update driver.vmem offset byte }

def Blink.offset (blink : Blink) : Nat := 2 * blink.location.toNat

def mp1Malloc (driver : Driver) : Option Slot := (List.finRange (80 * 25)).find? fun i => (driver.blinkArray i).location = 0

def mp1Free (slot : Slot) (driver : Driver) : Driver := driver.modify slot fun _ => zeroed

def blinkSlot (driver : Driver) (slot : Slot) : Driver :=
  let counted := driver.modify slot fun blink => { blink with countdown := blink.countdown - 1 }
  let blink := counted.blinkArray slot
  if Flags.greater (Flags.compare blink.countdown 0) then counted
  else
    let off := Flags.equal (Flags.test blink.status 1)
    let shown := mp1Poke blink.offset (if off then blink.onChar else blink.offChar) counted
    let length := if off then blink.onLength else blink.offLength
    shown.modify slot fun blink => { blink with countdown := length, status := blink.status ^^^ 1 }

-- The loops follow the list for at most `fuel` nodes; `none` is a loop that has
-- not come to its end by then.
def taskletLoop : Nat → Option Slot → Driver → Option Driver
  | _, none, driver => some driver
  | 0, some _, _ => none
  | fuel + 1, some slot, driver => taskletLoop fuel ((blinkSlot driver slot).next slot) (blinkSlot driver slot)

def mp1RtcTasklet (driver : Driver) : Option Driver := taskletLoop (80 * 25) driver.listHead driver

def findLoop (driver : Driver) (location : BitVec 16) : Nat → Option Slot → Option (Option Slot)
  | _, none => some none
  | 0, some _ => none
  | fuel + 1, some slot =>
      if Flags.equal (Flags.compare (driver.blinkArray slot).location location) then some (some slot)
      else findLoop driver location fuel (driver.next slot)

-- Only the low word of the argument is looked at.
def mp1FindHelper (argument : BitVec 32) (driver : Driver) : Option (Option Slot) :=
  findLoop driver (argument.setWidth 16) (80 * 25) driver.listHead

def mp1IoctlAdd (user : Blink) (driver : Driver) : Int × Driver :=
  if !Flags.below (Flags.compare user.location 2000) then (-1, driver)
  else
    let temp := { user with status := 1, countdown := user.onLength }
    match mp1Malloc driver with
    | none => (-1, driver)
    | some slot =>
        let copied := driver.modify slot fun _ => temp
        let linked := copied.modify slot fun blink => { blink with next := copied.listHead }
        let inserted := { linked with listHead := some slot }
        let blink := inserted.blinkArray slot
        (0, mp1Poke blink.offset blink.onChar inserted)

def Driver.link (driver : Driver) : Option Slot → Option Slot
  | none => driver.listHead
  | some slot => driver.next slot

def Driver.setLink (driver : Driver) (value : Option Slot) : Option Slot → Driver
  | none => { driver with listHead := value }
  | some slot => driver.modify slot fun blink => { blink with next := value }

-- Behind the end of the list the loop would go on at address 12.
def removeFindPrev (driver : Driver) (target : Slot) : Nat → Option Slot → Option (Option Slot)
  | 0, _ => none
  | fuel + 1, link =>
      match driver.link link with
      | none => none
      | some slot => if slot = target then some link else removeFindPrev driver target fuel (some slot)

def mp1IoctlRemove (argument : BitVec 32) (driver : Driver) : Option (Int × Driver) :=
  (mp1FindHelper argument driver).bind fun found =>
    match found with
    | none => some (-1, driver)
    | some slot =>
        (removeFindPrev driver slot (80 * 25) none).map fun link => (0, mp1Free slot (driver.setLink (driver.next slot) link))

def syncNodes (source dest : Slot) (driver : Driver) : Driver :=
  let origin := driver.blinkArray source
  let copied := driver.modify dest fun blink =>
    { blink with
      onLength := origin.onLength
      offLength := origin.offLength
      countdown := origin.countdown
      status := origin.status }
  let blink := copied.blinkArray dest
  -- testb $0x1,STATUS(%edi); cmovl %ebx, %ecx
  let shown := if Flags.less (Flags.test (blink.status.setWidth 8) 1) then blink.onChar else blink.offChar
  mp1Poke blink.offset shown copied

def mp1IoctlSync (argument : BitVec 32) (driver : Driver) : Option (Int × Driver) :=
  (mp1FindHelper (argument >>> 16) driver).bind fun first =>
    match first with
    | none => some (-1, driver)
    | some source =>
        (mp1FindHelper (argument &&& 0xFFFF) driver).map fun second =>
          match second with
          | none => (-1, driver)
          | some dest => (0, syncNodes source dest driver)

-- The second result is the structure that the user's pointer leads to.
def mp1IoctlFind (user : Blink) (driver : Driver) : Option (Int × Blink) :=
  (mp1FindHelper (user.location.setWidth 32) driver).map fun found =>
    match found with
    | none => (-1, user)
    | some slot => (0, driver.blinkArray slot)

inductive Request where
  | add (user : Blink)
  | remove (argument : BitVec 32)
  | find (user : Blink)
  | sync (argument : BitVec 32)
  | tick
deriving DecidableEq

def Request.perform (driver : Driver) : Request → Option (Int × Driver)
  | .add user => some (mp1IoctlAdd user driver)
  | .remove argument => mp1IoctlRemove argument driver
  | .find user => (mp1IoctlFind user driver).map fun found => (found.1, driver)
  | .sync argument => mp1IoctlSync argument driver
  | .tick => (mp1RtcTasklet driver).map fun after => (0, after)

structure Entry where
  location : BitVec 16
  onChar : UInt8
  offChar : UInt8
deriving DecidableEq

def Blink.entry (blink : Blink) : Entry := ⟨blink.location, blink.onChar, blink.offChar⟩

def Driver.entry (driver : Driver) (slot : Slot) : Entry := (driver.blinkArray slot).entry

-- `registered` are the structures added and not yet removed, the last one
-- first; there is no state behind a call that does not return.
structure Session where
  driver : Option Driver
  registered : List Entry

def Request.account (returned : Int) (registered : List Entry) : Request → List Entry
  | .add user => if returned = 0 then user.entry :: registered else registered
  | .remove argument => if returned = 0 then registered.eraseP fun entry =>
      entry.location = argument.setWidth 16 else registered
  | _ => registered

def Session.step (session : Session) (request : Request) : Session :=
  match session.driver.bind request.perform with
  | none => { session with driver := none }
  | some (returned, after) => ⟨some after, request.account returned session.registered⟩

def start (vmem : Nat → UInt8) : Session := ⟨some ⟨fun _ => zeroed, none, vmem⟩, []⟩

end SimpleKernel.Fish
