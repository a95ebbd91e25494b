import Mathlib.Logic.Function.Basic
import SimpleKernel.FileSystem.Directory
import SimpleKernel.Keyboard.Reader
import SimpleKernel.Rtc

set_option autoImplicit false

namespace SimpleKernel.Files

open FileSystem (Image Cursor readDentryByName readData directoryOpen directoryRead)
open Keyboard (readLine)

inductive Fops where
  | files
  | directory
  | rtc
  | stdin
  | stdout
deriving DecidableEq, Repr

-- A slot never used holds whatever the memory of the PCB held: no known table.
structure FileDescriptor where
  fopsPtr : Option Fops
  inode : UInt32
  filePos : UInt32
  flags : UInt32
deriving DecidableEq, Repr

abbrev Table := Nat → FileDescriptor

structure Devices where
  numFilesRead : Cursor
  rtc : Rtc

structure State where
  fds : Table
  devices : Devices

def rtcFiletype : Nat := 0
def dirFiletype : Nat := 1
def regFiletype : Nat := 2

def fopsOf (filetype : Nat) : Option Fops :=
  if filetype = rtcFiletype then some .rtc
  else if filetype = dirFiletype then some .directory
  else if filetype = regFiletype then some .files
  else none

def executeFds (old : Table) : Table := fun i =>
  if i = 0 then { old 0 with flags := 1, fopsPtr := some .stdin, filePos := 0 }
  else if i = 1 then { old 1 with flags := 1, fopsPtr := some .stdout, filePos := 0 }
  else if i ≤ 7 then { old i with flags := 0 }
  else old i

def firstUnused (fds : Table) : Nat → Nat → Nat
  | 0, i => i
  | left + 1, i => if (fds i).flags = 0 then i else firstUnused fds left (i + 1)

def driverOpen (fops : Fops) (devices : Devices) : Int × Devices :=
  match fops with
  | .files => (0, devices)
  | .directory => (0, { devices with numFilesRead := directoryOpen })
  | .rtc => let opened := openRtc devices.rtc; (opened.1, { devices with rtc := opened.2 })
  | .stdin => (-1, devices)
  | .stdout => (-1, devices)

-- The slot as open marks it before the driver runs. Only a regular file gets
-- its position reset.
def markOpen (fops : Fops) (inodeNum : Nat) (slot : FileDescriptor) : FileDescriptor :=
  match fops with
  | .files => { fopsPtr := some .files, inode := UInt32.ofNat inodeNum, filePos := 0, flags := 1 }
  | other => { slot with fopsPtr := some other, inode := 0, flags := 1 }

def sysOpen (image : Image) (filename : Option CString) (s : State) : Int × State :=
  match filename with
  | none => (-1, s)
  | some name =>
      if name.bytes = [] then (-1, s)
      else
        match readDentryByName image name with
        | none => (-1, s)
        | some dentry =>
            let i := firstUnused s.fds 6 2
            if i = 8 then (-1, s)
            else
              match fopsOf dentry.filetype with
              | none => (-1, s)
              | some fops =>
                  let fds := Function.update s.fds i (markOpen fops dentry.inodeNum (s.fds i))
                  let opened := driverOpen fops s.devices
                  if opened.1 = -1 then (-1, ⟨fds, opened.2⟩) else (i, ⟨fds, opened.2⟩)

def sysClose (fd : Int) (s : State) : Int × State :=
  if fd < 0 ∨ fd > 7 ∨ fd = 1 ∨ fd = 0 then (-1, s)
  else if (s.fds fd.toNat).flags ≠ 0 then
    (0, { s with fds := Function.update s.fds fd.toNat { s.fds fd.toNat with flags := 0, filePos := 0, inode := 0 } })
  else (-1, s)

def fileRead (image : Image) (fd : Nat) (nbytes : Int) (s : State) : ReadResult × State :=
  let slot := s.fds fd
  let read := readData image slot.inode.toNat slot.filePos.toNat (nbytes % 2 ^ 32).toNat
  let offset := UInt32.ofNat ((slot.filePos.toNat + read.ret) % 2 ^ 32).toNat
  (read, { s with fds := Function.update s.fds fd { slot with filePos := offset } })

-- `line` is keyboard_buf of the displayed terminal when the wait for Enter ends.
def driverRead (image : Image) (line : Nat → UInt8) (fops : Fops) (fd buf : Nat) (nbytes : Int) (s : State) :
    ReadResult × State :=
  match fops with
  | .files => fileRead image fd nbytes s
  | .directory =>
      let read := directoryRead image buf s.devices.numFilesRead
      (read.1, { s with devices := { s.devices with numFilesRead := read.2 } })
  | .rtc => (⟨[], readRtc⟩, s)
  | .stdin => (readLine line nbytes, s)
  | .stdout => (⟨[], -1⟩, s)

-- A call through a slot without a known table is left without effect; no run
-- from a table of execute gets there.
def sysRead (image : Image) (line : Nat → UInt8) (fd : Int) (buf : Nat) (nbytes : Int) (s : State) : ReadResult × State :=
  if fd < 0 ∨ fd > 7 ∨ buf = 0 ∨ fd = 1 then (⟨[], -1⟩, s)
  else if (s.fds fd.toNat).flags = 0 then (⟨[], -1⟩, s)
  else
    match (s.fds fd.toNat).fopsPtr with
    | some fops => driverRead image line fops fd.toNat buf nbytes s
    | none => (⟨[], -1⟩, s)

-- `frequency` is the int32 at buf, which only the clock reads.
def driverWrite (fops : Fops) (frequency nbytes : Int) (devices : Devices) : Int × Devices :=
  match fops with
  | .files => (-1, devices)
  | .directory => (-1, devices)
  | .rtc => let written := writeRtc frequency devices.rtc; (written.1, { devices with rtc := written.2 })
  | .stdin => (-1, devices)
  | .stdout => (max nbytes 0, devices)

def sysWrite (fd : Int) (buf : Nat) (frequency nbytes : Int) (s : State) : Int × State :=
  if fd < 0 ∨ fd > 7 ∨ buf = 0 then (-1, s)
  else if (s.fds fd.toNat).flags = 0 then (-1, s)
  else
    match (s.fds fd.toNat).fopsPtr with
    | some fops =>
        let written := driverWrite fops frequency nbytes s.devices
        (written.1, { s with devices := written.2 })
    | none => (-1, s)

inductive Call where
  | open (filename : Option CString)
  | close (fd : Int)
  | read (fd : Int) (buf : Nat) (nbytes : Int) (line : Nat → UInt8)
  | write (fd : Int) (buf : Nat) (frequency nbytes : Int)
  -- what other processes do in between: only the devices are shared
  | elsewhere (devices : Devices)

def perform (image : Image) (call : Call) (s : State) : ReadResult × State :=
  match call with
  | .open filename => let opened := sysOpen image filename s; (⟨[], opened.1⟩, opened.2)
  | .close fd => let closed := sysClose fd s; (⟨[], closed.1⟩, closed.2)
  | .read fd buf nbytes line => sysRead image line fd buf nbytes s
  | .write fd buf frequency nbytes => let written := sysWrite fd buf frequency nbytes s; (⟨[], written.1⟩, written.2)
  | .elsewhere devices => (⟨[], 0⟩, { s with devices := devices })

structure Process where
  files : State
  log : List (Call × ReadResult)

def start (old : Table) (devices : Devices) : Process := ⟨⟨executeFds old, devices⟩, []⟩

def Process.step (image : Image) (p : Process) (call : Call) : Process :=
  let performed := perform image call p.files
  ⟨performed.2, (call, performed.1) :: p.log⟩

end SimpleKernel.Files
