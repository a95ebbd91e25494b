import Mathlib.Data.BitVec
import Mathlib.Data.Fintype.Basic

set_option autoImplicit false

namespace SimpleKernel.Keyboard

-- The four scancode tables up to their last nonzero entry; the remaining
-- entries of the 256 are NUL.
def lower : List UInt8 :=
  [0, 0, 49, 50, 51, 52, 53, 54, 55, 56, 57, 48, 45, 61, 8, 32, 113, 119, 101, 114, 116, 121, 117, 105, 111,
   112, 91, 93, 10, 0, 97, 115, 100, 102, 103, 104, 106, 107, 108, 59, 39, 96, 0, 92, 122, 120, 99, 118, 98,
   110, 109, 44, 46, 47, 0, 42, 0, 32, 0, 0, 0, 32, 0, 0, 0, 0, 0, 0, 0, 0, 0, 55, 56, 57, 45, 52, 53, 54, 43,
   49, 50, 51, 48, 46]

def uppershift : List UInt8 :=
  [0, 0, 33, 64, 35, 36, 37, 94, 38, 42, 40, 41, 95, 43, 8, 32, 81, 87, 69, 82, 84, 89, 85, 73, 79, 80, 123,
   125, 10, 0, 65, 83, 68, 70, 71, 72, 74, 75, 76, 58, 34, 126, 0, 124, 90, 88, 67, 86, 66, 78, 77, 60, 62, 63,
   0, 42, 0, 32, 0, 0, 0, 32, 0, 0, 0, 0, 0, 0, 0, 0, 0, 55, 56, 57, 45, 52, 53, 54, 43, 49, 50, 51, 48, 46]

def caps : List UInt8 :=
  [0, 0, 49, 50, 51, 52, 53, 54, 55, 56, 57, 48, 45, 61, 8, 32, 81, 87, 69, 82, 84, 89, 85, 73, 79, 80, 91, 93,
   10, 0, 65, 83, 68, 70, 71, 72, 74, 75, 76, 59, 39, 96, 0, 92, 90, 88, 67, 86, 66, 78, 77, 44, 46, 47, 0, 42,
   0, 32, 0, 0, 0, 32, 0, 0, 0, 0, 0, 0, 0, 0, 0, 55, 56, 57, 45, 52, 53, 54, 43, 49, 50, 51, 48, 46]

def lowershift : List UInt8 :=
  [0, 0, 33, 64, 35, 36, 37, 94, 38, 42, 40, 41, 95, 43, 8, 32, 113, 119, 101, 114, 116, 121, 117, 105, 111,
   112, 123, 125, 10, 0, 97, 115, 100, 102, 103, 104, 106, 107, 108, 58, 34, 126, 0, 124, 122, 120, 99, 118,
   98, 110, 109, 60, 62, 63, 0, 42, 0, 32, 0, 0, 0, 32, 0, 0, 0, 0, 0, 0, 0, 0, 0, 55, 56, 57, 45, 52, 53, 54,
   43, 49, 50, 51, 48, 46]

inductive Table where
  | lower
  | uppershift
  | caps
  | lowershift
deriving DecidableEq, Repr

def Table.chars : Table → List UInt8
  | .lower => Keyboard.lower
  | .uppershift => Keyboard.uppershift
  | .caps => Keyboard.caps
  | .lowershift => Keyboard.lowershift

def Table.key (pointer : Table) (data : UInt8) : UInt8 := pointer.chars.getD data.toNat 0

def leftShiftPress : UInt8 := 0x2A
def rightShiftPress : UInt8 := 0x36
def leftShiftRelease : UInt8 := 0xAA
def rightShiftRelease : UInt8 := 0xB6
def capsPress : UInt8 := 0x3A
def leftControlPress : UInt8 := 0x1D
def leftControlRelease : UInt8 := 0x9D
def enterPress : UInt8 := 0x1C
def leftAltPress : UInt8 := 0x38
def rightAltPress : UInt8 := 0xE0
def leftAltRelease : UInt8 := 0xB8
def rightAltRelease : UInt8 := 0xE0
def f1Scancode : UInt8 := 0x3B
def f2Scancode : UInt8 := 0x3C
def f3Scancode : UInt8 := 0x3D

-- case_status, flag and is_alphabet are written by the source and never decide
-- anything, so the modifiers are these four.
structure Modifiers where
  pointer : Table
  capsEnable : Bool
  controlStatus : Bool
  altStatus : Bool
deriving DecidableEq, Repr

def capsStatus (keyPressed : UInt8) (m : Modifiers) : Modifiers :=
  if keyPressed = capsPress then
    if m.capsEnable then { m with capsEnable := false, pointer := .lower }
    else { m with capsEnable := true, pointer := .caps }
  else m

def shiftStatus (keyPressed : UInt8) (m : Modifiers) : Modifiers :=
  if keyPressed = leftShiftPress ∨ keyPressed = rightShiftPress then
    if m.capsEnable then { m with pointer := .lowershift } else { m with pointer := .uppershift }
  else if keyPressed = leftShiftRelease ∨ keyPressed = rightShiftRelease then
    if m.capsEnable then { m with pointer := .caps } else { m with pointer := .lower }
  else m

def controlKey (keyPressed : UInt8) (m : Modifiers) : Modifiers :=
  if keyPressed = leftControlPress then { m with controlStatus := true }
  else if keyPressed = leftControlRelease then { m with controlStatus := false }
  else m

-- 0xE0 is both the press and the release of the right Alt; the press wins.
def altKey (keyPressed : UInt8) (m : Modifiers) : Modifiers :=
  if keyPressed = leftAltPress ∨ keyPressed = rightAltPress then { m with altStatus := true }
  else if keyPressed = leftAltRelease ∨ keyPressed = rightAltRelease then { m with altStatus := false }
  else m

def keyStatus (keyPressed : UInt8) (m : Modifiers) : Modifiers :=
  altKey keyPressed (controlKey keyPressed (shiftStatus keyPressed (capsStatus keyPressed m)))

end SimpleKernel.Keyboard
