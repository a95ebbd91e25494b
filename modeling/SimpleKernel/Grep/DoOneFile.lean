import Mathlib.Logic.Function.Basic
import SimpleKernel.Library.Scan
import SimpleKernel.Strings

set_option autoImplicit false

namespace SimpleKernel.Grep

def bufSize : Nat := 1024
def newline : UInt8 := 10
def colon : UInt8 := 58

def text (message : String) : List UInt8 := message.toUTF8.toList

-- `bound` is an index at or before which the memory holds a NUL.
def ece391Strlen (s : Bytes) (bound : Nat) : Nat := Scan.first (fun i => s i = 0) bound 0

def ece391Strcpy : Nat → Nat → Nat → Bytes → Bytes
  | 0, _, _, data => data
  | fuel + 1, dst, src, data =>
      let copied := Function.update data dst (data src)
      if data src = 0 then copied else ece391Strcpy fuel (dst + 1) (src + 1) copied

def strncmpLoop (s1 s2 : Bytes) : Nat → Nat → Int
  | 0, _ => 0
  | n + 1, i =>
      if s1 i = s2 i then
        if s1 i = 0 ∨ n = 0 then 0 else strncmpLoop s1 s2 n (i + 1)
      else (s1 i).toNat - (s2 i).toNat

def ece391Strncmp (s1 s2 : Bytes) (n : Nat) : Int := strncmpLoop s1 s2 n 0

def ece391Fdputs (s : Bytes) (bound : Nat) : List UInt8 := (List.range (ece391Strlen s bound)).map s

structure Locals where
  data : Bytes
  last : Nat
  remaining : List UInt8
  output : List UInt8

-- The system calls: what open finds, the count that a read of so many bytes
-- returns in front of what remains of the file, and the result of close.
structure Calls where
  file : Option (List UInt8)
  read : Nat → List UInt8 → Int
  close : Int

def store (data : Bytes) (start : Nat) (bytes : List UInt8) : Bytes := fun i =>
  if start ≤ i ∧ i < start + bytes.length then bytes.getD (i - start) 0 else data i

variable (s fname : CString)

-- s is a string of signed characters, data one of unsigned ones.
def Found (data : Bytes) (check : Nat) : Prop :=
  (s.memory 0).toInt8.toInt = (data check).toNat ∧
    ece391Strncmp (fun i => data (check + i)) s.memory (ece391Strlen s.memory s.bytes.length) = 0

instance (data : Bytes) (check : Nat) : Decidable (Found s data check) := inferInstanceAs (Decidable (_ ∧ _))

def searchLine (data : Bytes) (lineStart lineEnd : Nat) : List UInt8 :=
  if Scan.first (Found s data) (lineEnd - lineStart) lineStart < lineEnd then
    ece391Fdputs fname.memory fname.bytes.length ++ [colon] ++
      ece391Fdputs (fun i => data (lineStart + i)) (lineEnd - lineStart) ++ [newline]
  else []

def lineLoop (cnt : Int) : Nat → Nat → Locals → Option Locals
  | 0, _, _ => none
  | fuel + 1, lineStart, locals =>
      let lineEnd := Scan.first (fun i => locals.data i = newline) (locals.last - lineStart) lineStart
      let closed := Function.update locals.data lineEnd 0
      if locals.data lineEnd ≠ newline ∧ 0 ≠ cnt ∧ lineStart ≠ 0 then
        some { locals with data := ece391Strcpy (bufSize + 1) 0 lineStart closed, last := locals.last - lineStart }
      else
        let searched := { locals with data := closed, output := locals.output ++ searchLine s fname closed lineStart lineEnd }
        if lineEnd + 1 ≥ locals.last then some { searched with last := 0 }
        else lineLoop cnt fuel (lineEnd + 1) searched

def readLoop (read : Nat → List UInt8 → Int) : Nat → Locals → Option (Int × Locals)
  | 0, _ => none
  | fuel + 1, locals =>
      let cnt := read (bufSize - locals.last) locals.remaining
      if -1 = cnt then some (-1, { locals with output := locals.output ++ text "file read failed\n" })
      else
        let filled :=
          { locals with
            data := store locals.data locals.last (locals.remaining.take cnt.toNat)
            last := locals.last + cnt.toNat
            remaining := locals.remaining.drop cnt.toNat }
        match lineLoop s fname cnt (bufSize + 1) 0 filled with
        | none => none
        | some after => if 0 = cnt then some (0, after) else readLoop read fuel after

-- `stack` is what the buffer holds before the first read. The result is the
-- return value and all that was written to the terminal; `none` is a loop that
-- has not come to its end.
def doOneFile (calls : Calls) (stack : Bytes) : Option (Int × List UInt8) :=
  match calls.file with
  | none => some (-1, text "file open failed\n")
  | some file =>
      (readLoop s fname calls.read (file.length + 1) ⟨stack, 0, file, []⟩).map fun result =>
        if result.1 = -1 then (-1, result.2.output)
        else if -1 = calls.close then (-1, result.2.output ++ text "file close failed\n")
        else (0, result.2.output)

end SimpleKernel.Grep
