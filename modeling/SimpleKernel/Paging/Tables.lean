import Mathlib.Logic.Function.Basic
import SimpleKernel.Library.BitField

set_option autoImplicit false

namespace SimpleKernel.Paging

open BitField (Field putAll)

abbrev Word := BitVec 32

def size4kb : Nat := 4096
def size4mb : Nat := 0x400000
def size8mb : Nat := 0x800000
def size128mb : Nat := 0x8000000
def size132mb : Nat := 0x8400000
def videoMemory : Nat := 0xB8000
def userAdd : Nat := 0x08048000

-- The two layouts of a page-directory entry and the page-table entry share one
-- word. A field keeps one position in every layout that has it.
def present : Field := ⟨0, 1⟩
def readWrite : Field := ⟨1, 1⟩
def userSupervisor : Field := ⟨2, 1⟩
def writeThrough : Field := ⟨3, 1⟩
def cacheDisabled : Field := ⟨4, 1⟩
def accessed : Field := ⟨5, 1⟩
def dirty : Field := ⟨6, 1⟩
def reserved4kb : Field := ⟨6, 1⟩
def pageSize : Field := ⟨7, 1⟩
def attributeIndexPte : Field := ⟨7, 1⟩
def globalPage : Field := ⟨8, 1⟩
def avail : Field := ⟨9, 3⟩
def bit20Addr : Field := ⟨12, 20⟩
def attributeIndex4mb : Field := ⟨12, 1⟩
def reserved4mb : Field := ⟨13, 9⟩
def bit10Addr : Field := ⟨22, 10⟩

-- Where the linker puts the two page tables: page aligned, apart, and inside
-- the kernel's own 4..8MB, which is identity mapped.
structure Layout where
  pageTable : Nat
  vidmapPt : Nat
  tableAligned : pageTable % 4096 = 0
  vidmapAligned : vidmapPt % 4096 = 0
  tableInKernel : 0x400000 ≤ pageTable ∧ pageTable + 4096 ≤ 0x800000
  vidmapInKernel : 0x400000 ≤ vidmapPt ∧ vidmapPt + 4096 ≤ 0x800000
  distinct : pageTable ≠ vidmapPt

structure Tables where
  pageDirectory : Nat → Word
  pageTable : Nat → Word
  vidmapPt : Nat → Word

instance : Inhabited Layout := ⟨⟨0x412000, 0x415000, rfl, rfl, by decide, by decide, by decide⟩⟩

-- The range test of the source joins its two bounds with ||, so every entry
-- takes the first branch; the subtraction is on signed integers.
def initTableEntry (i : Nat) (entry : Word) : Word :=
  if i ≥ videoMemory / size4kb ∨ i ≤ videoMemory / size4kb + 3 then
    putAll [(present, 1), (globalPage, 1),
      (bit20Addr, ((videoMemory / size4kb : Nat) : Int) + ((i : Int) - ((videoMemory / size4kb : Nat) : Int))),
      (readWrite, 1), (userSupervisor, 0), (writeThrough, 0), (cacheDisabled, 0), (accessed, 0), (dirty, 0),
      (attributeIndexPte, 0), (avail, 0)] entry
  else
    putAll [(present, 0), (globalPage, 0), (bit20Addr, (i * (size4kb / 4096) : Nat)),
      (readWrite, 1), (userSupervisor, 0), (writeThrough, 0), (cacheDisabled, 0), (accessed, 0), (dirty, 0),
      (attributeIndexPte, 0), (avail, 0)] entry

def initDirectoryEntry (layout : Layout) (i : Nat) (entry : Word) : Word :=
  if i = 0 then
    putAll [(present, 1), (readWrite, 1), (userSupervisor, 0), (writeThrough, 0), (cacheDisabled, 1),
      (accessed, 0), (reserved4kb, 0), (pageSize, 0), (globalPage, 1), (avail, 0),
      (bit20Addr, (layout.pageTable / 4096 : Nat))] entry
  else if i = 1 then
    putAll [(present, 1), (readWrite, 1), (userSupervisor, 0), (writeThrough, 0), (cacheDisabled, 0),
      (accessed, 0), (dirty, 0), (pageSize, 1), (globalPage, 0), (avail, 0), (attributeIndex4mb, 0),
      (reserved4mb, 0), (bit10Addr, (size4mb / 2 ^ 22 : Nat))] entry
  else
    putAll [(present, 0), (readWrite, 1), (userSupervisor, 0), (writeThrough, 0), (cacheDisabled, 0),
      (accessed, 0), (dirty, 0), (pageSize, 0), (globalPage, 0), (avail, 0), (attributeIndex4mb, 0),
      (reserved4mb, 0), (bit10Addr, (i * (size4mb / 2 ^ 22) : Nat))] entry

-- vidmap_pt is a static array and starts as zero; what the other two tables
-- held before does not matter.
def initPaging (layout : Layout) (directory table : Nat → Word) : Tables where
  pageDirectory := fun i => if i < 1024 then initDirectoryEntry layout i (directory i) else directory i
  pageTable := fun i => if i < 1024 then initTableEntry i (table i) else table i
  vidmapPt := fun _ => 0

def pageSwitchEntry (prossId : Int) (entry : Word) : Word :=
  putAll [(present, 1), (readWrite, 1), (userSupervisor, 1), (writeThrough, 0), (cacheDisabled, 0),
    (accessed, 0), (dirty, 0), (pageSize, 1), (globalPage, 0), (avail, 0), (attributeIndex4mb, 0),
    (reserved4mb, 0), (bit10Addr, ((size8mb : Int) + prossId * (size4mb : Int)) / 2 ^ 22)] entry

def userIdx : Nat := userAdd / 2 ^ 22

def pageSwitch (prossId : Int) (paging : Tables) : Tables :=
  if prossId < 0 ∨ prossId ≥ 8 then paging
  else { paging with
    pageDirectory := Function.update paging.pageDirectory userIdx
      (pageSwitchEntry prossId (paging.pageDirectory userIdx)) }

def vidmapDirectoryEntry (layout : Layout) (entry : Word) : Word :=
  putAll [(present, 1), (readWrite, 1), (userSupervisor, 1), (writeThrough, 0), (cacheDisabled, 0),
    (accessed, 0), (reserved4kb, 0), (pageSize, 0), (globalPage, 0), (avail, 0),
    (bit20Addr, (layout.vidmapPt / 4096 : Nat))] entry

def vidmapTableEntry (entry : Word) : Word :=
  putAll [(present, 1), (globalPage, 0), (readWrite, 1), (userSupervisor, 1), (writeThrough, 0),
    (cacheDisabled, 0), (accessed, 0), (dirty, 0), (attributeIndexPte, 0), (avail, 0),
    (bit20Addr, (videoMemory / 4096 : Nat))] entry

def vidmapIdx : Nat := size132mb / 2 ^ 22

def vidmapPtIdx : Nat := (size132mb / 2 ^ 12) &&& 0x03FF

structure VidmapResult where
  ret : Int
  paging : Tables
  store : Option (Word × Word)

-- page_table[33] maps kernel page 33 but is only the scratch copy from which
-- the entry of vidmap_pt is taken.
def vidmap (layout : Layout) (screenStart : Word) (paging : Tables) : VidmapResult :=
  if screenStart = 0 then ⟨-1, paging, none⟩
  else if screenStart.toInt < (size128mb : Int) ∨ screenStart.toInt ≥ (size128mb : Int) + (size4mb : Int) then
    ⟨-1, paging, none⟩
  else
    let scratch := vidmapTableEntry (paging.pageTable vidmapIdx)
    ⟨0, { pageDirectory := Function.update paging.pageDirectory vidmapIdx
            (vidmapDirectoryEntry layout (paging.pageDirectory vidmapIdx)),
          pageTable := Function.update paging.pageTable vidmapIdx scratch,
          vidmapPt := Function.update paging.vidmapPt vidmapPtIdx scratch },
      some (screenStart, BitVec.ofNat 32 size132mb)⟩

inductive Call where
  | pageSwitch (prossId : Int)
  | vidmap (screenStart : Word)

def step (layout : Layout) (paging : Tables) : Call → Tables
  | .pageSwitch prossId => pageSwitch prossId paging
  | .vidmap screenStart => (vidmap layout screenStart paging).paging

end SimpleKernel.Paging
