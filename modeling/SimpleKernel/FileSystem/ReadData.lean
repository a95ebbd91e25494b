import SimpleKernel.FileSystem.Image

set_option autoImplicit false

namespace SimpleKernel.FileSystem

-- (inode_t *) bootblock_addr + inode + 1
def inodeAddress (inode : Nat) : Int := ((inode : Int) + 1) * 4096

def fileLength (image : Image) (inode : Nat) : Nat := word image (inodeAddress inode)

def dataBlockNum (image : Image) (inode : Nat) (j : Int) : Nat := word image (inodeAddress inode + 4 + 4 * j)

def dataAddress (image : Image) (block : Nat) (k : Int) : Int :=
  ((inodeCount image : Int) + 1 + block) * 4096 + k

-- The loop of read_data with `left` iterations to go. `i` is a signed int: it
-- is divided as one, and the comparisons with unsigned values read its bits.
-- The byte at the length itself is stored before the end of file is noticed.
def readFrom (image : Image) (inode offset : Nat) : Nat → Nat → ReadResult
  | 0, i => ⟨[], toInt32 ((i : Int) - offset)⟩
  | left + 1, i =>
      let block := dataBlockNum image inode ((toInt32 i).tdiv 4096)
      if block ≥ dataCount image then ⟨[], toInt32 ((i : Int) - offset - 1)⟩
      else
        let byte := byteAt image (dataAddress image block ((toInt32 i).tmod 4096))
        if i = fileLength image inode then ⟨[byte], toInt32 ((i : Int) - offset)⟩
        else
          let rest := readFrom image inode offset left (i + 1)
          ⟨byte :: rest.stored, rest.ret⟩

-- All arguments are uint32_t; offset + length wraps.
def readData (image : Image) (inode offset length : Nat) : ReadResult :=
  if inode ≥ inodeCount image then ⟨[], -1⟩
  else readFrom image inode offset ((offset + length) % 2 ^ 32 - offset) offset

def fileByte (image : Image) (inode k : Nat) : UInt8 :=
  byteAt image (dataAddress image (dataBlockNum image inode ((k / 4096 : Nat) : Int)) ((k % 4096 : Nat) : Int))

def fileSlice (image : Image) (inode start count : Nat) : List UInt8 :=
  (List.range' start count).map (fileByte image inode)

def fileContent (image : Image) (inode : Nat) : List UInt8 := fileSlice image inode 0 (fileLength image inode)

structure GoodFile (image : Image) (inode : Nat) : Prop where
  inodeInRange : inode < inodeCount image
  lengthInRange : fileLength image inode < 1023 * 4096
  blocksInRange : ∀ j ≤ fileLength image inode / 4096, dataBlockNum image inode (j : Int) < dataCount image

theorem file_slice_length (image : Image) (inode start count : Nat) :
    (fileSlice image inode start count).length = count := by
  simp [fileSlice]

theorem file_slice_succ (image : Image) (inode start count : Nat) :
    fileSlice image inode start (count + 1) = fileByte image inode start :: fileSlice image inode (start + 1) count := by
  simp [fileSlice, List.range'_succ]

theorem file_slice_append (image : Image) (inode start a b : Nat) :
    fileSlice image inode start a ++ fileSlice image inode (start + a) b = fileSlice image inode start (a + b) := by
  rw [fileSlice, fileSlice, fileSlice, ← List.map_append]
  congr 1
  simp

theorem file_slice_take (image : Image) (inode start count n : Nat) (fits : n ≤ count) :
    (fileSlice image inode start count).take n = fileSlice image inode start n := by
  have split := file_slice_append image inode start n (count - n)
  rw [Nat.add_sub_cancel' fits] at split
  have prefixLength := file_slice_length image inode start n
  rw [← split, List.take_append_of_le_length (Nat.le_of_eq prefixLength.symm),
    List.take_of_length_le (Nat.le_of_eq prefixLength)]

theorem signed_position (i : Nat) (small : i < 2 ^ 31) :
    (toInt32 i).tdiv 4096 = ((i / 4096 : Nat) : Int) ∧ (toInt32 i).tmod 4096 = ((i % 4096 : Nat) : Int) := by
  rw [to_int32_small i (by omega) (by omega)]
  exact ⟨(Int.ofNat_tdiv i 4096).symm, (Int.ofNat_tmod i 4096).symm⟩

theorem read_from_succ (image : Image) (inode offset left i : Nat) (small : i < 2 ^ 31)
    (valid : dataBlockNum image inode ((i / 4096 : Nat) : Int) < dataCount image) :
    readFrom image inode offset (left + 1) i =
      if i = fileLength image inode then ⟨[fileByte image inode i], toInt32 ((i : Int) - offset)⟩
      else ⟨fileByte image inode i :: (readFrom image inode offset left (i + 1)).stored,
        (readFrom image inode offset left (i + 1)).ret⟩ := by
  obtain ⟨quotient, remainder⟩ := signed_position i small
  simp only [readFrom, quotient, remainder, if_neg (Nat.not_le.mpr valid), fileByte]

theorem read_from_good (image : Image) (inode offset left i : Nat) (good : GoodFile image inode)
    (above : offset ≤ i) (within : i ≤ fileLength image inode) :
    readFrom image inode offset left i =
      ⟨fileSlice image inode i (min left (fileLength image inode - i + 1)),
        (min (i + left) (fileLength image inode) - offset : Nat)⟩ := by
  have long := good.lengthInRange
  induction left generalizing i with
  | zero =>
      have ret := to_int32_small ((i : Int) - offset) (by omega) (by omega)
      simp only [readFrom, ret, Nat.zero_min, Nat.add_zero, fileSlice, List.range'_zero, List.map_nil]
      congr 1
      omega
  | succ left ih =>
      have valid := good.blocksInRange (i / 4096) (Nat.div_le_div_right within)
      rw [read_from_succ image inode offset left i (by omega) valid]
      by_cases last : i = fileLength image inode
      · have ret := to_int32_small ((i : Int) - offset) (by omega) (by omega)
        have count : min (left + 1) (fileLength image inode - i + 1) = 0 + 1 := by omega
        rw [if_pos last, ret, count, file_slice_succ]
        congr 1
        omega
      · have count : min (left + 1) (fileLength image inode - i + 1) =
            min left (fileLength image inode - (i + 1) + 1) + 1 := by omega
        have reach : i + (left + 1) = i + 1 + left := by omega
        rw [if_neg last, ih (i + 1) (by omega) (by omega), count, reach, file_slice_succ]

-- From a position inside the file, read_data returns what is left of the file
-- up to `length` bytes, and stores one byte more only when it met the end.
theorem read_data_good (image : Image) (inode offset length : Nat) (good : GoodFile image inode)
    (within : offset ≤ fileLength image inode) (short : length < 2 ^ 31) :
    readData image inode offset length =
      ⟨fileSlice image inode offset (min length (fileLength image inode - offset + 1)),
        (min length (fileLength image inode - offset) : Nat)⟩ := by
  have long := good.lengthInRange
  have wrap : (offset + length) % 2 ^ 32 - offset = length := by omega
  have count : min (offset + length) (fileLength image inode) - offset = min length (fileLength image inode - offset) := by
    omega
  rw [readData, if_neg (Nat.not_le.mpr good.inodeInRange), wrap,
    read_from_good image inode offset length offset good (Nat.le_refl offset) within, count]

theorem read_from_blocked (image : Image) (inode offset left i : Nat)
    (invalid : dataCount image ≤ dataBlockNum image inode ((toInt32 i).tdiv 4096)) :
    readFrom image inode offset (left + 1) i = ⟨[], toInt32 ((i : Int) - offset - 1)⟩ :=
  if_pos invalid

theorem read_from_stores (image : Image) (inode offset left i : Nat)
    (valid : ¬ dataCount image ≤ dataBlockNum image inode ((toInt32 i).tdiv 4096)) :
    0 < (readFrom image inode offset (left + 1) i).stored.length := by
  simp only [readFrom, if_neg valid, ge_iff_le]
  split <;> simp

theorem read_from_bounds (image : Image) (inode offset left i : Nat) (above : offset ≤ i)
    (short : i + left < offset + 2 ^ 31) :
    (readFrom image inode offset left i).stored.length ≤ left ∧
      -1 ≤ (readFrom image inode offset left i).ret ∧
      (readFrom image inode offset left i).ret ≤ ((i + left - offset : Nat) : Int) := by
  induction left generalizing i with
  | zero =>
      have ret := to_int32_small ((i : Int) - offset) (by omega) (by omega)
      simp only [readFrom, ret, List.length_nil]
      omega
  | succ left ih =>
      have failed := to_int32_small ((i : Int) - offset - 1) (by omega) (by omega)
      have ended := to_int32_small ((i : Int) - offset) (by omega) (by omega)
      have rest := ih (i + 1) (by omega) (by omega)
      simp only [readFrom, failed, ended]
      split
      · simp only [List.length_nil]
        omega
      · split
        · simp only [List.length_singleton]
          omega
        · simp only [List.length_cons]
          omega

theorem read_data_bounds (image : Image) (inode offset length : Nat) (short : length < 2 ^ 31) :
    (readData image inode offset length).stored.length ≤ length ∧
      -1 ≤ (readData image inode offset length).ret ∧ (readData image inode offset length).ret ≤ (length : Int) := by
  unfold readData
  split
  · simp only [List.length_nil]
    omega
  · have bounds := read_from_bounds image inode offset ((offset + length) % 2 ^ 32 - offset) offset
      (Nat.le_refl offset) (by omega)
    omega

end SimpleKernel.FileSystem
