import SimpleKernel.FileSystem.Outcome

set_option autoImplicit false

namespace SimpleKernel.FileSystem

def maxFilesize : Nat := 1023
def blocksize : Nat := 4096

-- A file as the format has it: at most 1023 blocks, of which those that hold
-- its text are blocks of the image. The other entries of its table are free.
structure StoredFile (image : Image) (inode : Nat) : Prop where
  inodeInRange : inode < inodeCount image
  lengthInRange : fileLength image inode ≤ maxFilesize * blocksize
  blocksInRange : ∀ j < (fileLength image inode + 4095) / blocksize, dataBlockNum image inode (j : Int) < dataCount image

def bufferAfter (buf : Bytes) (result : ReadResult) : Bytes := fun k => result.stored.getD k (buf k)

def availableBytes (image : Image) (inode offset length : Nat) : Nat :=
  if offset < fileLength image inode then min length (fileLength image inode - offset) else 0

def ReadsRange (image : Image) (inode offset length : Nat) : Prop :=
  (readData image inode offset length).ret = availableBytes image inode offset length ∧
    ∀ (buf : Bytes) (k : Nat), bufferAfter buf (readData image inode offset length) k =
      if k < availableBytes image inode offset length then fileByte image inode (offset + k) else buf k

theorem file_slice_get (image : Image) (inode start count k : Nat) (byte : UInt8) :
    (fileSlice image inode start count).getD k byte = if k < count then fileByte image inode (start + k) else byte := by
  by_cases inside : k < count
  · simp [fileSlice, inside]
  · simp [fileSlice, inside]

theorem stored_file_small (image : Image) (inode : Nat) (file : StoredFile image inode) :
    fileLength image inode < 2 ^ 31 := by
  have long := file.lengthInRange
  simp only [maxFilesize, blocksize] at long
  omega

theorem stored_file_present (image : Image) (inode k : Nat) (file : StoredFile image inode)
    (below : k < fileLength image inode) : BlockPresent image inode k := by
  have small := stored_file_small image inode file
  rw [block_present_small image inode k (by omega)]
  exact file.blocksInRange (k / 4096) (by simp only [blocksize]; omega)

theorem stored_file_outcome (image : Image) (inode offset length : Nat) (file : StoredFile image inode)
    (short : length < 2 ^ 31) (within : offset ≤ fileLength image inode) :
    ReadOutcome image inode offset length offset (readData image inode offset length) := by
  have small := stored_file_small image inode file
  exact read_data_outcome image inode offset length file.inodeInRange short within (by omega)

theorem stored_file_missing (image : Image) (inode offset count : Nat) (file : StoredFile image inode)
    (passed : Passed image inode offset count) (missing : ¬ BlockPresent image inode (offset + count)) :
    offset + count = fileLength image inode := by
  have within := passed.within
  by_contra inside
  exact missing (stored_file_present image inode (offset + count) file (by omega))

theorem read_data_inside (image : Image) (inode offset length : Nat) (file : StoredFile image inode)
    (within : offset + length ≤ fileLength image inode) :
    readData image inode offset length = ⟨fileSlice image inode offset length, (length : Nat)⟩ := by
  have small := stored_file_small image inode file
  have outcome := stored_file_outcome image inode offset length file (by omega) (by omega)
  generalize readData image inode offset length = result at outcome ⊢
  cases outcome with
  | finished passed =>
      congr 1
      omega
  | ended count early passed atEnd here => omega
  | blocked count early passed missing =>
      have last := stored_file_missing image inode offset count file passed missing
      omega

theorem reads_range_length (image : Image) (inode offset length : Nat) (reads : ReadsRange image inode offset length) :
    (readData image inode offset length).stored.length ≤ availableBytes image inode offset length := by
  obtain ⟨_, bytes⟩ := reads
  generalize readData image inode offset length = result at bytes ⊢
  generalize availableBytes image inode offset length = n at bytes ⊢
  by_contra more
  have changed := bytes (fun k => result.stored.getD k 0 + 1) n
  have inside : n < result.stored.length := Nat.lt_of_not_le more
  simp only [bufferAfter, if_neg (Nat.lt_irrefl n), List.getD_eq_getElem?_getD, List.getElem?_eq_getElem inside,
    Option.getD_some] at changed
  exact absurd changed (by simp)

theorem read_data_past (image : Image) (inode offset length : Nat) (file : StoredFile image inode)
    (range : offset + length < 2 ^ 31) (asked : length ≠ 0) (past : fileLength image inode < offset + length) :
    availableBytes image inode offset length < (readData image inode offset length).stored.length ∨
      (readData image inode offset length).ret ≠ availableBytes image inode offset length := by
  by_cases beyond : fileLength image inode < offset
  · have none : availableBytes image inode offset length = 0 := if_neg (by omega)
    have wrap : (offset + length) % 2 ^ 32 - offset = length := by omega
    obtain ⟨rest, count⟩ := Nat.exists_eq_succ_of_ne_zero asked
    rw [none, readData, if_neg (Nat.not_le.mpr file.inodeInRange), wrap, count]
    by_cases blocked : dataCount image ≤ dataBlockNum image inode ((toInt32 offset).tdiv 4096)
    · have ret := to_int32_small ((offset : Int) - offset - 1) (by omega) (by omega)
      rw [read_from_blocked image inode offset rest offset blocked, ret]
      exact Or.inr (by dsimp only; omega)
    · exact Or.inl (read_from_stores image inode offset rest offset blocked)
  · have available : availableBytes image inode offset length = fileLength image inode - offset := by
      unfold availableBytes
      split <;> omega
    have outcome := stored_file_outcome image inode offset length file (by omega) (Nat.not_lt.mp beyond)
    rw [available]
    generalize readData image inode offset length = result at outcome ⊢
    cases outcome with
    | finished passed =>
        have within := passed.within
        omega
    | ended count early passed atEnd here =>
        left
        rw [file_slice_length]
        omega
    | blocked count early passed missing =>
        have last := stored_file_missing image inode offset count file passed missing
        right
        dsimp only
        omega

theorem inside_reads_range (image : Image) (inode offset length : Nat) (file : StoredFile image inode)
    (within : offset + length ≤ fileLength image inode) : ReadsRange image inode offset length := by
  have available : availableBytes image inode offset length = length := by
    unfold availableBytes
    split <;> omega
  rw [ReadsRange, available, read_data_inside image inode offset length file within]
  exact ⟨rfl, fun buf k => file_slice_get image inode offset length k (buf k)⟩

theorem empty_reads_range (image : Image) (inode offset : Nat) (file : StoredFile image inode) (range : offset < 2 ^ 31) :
    ReadsRange image inode offset 0 := by
  have available : availableBytes image inode offset 0 = 0 := by
    unfold availableBytes
    split <;> simp
  have wrap : (offset + 0) % 2 ^ 32 - offset = 0 := by omega
  have ret := to_int32_small ((offset : Int) - offset) (by omega) (by omega)
  rw [ReadsRange, available, readData, if_neg (Nat.not_le.mpr file.inodeInRange), wrap, readFrom, ret]
  exact ⟨Int.sub_self _, fun _ _ => rfl⟩

def oneByteImage : Image := fun address =>
  if address = 4 ∨ address = 8 ∨ address = 4096 then 1 else if address = 8192 then 104 else 0

theorem one_byte_file : StoredFile oneByteImage 0 where
  inodeInRange := by decide +kernel
  lengthInRange := by decide +kernel
  blocksInRange := by decide +kernel

def setLength (length : Nat) (image : Image) : Image := fun address =>
  if 4096 ≤ address ∧ address < 4100 then UInt8.ofNat (length / 2 ^ (8 * (address - 4096))) else image address

theorem set_length_elsewhere (length : Nat) (image : Image) (address : Nat) (outside : address < 4096 ∨ 4100 ≤ address) :
    setLength length image address = image address :=
  if_neg (by omega)

theorem set_length_word (length : Nat) (image : Image) (small : length < 2 ^ 32) :
    fileLength (setLength length image) 0 = length := by
  have byte : ∀ k : Nat, k < 4 → byteAt (setLength length image) (4096 + (k : Int)) = UInt8.ofNat (length / 2 ^ (8 * k)) := by
    intro k inside
    have address : ((4096 + (k : Int)) % 2 ^ 32).toNat = 4096 + k := by omega
    have shift : 4096 + k - 4096 = k := by omega
    rw [byteAt, address, setLength, if_pos (by omega), shift]
  have b0 := byte 0 (by decide)
  have b1 := byte 1 (by decide)
  have b2 := byte 2 (by decide)
  have b3 := byte 3 (by decide)
  simp only [Nat.cast_zero, Int.add_zero, Nat.cast_one, Nat.cast_ofNat] at b0 b1 b2 b3
  have inode : inodeAddress 0 = 4096 := rfl
  rw [fileLength, inode, word, b0, b1, b2, b3]
  simp only [UInt8.toNat_ofNat']
  omega

theorem set_length_file (length : Nat) (image : Image) (long : length ≤ maxFilesize * blocksize)
    (inodes : 0 < inodeCount (setLength length image)) (blocks : 0 < dataCount (setLength length image))
    (table : ∀ address, 4100 ≤ address → address < 8192 → image address = 0) : StoredFile (setLength length image) 0 where
  inodeInRange := inodes
  lengthInRange := by
    simp only [maxFilesize, blocksize] at long
    rw [set_length_word length image (by omega)]
    exact long
  blocksInRange := fun j below => by
    simp only [maxFilesize, blocksize] at long below
    rw [set_length_word length image (by omega)] at below
    have zero : ∀ k : Nat, k < 4 → byteAt (setLength length image) (4100 + 4 * (j : Int) + (k : Int)) = 0 := by
      intro k inside
      have address : ((4100 + 4 * (j : Int) + (k : Int)) % 2 ^ 32).toNat = 4100 + 4 * j + k := by omega
      rw [byteAt, address, set_length_elsewhere length image _ (by omega)]
      exact table _ (by omega) (by omega)
    have b0 := zero 0 (by decide)
    have b1 := zero 1 (by decide)
    have b2 := zero 2 (by decide)
    have b3 := zero 3 (by decide)
    simp only [Nat.cast_zero, Int.add_zero, Nat.cast_one, Nat.cast_ofNat] at b0 b1 b2 b3
    have inode : inodeAddress 0 + 4 + 4 * (j : Int) = 4100 + 4 * (j : Int) := rfl
    rw [dataBlockNum, inode, word, b0, b1, b2, b3]
    exact blocks

theorem end_stores_more : StoredFile oneByteImage 0 ∧ ¬ ReadsRange oneByteImage 0 0 2 := by
  refine ⟨one_byte_file, fun reads => ?_⟩
  have stored := reads_range_length oneByteImage 0 0 2 reads
  revert stored
  decide +kernel

theorem reads_range_exact (image : Image) (inode offset length : Nat) (file : StoredFile image inode)
    (range : offset + length < 2 ^ 31) :
    ReadsRange image inode offset length ↔ length = 0 ∨ offset + length ≤ fileLength image inode := by
  constructor
  · intro reads
    by_contra outside
    have past := read_data_past image inode offset length file range (by omega) (by omega)
    rcases past with more | wrong
    · exact absurd (reads_range_length image inode offset length reads) (Nat.not_le.mpr more)
    · exact wrong reads.1
  · rintro (empty | within)
    · subst empty
      exact empty_reads_range image inode offset file (by omega)
    · exact inside_reads_range image inode offset length file within

def twoBlockImage : Image := fun address =>
  if address = 4 ∨ address = 4104 then 1 else if address = 8 then 2
  else if address = 4096 then 0x88 else if address = 4097 then 0x13
  else if address < 8192 then 0 else if address < 12288 then 97 else 98

theorem two_block_length : fileLength twoBlockImage 0 = 5000 := by decide +kernel

theorem two_block_file : StoredFile twoBlockImage 0 where
  inodeInRange := by decide +kernel
  lengthInRange := by decide +kernel
  blocksInRange := by
    rw [two_block_length]
    decide +kernel

theorem reads_range_exact_two_blocks :
    ReadsRange twoBlockImage 0 4094 4 ∧ (readData twoBlockImage 0 4094 4).stored = [97, 97, 98, 98] :=
  ⟨(reads_range_exact twoBlockImage 0 4094 4 two_block_file (by decide)).mpr (Or.inr (by decide +kernel)), by decide +kernel⟩

end SimpleKernel.FileSystem
