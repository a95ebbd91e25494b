import SimpleKernel.Paging.Mapped

set_option autoImplicit false

namespace SimpleKernel.Paging

open BitField (get)

structure Leaf where
  address : Nat
  user : Bool

-- What the processor finds at a table's physical address. Frames that hold
-- neither table are arbitrary memory.
def tableAt (layout : Layout) (other : Nat → Nat → Word) (tables : Tables) (base : Nat) : Nat → Word :=
  if base = layout.pageTable then tables.pageTable
  else if base = layout.vidmapPt then tables.vidmapPt
  else other base

def walk (layout : Layout) (other : Nat → Nat → Word) (tables : Tables) (v : Word) : Option Leaf :=
  let entry := tables.pageDirectory (v.toNat / 2 ^ 22)
  if get present entry = 0 then none
  else if get pageSize entry = 1 then
    some ⟨get bit10Addr entry * 2 ^ 22 + v.toNat % 2 ^ 22, get userSupervisor entry = 1⟩
  else
    let leaf := tableAt layout other tables (get bit20Addr entry * 2 ^ 12) (v.toNat / 2 ^ 12 % 1024)
    if get present leaf = 0 then none
    else some ⟨get bit20Addr leaf * 2 ^ 12 + v.toNat % 2 ^ 12,
      get userSupervisor entry = 1 && get userSupervisor leaf = 1⟩

def userAddress (layout : Layout) (other : Nat → Nat → Word) (tables : Tables) (v : Word) : Option Nat :=
  (walk layout other tables v).bind fun leaf => if leaf.user then some leaf.address else none

theorem table_at_vidmap (layout : Layout) (other : Nat → Nat → Word) (tables : Tables) :
    tableAt layout other tables layout.vidmapPt = tables.vidmapPt := by
  rw [tableAt, if_neg (Ne.symm layout.distinct), if_pos rfl]

theorem user_address_absent (layout : Layout) (other : Nat → Nat → Word) (tables : Tables) (v : Word) (i : Nat)
    (entry : v.toNat / 2 ^ 22 = i) (absent : get present (tables.pageDirectory i) = 0) :
    userAddress layout other tables v = none := by
  rw [userAddress, walk]
  simp only [entry, absent, if_true, Option.bind_none]

-- A supervisor directory entry hides everything below it, whatever the table
-- it points to says: this is what keeps the scratch entry of page_table harmless.
theorem user_address_supervisor (layout : Layout) (other : Nat → Nat → Word) (tables : Tables) (v : Word) (i : Nat)
    (entry : v.toNat / 2 ^ 22 = i) (supervisor : get userSupervisor (tables.pageDirectory i) = 0) :
    userAddress layout other tables v = none := by
  rw [userAddress, walk]
  simp only [entry, supervisor]
  split
  · rfl
  · split
    · rfl
    · split <;> rfl

theorem user_address_big (layout : Layout) (other : Nat → Nat → Word) (tables : Tables) (v : Word) (i p : Nat)
    (entry : v.toNat / 2 ^ 22 = i) (here : get present (tables.pageDirectory i) = 1)
    (big : get pageSize (tables.pageDirectory i) = 1) (user : get userSupervisor (tables.pageDirectory i) = 1)
    (address : get bit10Addr (tables.pageDirectory i) = 2 + p) :
    userAddress layout other tables v = some ((2 + p) * 2 ^ 22 + v.toNat % 2 ^ 22) := by
  rw [userAddress, walk]
  simp only [entry, here, big, user, address]
  simp

theorem user_address_video (layout : Layout) (other : Nat → Nat → Word) (tables : Tables) (page : Option Nat) (v : Word)
    (mapped : Mapped layout tables page true) (entry : v.toNat / 2 ^ 22 = 33) :
    userAddress layout other tables v =
      if v.toNat / 2 ^ 12 % 1024 = 0 then some (videoMemory + v.toNat % 2 ^ 12) else none := by
  obtain ⟨here, small, user, address⟩ := mapped.videoPresent rfl
  rw [userAddress, walk]
  simp only [entry, here, small, user, address, table_at_vidmap]
  generalize v.toNat / 2 ^ 12 % 1024 = slot
  by_cases first : slot = 0
  · obtain ⟨leafHere, leafUser, leafAddress⟩ := mapped.videoPage rfl
    subst first
    simp only [leafHere, leafUser, leafAddress]
    simp
  · have zero : get present (0 : Word) = 0 := by decide
    simp only [first, mapped.videoRest slot first, zero, if_true, if_false]
    simp

def expectedAddress (calls : List Call) (v : Word) : Option Nat :=
  if size128mb ≤ v.toNat ∧ v.toNat < size132mb then
    (lastPage calls).map fun p => size8mb + size4mb * p + (v.toNat - size128mb)
  else if size132mb ≤ v.toNat ∧ v.toNat < size132mb + size4kb then
    if videoMapped calls then some (videoMemory + (v.toNat - size132mb)) else none
  else none

theorem mapped_user_page (layout : Layout) (other : Nat → Nat → Word) (tables : Tables) (page : Option Nat) (video : Bool)
    (v : Word) (mapped : Mapped layout tables page video) (entry : v.toNat / 2 ^ 22 = 32) :
    userAddress layout other tables v = page.map fun p => (2 + p) * 2 ^ 22 + v.toNat % 2 ^ 22 := by
  cases page with
  | none => exact user_address_absent layout other tables v 32 entry (mapped.userAbsent rfl)
  | some p =>
      obtain ⟨here, big, user, address⟩ := mapped.userPresent p rfl
      exact user_address_big layout other tables v 32 p entry here big user address

theorem mapped_elsewhere (layout : Layout) (other : Nat → Nat → Word) (tables : Tables) (page : Option Nat) (video : Bool)
    (v : Word) (mapped : Mapped layout tables page video) (notUser : v.toNat / 2 ^ 22 ≠ 32)
    (notVideo : v.toNat / 2 ^ 22 ≠ 33) : userAddress layout other tables v = none := by
  by_cases low : v.toNat / 2 ^ 22 = 0
  · exact user_address_supervisor layout other tables v 0 low mapped.low
  · by_cases kernel : v.toNat / 2 ^ 22 = 1
    · exact user_address_supervisor layout other tables v 1 kernel mapped.kernel
    · have bound := v.isLt
      exact user_address_absent layout other tables v (v.toNat / 2 ^ 22) rfl
        (mapped.rest (v.toNat / 2 ^ 22) (by omega) (by omega) notUser notVideo)

theorem expected_user_page (calls : List Call) (v : Word) (entry : v.toNat / 2 ^ 22 = 32) :
    expectedAddress calls v = (lastPage calls).map fun p => (2 + p) * 2 ^ 22 + v.toNat % 2 ^ 22 := by
  have range : size128mb ≤ v.toNat ∧ v.toNat < size132mb := by
    simp only [size128mb, size132mb]
    omega
  have offset : ∀ p, size8mb + size4mb * p + (v.toNat - size128mb) = (2 + p) * 2 ^ 22 + v.toNat % 2 ^ 22 := by
    intro p
    simp only [size8mb, size4mb, size128mb]
    omega
  simp only [expectedAddress, if_pos range, offset]

theorem expected_video_page (calls : List Call) (v : Word) (entry : v.toNat / 2 ^ 22 = 33) :
    expectedAddress calls v =
      if v.toNat / 2 ^ 12 % 1024 = 0 then
        if videoMapped calls then some (videoMemory + v.toNat % 2 ^ 12) else none
      else none := by
  have notUser : ¬ (size128mb ≤ v.toNat ∧ v.toNat < size132mb) := by
    simp only [size128mb, size132mb]
    omega
  rw [expectedAddress, if_neg notUser]
  by_cases first : v.toNat / 2 ^ 12 % 1024 = 0
  · have range : size132mb ≤ v.toNat ∧ v.toNat < size132mb + size4kb := by
      simp only [size132mb, size4kb]
      omega
    have offset : v.toNat - size132mb = v.toNat % 2 ^ 12 := by
      simp only [size132mb]
      omega
    rw [if_pos range, if_pos first, offset]
  · have range : ¬ (size132mb ≤ v.toNat ∧ v.toNat < size132mb + size4kb) := by
      simp only [size132mb, size4kb]
      omega
    rw [if_neg range, if_neg first]

theorem expected_elsewhere (calls : List Call) (v : Word) (notUser : v.toNat / 2 ^ 22 ≠ 32)
    (notVideo : v.toNat / 2 ^ 22 ≠ 33) : expectedAddress calls v = none := by
  have outsideUser : ¬ (size128mb ≤ v.toNat ∧ v.toNat < size132mb) := by
    simp only [size128mb, size132mb]
    omega
  have outsideVideo : ¬ (size132mb ≤ v.toNat ∧ v.toNat < size132mb + size4kb) := by
    simp only [size132mb, size4kb]
    omega
  rw [expectedAddress, if_neg outsideUser, if_neg outsideVideo]

theorem user_address_expected (layout : Layout) (other : Nat → Nat → Word) (directory table : Nat → Word)
    (calls : List Call) (v : Word) :
    userAddress layout other (Run.final (step layout) (initPaging layout directory table) calls) v =
      expectedAddress calls v := by
  have mapped := calls_mapped layout directory table calls
  by_cases user : v.toNat / 2 ^ 22 = 32
  · rw [mapped_user_page layout other _ _ _ v mapped user, expected_user_page calls v user]
  · by_cases video : v.toNat / 2 ^ 22 = 33
    · rw [expected_video_page calls v video]
      cases drawn : videoMapped calls with
      | true =>
          rw [drawn] at mapped
          simpa using user_address_video layout other _ _ v mapped video
      | false =>
          rw [drawn] at mapped
          rw [user_address_absent layout other _ v 33 video (mapped.videoAbsent rfl)]
          simp
    · rw [mapped_elsewhere layout other _ _ _ v mapped user video, expected_elsewhere calls v user video]

theorem user_mapping_exact (layout : Layout) (other : Nat → Nat → Word) (directory table : Nat → Word)
    (calls : List Call) (v : Word) :
    let reached := userAddress layout other (Run.final (step layout) (initPaging layout directory table) calls) v
    reached = expectedAddress calls v ∧
      ∀ address ∈ reached, size8mb ≤ address ∨ (videoMemory ≤ address ∧ address < videoMemory + size4kb) := by
  have exact := user_address_expected layout other directory table calls v
  refine ⟨exact, ?_⟩
  intro address member
  rw [exact, expectedAddress] at member
  split at member
  · obtain ⟨p, _, rfl⟩ := Option.map_eq_some_iff.mp member
    exact Or.inl (by simp only [size8mb]; omega)
  · split at member
    · rename_i range
      split at member
      · have same := Option.mem_some_iff.mp member
        exact Or.inr (by omega)
      · exact absurd member (Option.not_mem_none address)
    · exact absurd member (Option.not_mem_none address)

end SimpleKernel.Paging
