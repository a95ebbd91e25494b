import SimpleKernel.FileSystem.Directory

set_option autoImplicit false

namespace SimpleKernel.FileSystem

structure FirstNamed (image : Image) (name : List UInt8) (k : Nat) : Prop where
  inside : k < numMaxDentries
  named : entryName image k = name
  before : ∀ earlier < k, entryName image earlier ≠ name

def slotDentry (image : Image) (k : Nat) : Dentry where
  filename := entryName image k ++ List.replicate (32 - (entryName image k).length) 0
  filetype := dentryFiletype image k
  inodeNum := dentryInode image k

-- read_dentry_by_name as its caller sees it, with the dentry it was given.
def lookup (image : Image) (fname : CString) (dentry : Dentry) : Int × Dentry :=
  match readDentryByName image fname with
  | none => (-1, dentry)
  | some found => (0, found)

def listedName (image : Image) (buf : Nat) (k : Nat) : CString where
  bytes := nameIn (fun i => (directoryRead image buf (UInt8.ofNat k)).1.stored.getD i 0) 33
  noNul := name_in_no_nul _ _

def DistinctNames (image : Image) : Prop :=
  ∀ j < numMaxDentries, ∀ k < numMaxDentries, entryName image k ≠ [] → entryName image j = entryName image k → j = k

structure FindsFirst (image : Image) (fname : CString) (dentry : Dentry) : Prop where
  success : (lookup image fname dentry).1 = 0 ↔
    fname.bytes.length ≤ 32 ∧ ∃ k < numMaxDentries, entryName image k = fname.bytes
  filled : ∀ k, FirstNamed image fname.bytes k → lookup image fname dentry = (0, slotDentry image k)
  failure : (lookup image fname dentry).1 ≠ 0 → lookup image fname dentry = (-1, dentry)

def ListingResolves (image : Image) (k : Nat) : Prop :=
  ∀ buf ≠ 0, readDentryByName image (listedName image buf k) = readDentryByIndex image k

theorem copy_slot_dentry (image : Image) (k : Nat) : copyDentry image k = slotDentry image k := by
  rw [copyDentry, slotDentry, strncpy_name]
  rfl

theorem first_named_exists (image : Image) (name : List UInt8) (j : Nat) (inside : j < numMaxDentries)
    (named : entryName image j = name) : ∃ k ≤ j, FirstNamed image name k := by
  induction j using Nat.strong_induction_on with
  | _ j ih =>
      by_cases before : ∀ earlier < j, entryName image earlier ≠ name
      · exact ⟨j, Nat.le_refl j, inside, named, before⟩
      · push Not at before
        obtain ⟨earlier, less, same⟩ := before
        obtain ⟨k, below, first⟩ := ih earlier less (Nat.lt_trans less inside) same
        exact ⟨k, Nat.le_trans below (Nat.le_of_lt less), first⟩

theorem read_dentry_by_name_some (image : Image) (fname : CString) (dentry : Dentry) :
    readDentryByName image fname = some dentry ↔
      ∃ k, FirstNamed image fname.bytes k ∧ dentry = slotDentry image k := by
  constructor
  · intro found
    have success : (readDentryByName image fname).isSome = true := by rw [found, Option.isSome_some]
    obtain ⟨j, inside, named⟩ := (read_dentry_by_name_is_some image fname).mp success
    obtain ⟨k, _, first⟩ := first_named_exists image fname.bytes j inside named
    have copied := read_dentry_by_name_first image fname k first.inside first.named first.before
    rw [found, copy_slot_dentry] at copied
    exact ⟨k, first, Option.some.inj copied⟩
  · rintro ⟨k, first, same⟩
    rw [read_dentry_by_name_first image fname k first.inside first.named first.before, copy_slot_dentry, same]

theorem lookup_finds_first (image : Image) (fname : CString) (dentry : Dentry) : FindsFirst image fname dentry where
  success := by
    have some := read_dentry_by_name_is_some image fname
    rw [lookup]
    cases found : readDentryByName image fname with
    | none =>
        rw [found] at some
        have failed : ¬ (-1 : Int) = 0 := by decide
        refine iff_of_false failed fun named => ?_
        cases some.mpr named.2
    | some entry =>
        rw [found] at some
        obtain ⟨k, inside, named⟩ := some.mp rfl
        exact iff_of_true rfl ⟨named ▸ entry_name_length image k, k, inside, named⟩
  filled := fun k first => by
    rw [lookup, (read_dentry_by_name_some image fname (slotDentry image k)).mpr ⟨k, first, rfl⟩]
  failure := by
    rw [lookup]
    cases readDentryByName image fname with
    | none => exact fun _ => rfl
    | some entry => exact fun failed => absurd rfl failed

theorem listed_name_entry (image : Image) (buf k : Nat) (inside : k < numMaxDentries) (mapped : buf ≠ 0) :
    (listedName image buf k).bytes = entryName image k := by
  have cursor : (UInt8.ofNat k).toNat = k := by
    simp only [numMaxDentries] at inside
    rw [UInt8.toNat_ofNat']
    omega
  have short := entry_name_length image k
  have count : 33 - (entryName image k).length = (32 - (entryName image k).length) + 1 := by omega
  dsimp only [listedName]
  rw [directory_read_entry image buf _ mapped, cursor]
  refine name_from_list _ (List.replicate (33 - (entryName image k).length) 0) 33 _ 0 (entry_name_no_nul image k)
    (by omega) ?_ ?_
  · rw [count, List.replicate_succ]
    rfl
  · intro i _
    rw [Nat.zero_add]
    rfl

theorem listing_resolves (image : Image) (j k : Nat) (inside : k < numMaxDentries)
    (first : FirstNamed image (entryName image k) j) (buf : Nat) (mapped : buf ≠ 0) :
    readDentryByName image (listedName image buf k) = readDentryByIndex image j := by
  have name := listed_name_entry image buf k inside mapped
  rw [readDentryByIndex, copy_slot_dentry, read_dentry_by_name_some]
  refine ⟨j, ?_, rfl⟩
  rw [name]
  exact first

theorem distinct_listing_resolves (image : Image) (distinct : DistinctNames image) (k : Nat) (inside : k < numMaxDentries)
    (named : entryName image k ≠ []) : ListingResolves image k := by
  intro buf mapped
  obtain ⟨j, _, first⟩ := first_named_exists image (entryName image k) k inside rfl
  have same := distinct j first.inside k inside named first.named
  rw [same] at first
  exact listing_resolves image k k inside first buf mapped

def namelessImage : Image := fun address => if address = 164 then 7 else 0

theorem nameless_slots : ∀ k < numMaxDentries, entryName namelessImage k = [] := by decide +kernel

theorem nameless_listing_differs : DistinctNames namelessImage ∧ ¬ ListingResolves namelessImage 1 := by
  constructor
  · intro j _ k inside named
    exact absurd (nameless_slots k inside) named
  · intro resolves
    have differs := resolves 1 (by decide)
    revert differs
    decide +kernel

theorem lookup_law (image : Image) :
    (∀ (fname : CString) (dentry : Dentry), FindsFirst image fname dentry) ∧
      (∀ k < numMaxDentries, ∀ j, FirstNamed image (entryName image k) j → ∀ buf ≠ 0,
        readDentryByName image (listedName image buf k) = readDentryByIndex image j) ∧
      (DistinctNames image → ∀ k < numMaxDentries, entryName image k ≠ [] → ListingResolves image k) :=
  ⟨lookup_finds_first image, fun k inside j first => listing_resolves image j k inside first, distinct_listing_resolves image⟩

def namedImage : Image := fun address => if address = 64 then 97 else 0

theorem lookup_law_named :
    readDentryByName namedImage (listedName namedImage 1 0) = some (copyDentry namedImage 0) := by
  have others : ∀ j < numMaxDentries, entryName namedImage j ≠ [] → j = 0 := by decide +kernel
  have distinct : DistinctNames namedImage := by
    intro j insideJ k insideK named same
    rw [others j insideJ (same ▸ named), others k insideK named]
  exact (lookup_law namedImage).2.2 distinct 0 (by decide) (by decide +kernel) 1 (by decide)

end SimpleKernel.FileSystem
