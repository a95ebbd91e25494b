import SimpleKernel.Paging.Stores

set_option autoImplicit false

namespace SimpleKernel.Paging

open BitField (get get_putAll)

structure Mapping extends Leaf where
  writable : Bool

def writable (layout : Layout) (other : Nat → Nat → Word) (tables : Tables) (v : Word) : Bool :=
  let entry := tables.pageDirectory (v.toNat / 2 ^ 22)
  let leaf := tableAt layout other tables (get bit20Addr entry * 2 ^ 12) (v.toNat / 2 ^ 12 % 1024)
  get readWrite entry = 1 && (get pageSize entry = 1 || get readWrite leaf = 1)

def mapping (layout : Layout) (other : Nat → Nat → Word) (tables : Tables) (v : Word) : Option Mapping :=
  (walk layout other tables v).map fun leaf => ⟨leaf, writable layout other tables v⟩

def littleEndian (value : Word) : List UInt8 := (List.range 4).map fun k => UInt8.ofNat (value.toNat / 2 ^ (8 * k))

structure VidmapCall where
  ret : Int
  paging : Tables
  memory : Memory

-- vidmap with its store to *screen_start, made through the tables it has just
-- changed; none is a page fault.
def vidmapCall (layout : Layout) (other : Nat → Nat → Word) (tables : Tables) (memory : Memory) (screenStart : Word) :
    Option VidmapCall :=
  let result := vidmap layout screenStart tables
  match result.store with
  | none => some ⟨result.ret, result.paging, memory⟩
  | some (address, value) =>
      (storeBytes layout other result.paging address (littleEndian value) memory).map fun filled =>
        ⟨result.ret, result.paging, filled⟩

def SlotInside (screenStart : Word) : Prop :=
  ∀ k < 4, size128mb ≤ (screenStart + BitVec.ofNat 32 k).toNat ∧ (screenStart + BitVec.ofNat 32 k).toNat < size132mb

def VideoPage (v : Word) : Prop := size132mb ≤ v.toNat ∧ v.toNat < size132mb + size4kb

instance (v : Word) : Decidable (VideoPage v) := inferInstanceAs (Decidable (_ ∧ _))

structure Vidmapped (layout : Layout) (other : Nat → Nat → Word) (tables after : Tables) (memory filled : Memory)
    (screenStart : Word) : Prop where
  slot : ∃ base, (∀ k < 4, userAddress layout other tables (screenStart + BitVec.ofNat 32 k) = some (base + k)) ∧
    filled = withBytes base (littleEndian (BitVec.ofNat 32 size132mb)) memory
  video : ∀ v, VideoPage v →
    mapping layout other after v = some ⟨⟨videoMemory + (v.toNat - size132mb), true⟩, true⟩
  others : ∀ v, ¬ VideoPage v → mapping layout other after v = mapping layout other tables v

structure VidmapLaw (layout : Layout) (other : Nat → Nat → Word) (tables : Tables) (memory : Memory) (screenStart : Word) :
    Prop where
  succeeds : SlotInside screenStart → ∃ after filled,
    vidmapCall layout other tables memory screenStart = some ⟨0, after, filled⟩ ∧
      Vidmapped layout other tables after memory filled screenStart
  fails : ¬ SlotInside screenStart → vidmapCall layout other tables memory screenStart = some ⟨-1, tables, memory⟩

theorem vidmap_read_write (layout : Layout) (entry : Word) :
    get readWrite (vidmapDirectoryEntry layout entry) = 1 ∧ get readWrite (vidmapTableEntry entry) = 1 := by
  constructor
  · rw [vidmapDirectoryEntry, get_putAll readWrite _ _ (by decide) rfl]
    rfl
  · rw [vidmapTableEntry, get_putAll readWrite _ _ (by decide) rfl]
    rfl

theorem accepts_range (screenStart : Word) :
    accepts screenStart = true ↔ size128mb ≤ screenStart.toNat ∧ screenStart.toNat < size132mb := by
  have bound := screenStart.isLt
  rw [accepts, decide_eq_true_eq, BitVec.toInt_eq_toNat_cond]
  simp only [size128mb, size4mb, size132mb]
  split
  · omega
  · omega

theorem slot_inside_iff (screenStart : Word) :
    SlotInside screenStart ↔ size128mb ≤ screenStart.toNat ∧ screenStart.toNat + 3 < size132mb := by
  simp only [SlotInside, size128mb, size132mb]
  constructor
  · intro inside
    have first := inside 0 (by decide)
    rw [BitVec.add_zero] at first
    have last := inside 3 (by decide)
    rw [word_place screenStart 3 (by omega)] at last
    exact ⟨first.1, last.2⟩
  · intro range k inside
    rw [word_place screenStart k (by omega)]
    omega

theorem slot_inside_accepts (screenStart : Word) (inside : SlotInside screenStart) : accepts screenStart = true := by
  have range := (slot_inside_iff screenStart).mp inside
  exact (accepts_range screenStart).mpr ⟨range.1, by omega⟩

structure Scratch (tables : Tables) (video : Bool) : Prop where
  fresh : video = false → get bit20Addr (tables.pageTable 33) = 33
  used : video = true → ∃ entry, tables.pageTable 33 = vidmapTableEntry entry

theorem step_scratch (layout : Layout) (tables : Tables) (video : Bool) (call : Call) (scratch : Scratch tables video) :
    Scratch (step layout tables call) (video || mapsVideo call) := by
  cases call with
  | pageSwitch prossId =>
      have same : (step layout tables (.pageSwitch prossId)).pageTable = tables.pageTable := page_switch_table prossId tables
      rw [mapsVideo, Bool.or_false]
      exact ⟨same ▸ scratch.fresh, same ▸ scratch.used⟩
  | vidmap screenStart =>
      rw [mapsVideo]
      cases accepted : accepts screenStart with
      | false =>
          rw [step, vidmap_refused layout tables screenStart accepted, Bool.or_false]
          exact scratch
      | true =>
          rw [Bool.or_true]
          refine ⟨fun absent => Bool.noConfusion absent, fun _ => ⟨tables.pageTable 33, ?_⟩⟩
          rw [step, vidmap_table layout tables screenStart accepted, Function.update_self]

theorem calls_scratch (layout : Layout) (directory table : Nat → Word) (calls : List Call) :
    Scratch (Run.final (step layout) (initPaging layout directory table) calls) (videoMapped calls) := by
  induction calls using List.reverseRecOn with
  | nil =>
      refine ⟨fun _ => ?_, fun drawn => Bool.noConfusion drawn⟩
      exact (init_table_entry_fields 33 (table 33) (by decide)).2
  | append_singleton done call ih =>
      rw [Run.final_concat, video_mapped_concat]
      exact step_scratch layout _ _ call ih

structure SameLeaf (leaf leaf' : Word) : Prop where
  present : get present leaf = get present leaf'
  address : get bit20Addr leaf = get bit20Addr leaf'
  user : get userSupervisor leaf = get userSupervisor leaf'
  writable : get readWrite leaf = get readWrite leaf'

theorem same_leaf_refl (leaf : Word) : SameLeaf leaf leaf := ⟨rfl, rfl, rfl, rfl⟩

theorem same_leaf_vidmap (layout : Layout) (entry entry' : Word) :
    SameLeaf (vidmapTableEntry entry) (vidmapTableEntry entry') := by
  obtain ⟨here, user, address⟩ := vidmap_table_entry_fields entry
  obtain ⟨here', user', address'⟩ := vidmap_table_entry_fields entry'
  exact {
    present := here.trans here'.symm
    address := Nat.eq_of_mul_eq_mul_right (by decide) (address.trans address'.symm)
    user := user.trans user'.symm
    writable := (vidmap_read_write layout entry).2.trans (vidmap_read_write layout entry').2.symm }

section Mapping

variable (layout : Layout) (other : Nat → Nat → Word)

theorem mapping_absent (tables : Tables) (v : Word) (absent : walk layout other tables v = none) :
    mapping layout other tables v = none := by
  rw [mapping, absent]
  rfl

theorem mapping_same (tables after : Tables) (v entry : Word) (before : tables.pageDirectory (v.toNat / 2 ^ 22) = entry)
    (kept : after.pageDirectory (v.toNat / 2 ^ 22) = entry)
    (leaf : get present entry ≠ 0 → get pageSize entry ≠ 1 →
      SameLeaf (tableAt layout other after (get bit20Addr entry * 2 ^ 12) (v.toNat / 2 ^ 12 % 1024))
        (tableAt layout other tables (get bit20Addr entry * 2 ^ 12) (v.toNat / 2 ^ 12 % 1024))) :
    mapping layout other after v = mapping layout other tables v := by
  by_cases absent : get present entry = 0
  · rw [mapping_absent layout other tables v (walk_absent layout other tables v _ rfl (before ▸ absent)),
      mapping_absent layout other after v (walk_absent layout other after v _ rfl (kept ▸ absent))]
  · by_cases big : get pageSize entry = 1
    · simp only [mapping, walk, writable, before, kept, big, if_true, decide_true, Bool.true_or]
    · have same := leaf absent big
      simp only [mapping, walk, writable, before, kept, if_neg absent, if_neg big, same.present, same.address, same.user,
        same.writable]

theorem video_rest_absent (tables : Tables) (page : Option Nat) (video : Bool) (v : Word)
    (mapped : Mapped layout tables page video) (entry : v.toNat / 2 ^ 22 = 33) (behind : v.toNat / 2 ^ 12 % 1024 ≠ 0) :
    walk layout other tables v = none := by
  cases video with
  | false => exact walk_absent layout other tables v 33 entry (mapped.videoAbsent rfl)
  | true =>
      rw [← Option.not_isSome_iff_eq_none, walk_video layout other tables page v mapped entry]
      exact behind

variable (tables : Tables) (page : Option Nat) (video : Bool) (screenStart : Word) (accepted : accepts screenStart = true)
  (mapped : Mapped layout tables page video) (low : LowMapped layout tables) (scratch : Scratch tables video)

include accepted mapped

theorem vidmap_video_page (v : Word) (inside : VideoPage v) :
    mapping layout other (vidmap layout screenStart tables).paging v =
      some ⟨⟨videoMemory + (v.toNat - size132mb), true⟩, true⟩ := by
  simp only [VideoPage, size132mb, size4kb] at inside
  have entry : v.toNat / 2 ^ 22 = 33 := by omega
  have slot : v.toNat / 2 ^ 12 % 1024 = 0 := by omega
  have offset : v.toNat - size132mb = v.toNat % 2 ^ 12 := by
    simp only [size132mb]
    omega
  have later := vidmap_mapped layout tables page video screenStart mapped
  rw [accepted, Bool.or_true] at later
  obtain ⟨here, small, user, address⟩ := later.videoPresent rfl
  obtain ⟨leafHere, leafUser, leafAddress⟩ := later.videoPage rfl
  have directoryWritable : get readWrite ((vidmap layout screenStart tables).paging.pageDirectory 33) = 1 := by
    rw [vidmap_directory_video layout tables screenStart accepted]
    exact (vidmap_read_write layout _).1
  have leafWritable : get readWrite ((vidmap layout screenStart tables).paging.vidmapPt 0) = 1 := by
    rw [vidmap_pt_first layout tables screenStart accepted]
    exact (vidmap_read_write layout _).2
  rw [offset]
  simp only [mapping, walk, writable, entry, slot, here, small, user, address, table_at_vidmap, leafHere, leafUser,
    leafAddress, directoryWritable, leafWritable]
  rfl

include low scratch

theorem vidmap_others (v : Word) (apart : ¬ VideoPage v) (known : v.toNat / 2 ^ 12 = 33 → video = true) :
    mapping layout other (vidmap layout screenStart tables).paging v = mapping layout other tables v := by
  have bound := v.isLt
  by_cases entry : v.toNat / 2 ^ 22 = 33
  · have behind : v.toNat / 2 ^ 12 % 1024 ≠ 0 := by
      simp only [VideoPage, size132mb, size4kb] at apart
      omega
    have later := vidmap_mapped layout tables page video screenStart mapped
    rw [mapping_absent layout other tables v (video_rest_absent layout other tables page video v mapped entry behind),
      mapping_absent layout other _ v (video_rest_absent layout other _ page _ v later entry behind)]
  · have kept := vidmap_directory_other layout tables screenStart (v.toNat / 2 ^ 22) entry
    apply mapping_same layout other tables _ v _ rfl kept
    intro here small
    by_cases first : v.toNat / 2 ^ 22 = 0
    · rw [first, low.table.2.2, table_at_low, table_at_low, vidmap_table layout tables screenStart accepted]
      by_cases slot : v.toNat / 2 ^ 12 % 1024 = 33
      · obtain ⟨old, same⟩ := scratch.used (known (by omega))
        rw [slot, Function.update_self, same]
        exact same_leaf_vidmap layout _ _
      · rw [Function.update_of_ne slot]
        exact same_leaf_refl _
    · -- every other entry that is present maps a 4MB page
      exfalso
      by_cases kernel : v.toNat / 2 ^ 22 = 1
      · rw [kernel] at small
        exact small low.kernel.2
      · by_cases user : v.toNat / 2 ^ 22 = 32
        · rw [user] at here small
          cases page with
          | none => exact here (mapped.userAbsent rfl)
          | some p => exact small (mapped.userPresent p rfl).2.1
        · exact here (mapped.rest _ (by omega) (by omega) user entry)

end Mapping

theorem scratch_page_moved (layout : Layout) (other : Nat → Nat → Word) (tables : Tables) (screenStart : Word)
    (accepted : accepts screenStart = true) (low : LowMapped layout tables) (scratch : Scratch tables false) :
    mapping layout other (vidmap layout screenStart tables).paging (BitVec.ofNat 32 0x21000) ≠
      mapping layout other tables (BitVec.ofNat 32 0x21000) := by
  intro same
  have later : LowMapped layout (vidmap layout screenStart tables).paging := step_low layout tables (.vidmap screenStart) low
  have addresses := congrArg (Option.map fun m => m.address) same
  simp only [mapping, walk_low_page layout other _ (BitVec.ofNat 32 0x21000) low rfl,
    walk_low_page layout other _ (BitVec.ofNat 32 0x21000) later rfl, Option.map_some, Option.some.injEq] at addresses
  have moved : get bit20Addr ((vidmap layout screenStart tables).paging.pageTable 33) * 2 ^ 12 = videoMemory := by
    rw [vidmap_table layout tables screenStart accepted, Function.update_self]
    exact (vidmap_table_entry_fields (tables.pageTable 33)).2.2
  have place : (BitVec.ofNat 32 0x21000).toNat / 2 ^ 12 = 33 := rfl
  rw [place, moved, scratch.fresh rfl] at addresses
  simp only [videoMemory] at addresses
  omega

section Call

variable (layout : Layout) (other : Nat → Nat → Word) (tables : Tables) (memory : Memory) (screenStart : Word)

theorem refused_call (refused : accepts screenStart = false) :
    vidmapCall layout other tables memory screenStart = some ⟨-1, tables, memory⟩ := by
  rw [vidmapCall, vidmap_refused layout tables screenStart refused]

theorem accepted_call (accepted : accepts screenStart = true) :
    vidmapCall layout other tables memory screenStart =
      (storeBytes layout other (vidmap layout screenStart tables).paging screenStart
        (littleEndian (BitVec.ofNat 32 size132mb)) memory).map fun filled =>
          ⟨0, (vidmap layout screenStart tables).paging, filled⟩ := by
  rw [vidmapCall, vidmap_accepted layout tables screenStart accepted]

theorem little_endian_length (value : Word) : (littleEndian value).length = 4 := by
  simp [littleEndian]

theorem slot_entry (k : Nat) (inside : SlotInside screenStart) (small : k < 4) :
    (screenStart + BitVec.ofNat 32 k).toNat = screenStart.toNat + k ∧ (screenStart.toNat + k) / 2 ^ 22 = 32 ∧
      (screenStart.toNat + k) % 2 ^ 22 = screenStart.toNat % 2 ^ 22 + k := by
  have range := (slot_inside_iff screenStart).mp inside
  simp only [size128mb, size132mb] at range
  exact ⟨word_place screenStart k (by omega), by omega, by omega⟩

theorem slot_stored (p : Nat) (video : Bool) (mapped : Mapped layout tables (some p) video)
    (inside : SlotInside screenStart) :
    ∃ base, (∀ k < 4, userAddress layout other tables (screenStart + BitVec.ofNat 32 k) = some (base + k)) ∧
      storeBytes layout other (vidmap layout screenStart tables).paging screenStart
        (littleEndian (BitVec.ofNat 32 size132mb)) memory =
          some (withBytes base (littleEndian (BitVec.ofNat 32 size132mb)) memory) := by
  obtain ⟨here, big, user, address⟩ := mapped.userPresent p rfl
  have kept := vidmap_directory_other layout tables screenStart 32 (by decide)
  refine ⟨(2 + p) * 2 ^ 22 + screenStart.toNat % 2 ^ 22, ?_, ?_⟩
  · intro k small
    obtain ⟨place, entry, offset⟩ := slot_entry screenStart k inside small
    rw [user_address_big layout other tables _ 32 p (place ▸ entry) here big user address, place, offset, Nat.add_assoc]
  · apply store_bytes_linear
    intro k small
    rw [little_endian_length] at small
    obtain ⟨place, entry, offset⟩ := slot_entry screenStart k inside small
    have bound := (screenStart + BitVec.ofNat 32 k).isLt
    rw [translate_big layout other _ screenStart 32 k entry (by omega) (kept ▸ here) (kept ▸ big), kept, address, offset,
      Nat.add_assoc]

theorem law_slot_inside (accepted : accepts screenStart = true) (law : VidmapLaw layout other tables memory screenStart) :
    SlotInside screenStart := by
  by_contra outside
  have failed := law.fails outside
  rw [accepted_call layout other tables memory screenStart accepted, Option.map_eq_some_iff] at failed
  obtain ⟨filled, _, same⟩ := failed
  cases congrArg VidmapCall.ret same

theorem law_vidmapped (accepted : accepts screenStart = true) (law : VidmapLaw layout other tables memory screenStart) :
    ∃ filled, Vidmapped layout other tables (vidmap layout screenStart tables).paging memory filled screenStart := by
  obtain ⟨after, filled, returned, vidmapped⟩ :=
    law.succeeds (law_slot_inside layout other tables memory screenStart accepted law)
  rw [accepted_call layout other tables memory screenStart accepted, Option.map_eq_some_iff] at returned
  obtain ⟨stored, _, same⟩ := returned
  cases same
  exact ⟨filled, vidmapped⟩

theorem vidmapped_page (page : Option Nat) (video : Bool) (after : Tables) (filled : Memory)
    (mapped : Mapped layout tables page video) (inside : SlotInside screenStart)
    (vidmapped : Vidmapped layout other tables after memory filled screenStart) : page ≠ none := by
  intro absent
  obtain ⟨base, reached, _⟩ := vidmapped.slot
  have first := reached 0 (by decide)
  obtain ⟨place, entry, _⟩ := slot_entry screenStart 0 inside (by decide)
  rw [user_address_absent layout other tables _ 32 (place ▸ entry) (mapped.userAbsent absent)] at first
  cases first

theorem law_holds (p : Nat) (mapped : Mapped layout tables (some p) true) (low : LowMapped layout tables)
    (scratch : Scratch tables true) (inside : SlotInside screenStart) :
    VidmapLaw layout other tables memory screenStart := by
  have accepted := slot_inside_accepts screenStart inside
  have call := accepted_call layout other tables memory screenStart accepted
  obtain ⟨base, reached, stored⟩ := slot_stored layout other tables memory screenStart p true mapped inside
  rw [stored, Option.map_some] at call
  refine ⟨fun _ => ⟨_, _, call, ?_⟩, fun outside => absurd inside outside⟩
  exact {
    slot := ⟨base, reached, rfl⟩
    video := vidmap_video_page layout other tables _ _ screenStart accepted mapped
    others := fun v apart =>
      vidmap_others layout other tables _ _ screenStart accepted mapped low scratch v apart fun _ => rfl }

end Call

def twoCalls : List Call := [.pageSwitch 0, .vidmap (BitVec.ofNat 32 size128mb)]

theorem straddling_slot_stored :
    let tables := Run.final (step default) (initPaging default (fun _ => 0) fun _ => 0) twoCalls
    let screenStart := BitVec.ofNat 32 (size132mb - 3)
    (vidmapCall default (fun _ _ => 0) tables (fun _ => 0) screenStart).map VidmapCall.ret = some 0 ∧
      ¬ VidmapLaw default (fun _ _ => 0) tables (fun _ => 0) screenStart := by
  intro tables screenStart
  have returned : (vidmapCall default (fun _ _ => 0) tables (fun _ => 0) screenStart).map VidmapCall.ret = some 0 := by
    decide +kernel
  refine ⟨returned, fun law => ?_⟩
  have outside : ¬ SlotInside screenStart := by
    rw [slot_inside_iff]
    decide
  rw [law.fails outside] at returned
  exact absurd returned (by decide)

theorem vidmap_exact (layout : Layout) (other : Nat → Nat → Word) (directory table : Nat → Word) (calls : List Call)
    (memory : Memory) (screenStart : Word) :
    VidmapLaw layout other (Run.final (step layout) (initPaging layout directory table) calls) memory screenStart ↔
      accepts screenStart = false ∨
        (screenStart.toNat + 3 < size132mb ∧ lastPage calls ≠ none ∧ videoMapped calls = true) := by
  have low := calls_low layout directory table calls
  have mapped := calls_mapped layout directory table calls
  have scratch := calls_scratch layout directory table calls
  generalize Run.final (step layout) (initPaging layout directory table) calls = tables at low mapped scratch ⊢
  cases accepted : accepts screenStart with
  | false =>
      refine iff_of_true ⟨fun inside => ?_, fun _ => ?_⟩ (Or.inl rfl)
      · rw [slot_inside_accepts screenStart inside] at accepted
        cases accepted
      · exact refused_call layout other tables memory screenStart accepted
  | true =>
      have range := (accepts_range screenStart).mp accepted
      constructor
      · intro law
        have inside := law_slot_inside layout other tables memory screenStart accepted law
        obtain ⟨filled, vidmapped⟩ := law_vidmapped layout other tables memory screenStart accepted law
        have page := vidmapped_page layout other tables memory screenStart _ _ _ filled mapped inside vidmapped
        refine Or.inr ⟨((slot_inside_iff screenStart).mp inside).2, page, ?_⟩
        by_contra undrawn
        rw [Bool.not_eq_true] at undrawn
        rw [undrawn] at scratch
        have kept := vidmapped.others (BitVec.ofNat 32 0x21000) (by decide)
        exact scratch_page_moved layout other tables screenStart accepted low scratch kept
      · intro condition
        cases condition with
        | inl refused => cases refused
        | inr ready =>
            obtain ⟨fits, page, drawn⟩ := ready
            obtain ⟨p, same⟩ := Option.ne_none_iff_exists'.mp page
            rw [same, drawn] at mapped
            rw [drawn] at scratch
            exact law_holds layout other tables memory screenStart p mapped low scratch
              ((slot_inside_iff screenStart).mpr ⟨range.1, fits⟩)

end SimpleKernel.Paging
