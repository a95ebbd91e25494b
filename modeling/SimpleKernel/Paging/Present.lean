import SimpleKernel.Paging.UserMap

set_option autoImplicit false

namespace SimpleKernel.Paging

open BitField (get get_putAll)

theorem init_table_entry_fields (i : Nat) (entry : Word) (bound : i < 1024) :
    get present (initTableEntry i entry) = 1 ∧ get bit20Addr (initTableEntry i entry) = i := by
  have first : i ≥ videoMemory / size4kb ∨ i ≤ videoMemory / size4kb + 3 := by
    simp only [videoMemory, size4kb]
    omega
  constructor
  · rw [initTableEntry, if_pos first, get_putAll present _ _ (by decide) rfl]
    rfl
  · rw [initTableEntry, if_pos first, get_putAll bit20Addr _ _ (by decide) rfl]
    change (BitVec.ofInt 20 ((184 : Int) + ((i : Int) - 184))).toNat = i
    rw [BitVec.toNat_ofInt]
    omega

theorem init_directory_table (layout : Layout) (entry : Word) :
    get present (initDirectoryEntry layout 0 entry) = 1 ∧
      get bit20Addr (initDirectoryEntry layout 0 entry) * 2 ^ 12 = layout.pageTable := by
  constructor
  · rw [initDirectoryEntry, if_pos rfl, get_putAll present _ _ (by decide) rfl]
    rfl
  · rw [initDirectoryEntry, if_pos rfl, get_putAll bit20Addr _ _ (by decide) rfl]
    change (BitVec.ofInt 20 ((layout.pageTable / 4096 : Nat) : Int)).toNat * 2 ^ 12 = layout.pageTable
    have aligned := layout.tableAligned
    have bound := layout.tableInKernel
    rw [BitVec.toNat_ofInt]
    omega

theorem init_directory_big (layout : Layout) (entry : Word) :
    get present (initDirectoryEntry layout 1 entry) = 1 ∧ get pageSize (initDirectoryEntry layout 1 entry) = 1 := by
  constructor
  · rw [initDirectoryEntry, if_neg (by decide), if_pos rfl, get_putAll present _ _ (by decide) rfl]
    rfl
  · rw [initDirectoryEntry, if_neg (by decide), if_pos rfl, get_putAll pageSize _ _ (by decide) rfl]
    rfl

structure LowMapped (layout : Layout) (tables : Tables) : Prop where
  table : get present (tables.pageDirectory 0) = 1 ∧ get pageSize (tables.pageDirectory 0) = 0 ∧
    get bit20Addr (tables.pageDirectory 0) * 2 ^ 12 = layout.pageTable
  kernel : get present (tables.pageDirectory 1) = 1 ∧ get pageSize (tables.pageDirectory 1) = 1
  pages : ∀ i, i < 1024 → get present (tables.pageTable i) = 1
  identity : ∀ i, i < 1024 → i ≠ 33 → get bit20Addr (tables.pageTable i) = i

theorem init_paging_low (layout : Layout) (directory table : Nat → Word) :
    LowMapped layout (initPaging layout directory table) where
  table := by
    rw [init_paging_directory layout directory table 0 (by decide)]
    have fields := init_directory_table layout (directory 0)
    exact ⟨fields.1, (init_directory_low layout (directory 0)).1, fields.2⟩
  kernel := by
    rw [init_paging_directory layout directory table 1 (by decide)]
    exact init_directory_big layout (directory 1)
  pages := fun i bound => by
    have same : (initPaging layout directory table).pageTable i = initTableEntry i (table i) := if_pos bound
    rw [same]
    exact (init_table_entry_fields i (table i) bound).1
  identity := fun i bound _ => by
    have same : (initPaging layout directory table).pageTable i = initTableEntry i (table i) := if_pos bound
    rw [same]
    exact (init_table_entry_fields i (table i) bound).2

theorem page_switch_table (prossId : Int) (tables : Tables) :
    (pageSwitch prossId tables).pageTable = tables.pageTable := by
  unfold pageSwitch
  split <;> rfl

theorem vidmap_table (layout : Layout) (tables : Tables) (screenStart : Word) (accepted : accepts screenStart = true) :
    (vidmap layout screenStart tables).paging.pageTable =
      Function.update tables.pageTable 33 (vidmapTableEntry (tables.pageTable 33)) := by
  rw [vidmap_accepted layout tables screenStart accepted]
  rfl

theorem step_low (layout : Layout) (tables : Tables) (call : Call) (low : LowMapped layout tables) :
    LowMapped layout (step layout tables call) := by
  cases call with
  | pageSwitch prossId =>
      have other := page_switch_other prossId tables
      have same := page_switch_table prossId tables
      exact {
        table := by
          rw [step, other 0 (by decide)]
          exact low.table
        kernel := by
          rw [step, other 1 (by decide)]
          exact low.kernel
        pages := by
          rw [step, same]
          exact low.pages
        identity := by
          rw [step, same]
          exact low.identity }
  | vidmap screenStart =>
      cases accepted : accepts screenStart with
      | false =>
          rw [step, vidmap_refused layout tables screenStart accepted]
          exact low
      | true =>
          have other := vidmap_directory_other layout tables screenStart
          have table := vidmap_table layout tables screenStart accepted
          exact {
            table := by
              rw [step, other 0 (by decide)]
              exact low.table
            kernel := by
              rw [step, other 1 (by decide)]
              exact low.kernel
            pages := fun i bound => by
              rw [step, table]
              by_cases scratch : i = 33
              · rw [scratch, Function.update_self]
                exact (vidmap_table_entry_fields (tables.pageTable 33)).1
              · rw [Function.update_of_ne scratch]
                exact low.pages i bound
            identity := fun i bound apart => by
              rw [step, table, Function.update_of_ne apart]
              exact low.identity i bound apart }

theorem calls_low (layout : Layout) (directory table : Nat → Word) (calls : List Call) :
    LowMapped layout (Run.final (step layout) (initPaging layout directory table) calls) :=
  Run.invariant (step layout) (LowMapped layout) (step_low layout) _ calls (init_paging_low layout directory table)

theorem table_at_low (layout : Layout) (other : Nat → Nat → Word) (tables : Tables) :
    tableAt layout other tables layout.pageTable = tables.pageTable := if_pos rfl

theorem walk_low_page (layout : Layout) (other : Nat → Nat → Word) (tables : Tables) (v : Word)
    (low : LowMapped layout tables)
    (below : v.toNat / 2 ^ 22 = 0) :
    walk layout other tables v = some ⟨get bit20Addr (tables.pageTable (v.toNat / 2 ^ 12)) * 2 ^ 12 + v.toNat % 2 ^ 12,
      get userSupervisor (tables.pageDirectory 0) = 1 && get userSupervisor (tables.pageTable (v.toNat / 2 ^ 12)) = 1⟩ := by
  obtain ⟨here, small, address⟩ := low.table
  have slot : v.toNat / 2 ^ 12 % 1024 = v.toNat / 2 ^ 12 := by omega
  have leafHere := low.pages (v.toNat / 2 ^ 12) (by omega)
  rw [walk]
  simp only [below, here, small, address, table_at_low, slot, leafHere, Nat.one_ne_zero, Nat.zero_ne_one, if_false]

theorem walk_low (layout : Layout) (other : Nat → Nat → Word) (tables : Tables) (v : Word) (low : LowMapped layout tables)
    (below : v.toNat / 2 ^ 22 = 0) :
    ∃ leaf, walk layout other tables v = some leaf ∧ (v.toNat / 2 ^ 12 ≠ 33 → leaf.address = v.toNat) := by
  refine ⟨_, walk_low_page layout other tables v low below, fun apart => ?_⟩
  rw [low.identity (v.toNat / 2 ^ 12) (by omega) apart]
  exact Nat.div_add_mod' v.toNat (2 ^ 12)

theorem walk_absent (layout : Layout) (other : Nat → Nat → Word) (tables : Tables) (v : Word) (i : Nat)
    (entry : v.toNat / 2 ^ 22 = i) (absent : get present (tables.pageDirectory i) = 0) :
    walk layout other tables v = none := by
  rw [walk]
  simp only [entry, absent, if_true]

theorem walk_big (layout : Layout) (other : Nat → Nat → Word) (tables : Tables) (v : Word) (i : Nat)
    (entry : v.toNat / 2 ^ 22 = i) (here : get present (tables.pageDirectory i) = 1)
    (big : get pageSize (tables.pageDirectory i) = 1) : (walk layout other tables v).isSome = true := by
  rw [walk]
  simp only [entry, here, big, Nat.one_ne_zero, if_false, if_true, Option.isSome_some]

theorem walk_video (layout : Layout) (other : Nat → Nat → Word) (tables : Tables) (page : Option Nat) (v : Word)
    (mapped : Mapped layout tables page true) (entry : v.toNat / 2 ^ 22 = 33) :
    (walk layout other tables v).isSome = true ↔ v.toNat / 2 ^ 12 % 1024 = 0 := by
  obtain ⟨here, small, _, address⟩ := mapped.videoPresent rfl
  rw [walk]
  simp only [entry, here, small, address, table_at_vidmap, Nat.one_ne_zero, Nat.zero_ne_one, if_false]
  generalize v.toNat / 2 ^ 12 % 1024 = slot
  by_cases first : slot = 0
  · rw [first, (mapped.videoPage rfl).1]
    simp
  · have zero : get present (0 : Word) = 0 := by decide
    rw [mapped.videoRest slot first, zero]
    simp [first]

theorem low_identity_mapped (layout : Layout) (other : Nat → Nat → Word) (directory table : Nat → Word)
    (calls : List Call) (v : Word) (low : v.toNat < size4mb) (apart : v.toNat / size4kb ≠ 33) :
    (walk layout other (Run.final (step layout) (initPaging layout directory table) calls) v).map Leaf.address =
      some v.toNat := by
  simp only [size4mb, size4kb] at low apart
  obtain ⟨leaf, found, identity⟩ := walk_low layout other _ v (calls_low layout directory table calls) (by omega)
  rw [found, Option.map_some, identity (by omega)]

theorem walk_some (layout : Layout) (other : Nat → Nat → Word) (directory table : Nat → Word) (calls : List Call) (v : Word) :
    (walk layout other (Run.final (step layout) (initPaging layout directory table) calls) v).isSome = true ↔
      v.toNat < size8mb ∨
        (size128mb ≤ v.toNat ∧ v.toNat < size132mb ∧ lastPage calls ≠ none) ∨
        (size132mb ≤ v.toNat ∧ v.toNat < size132mb + size4kb ∧ videoMapped calls = true) := by
  have low := calls_low layout directory table calls
  have mapped := calls_mapped layout directory table calls
  generalize Run.final (step layout) (initPaging layout directory table) calls = tables at low mapped ⊢
  simp only [size8mb, size128mb, size132mb, size4kb]
  have bound := v.isLt
  by_cases first : v.toNat / 2 ^ 22 = 0
  · obtain ⟨leaf, found, _⟩ := walk_low layout other tables v low first
    rw [found]
    exact iff_of_true rfl (Or.inl (by omega))
  · by_cases second : v.toNat / 2 ^ 22 = 1
    · exact iff_of_true (walk_big layout other tables v 1 second low.kernel.1 low.kernel.2) (Or.inl (by omega))
    · by_cases user : v.toNat / 2 ^ 22 = 32
      · cases page : lastPage calls with
        | none =>
            rw [walk_absent layout other tables v 32 user (mapped.userAbsent page)]
            exact iff_of_false Bool.false_ne_true (by simp; omega)
        | some p =>
            obtain ⟨here, big, _⟩ := mapped.userPresent p page
            refine iff_of_true (walk_big layout other tables v 32 user here big) (Or.inr (Or.inl ⟨by omega, by omega, ?_⟩))
            exact Option.some_ne_none p
      · by_cases video : v.toNat / 2 ^ 22 = 33
        · cases maps : videoMapped calls with
          | false =>
              rw [walk_absent layout other tables v 33 video (mapped.videoAbsent maps)]
              exact iff_of_false Bool.false_ne_true (by simp; omega)
          | true =>
              rw [maps] at mapped
              rw [walk_video layout other tables _ v mapped video]
              simp
              omega
        · rw [walk_absent layout other tables v _ rfl (mapped.rest _ (by omega) (by omega) user video)]
          exact iff_of_false Bool.false_ne_true (by omega)

def Expected (v : Word) : Prop :=
  (0xB8000 ≤ v.toNat ∧ v.toNat < 0xBC000) ∨ (size4mb ≤ v.toNat ∧ v.toNat < size8mb) ∨
    (size128mb ≤ v.toNat ∧ v.toNat < size132mb) ∨ (size132mb ≤ v.toNat ∧ v.toNat < size132mb + size4kb)

instance (v : Word) : Decidable (Expected v) := inferInstanceAs (Decidable (_ ∨ _))

def LowHole (v : Word) : Prop := v.toNat < 0xB8000 ∨ (0xBC000 ≤ v.toNat ∧ v.toNat < size4mb)

theorem null_translates :
    (walk default (fun _ _ => 0) (Run.final (step default) (initPaging default (fun _ => 0) fun _ => 0) []) 0).isSome = true ∧
      ¬ Expected 0 := by
  decide +kernel

theorem translates_exact (layout : Layout) (other : Nat → Nat → Word) (directory table : Nat → Word) (calls : List Call)
    (v : Word) :
    ((walk layout other (Run.final (step layout) (initPaging layout directory table) calls) v).isSome = true →
        Expected v) ↔ ¬ LowHole v := by
  rw [walk_some layout other directory table calls v]
  simp only [Expected, LowHole, size4mb, size8mb, size128mb, size132mb, size4kb]
  constructor
  · intro holds hole
    have place := holds (Or.inl (by omega))
    omega
  · intro outside translates
    omega

end SimpleKernel.Paging
