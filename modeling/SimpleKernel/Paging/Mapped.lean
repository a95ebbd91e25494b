import SimpleKernel.Library.Run
import SimpleKernel.Paging.Tables

set_option autoImplicit false

namespace SimpleKernel.Paging

open BitField (get putAll separate lastStored get_putAll)

def pageArgument : Call → Option Nat
  | .pageSwitch prossId => if prossId < 0 ∨ prossId ≥ 8 then none else some prossId.toNat
  | .vidmap _ => none

def lastPage (calls : List Call) : Option Nat := (calls.filterMap pageArgument).getLast?

def accepts (screenStart : Word) : Bool :=
  decide ((size128mb : Int) ≤ screenStart.toInt ∧ screenStart.toInt < (size128mb : Int) + (size4mb : Int))

def mapsVideo : Call → Bool
  | .pageSwitch _ => false
  | .vidmap screenStart => accepts screenStart

def videoMapped (calls : List Call) : Bool := calls.any mapsVideo

theorem page_switch_entry_fields (prossId : Int) (entry : Word) (low : 0 ≤ prossId) (high : prossId < 8) :
    get present (pageSwitchEntry prossId entry) = 1 ∧ get pageSize (pageSwitchEntry prossId entry) = 1 ∧
      get userSupervisor (pageSwitchEntry prossId entry) = 1 ∧
      get bit10Addr (pageSwitchEntry prossId entry) = 2 + prossId.toNat := by
  refine ⟨?_, ?_, ?_, ?_⟩
  · rw [pageSwitchEntry, get_putAll present _ _ (by decide) rfl]
    rfl
  · rw [pageSwitchEntry, get_putAll pageSize _ _ (by decide) rfl]
    rfl
  · rw [pageSwitchEntry, get_putAll userSupervisor _ _ (by decide) rfl]
    rfl
  · rw [pageSwitchEntry, get_putAll bit10Addr _ _ (by decide) rfl]
    change (BitVec.ofInt 10 (((8388608 : Int) + prossId * 4194304) / 2 ^ 22)).toNat = 2 + prossId.toNat
    rw [BitVec.toNat_ofInt]
    omega

theorem vidmap_directory_entry_fields (layout : Layout) (entry : Word) :
    get present (vidmapDirectoryEntry layout entry) = 1 ∧ get pageSize (vidmapDirectoryEntry layout entry) = 0 ∧
      get userSupervisor (vidmapDirectoryEntry layout entry) = 1 ∧
      get bit20Addr (vidmapDirectoryEntry layout entry) * 2 ^ 12 = layout.vidmapPt := by
  refine ⟨?_, ?_, ?_, ?_⟩
  · rw [vidmapDirectoryEntry, get_putAll present _ _ (by decide) rfl]
    rfl
  · rw [vidmapDirectoryEntry, get_putAll pageSize _ _ (by decide) rfl]
    rfl
  · rw [vidmapDirectoryEntry, get_putAll userSupervisor _ _ (by decide) rfl]
    rfl
  · rw [vidmapDirectoryEntry, get_putAll bit20Addr _ _ (by decide) rfl]
    change (BitVec.ofInt 20 ((layout.vidmapPt / 4096 : Nat) : Int)).toNat * 2 ^ 12 = layout.vidmapPt
    have aligned := layout.vidmapAligned
    have bound := layout.vidmapInKernel
    rw [BitVec.toNat_ofInt]
    omega

theorem vidmap_table_entry_fields (entry : Word) :
    get present (vidmapTableEntry entry) = 1 ∧ get userSupervisor (vidmapTableEntry entry) = 1 ∧
      get bit20Addr (vidmapTableEntry entry) * 2 ^ 12 = videoMemory := by
  refine ⟨?_, ?_, ?_⟩
  · rw [vidmapTableEntry, get_putAll present _ _ (by decide) rfl]
    rfl
  · rw [vidmapTableEntry, get_putAll userSupervisor _ _ (by decide) rfl]
    rfl
  · rw [vidmapTableEntry, get_putAll bit20Addr _ _ (by decide) rfl]
    change (BitVec.ofInt 20 184).toNat * 2 ^ 12 = 0xB8000
    decide

theorem init_directory_low (layout : Layout) (entry : Word) :
    get pageSize (initDirectoryEntry layout 0 entry) = 0 ∧ get userSupervisor (initDirectoryEntry layout 0 entry) = 0 := by
  constructor
  · rw [initDirectoryEntry, if_pos rfl, get_putAll pageSize _ _ (by decide) rfl]
    rfl
  · rw [initDirectoryEntry, if_pos rfl, get_putAll userSupervisor _ _ (by decide) rfl]
    rfl

theorem init_directory_kernel (layout : Layout) (entry : Word) :
    get userSupervisor (initDirectoryEntry layout 1 entry) = 0 := by
  rw [initDirectoryEntry, if_neg (by decide), if_pos rfl, get_putAll userSupervisor _ _ (by decide) rfl]
  rfl

theorem init_directory_absent (layout : Layout) (i : Nat) (entry : Word) (above : 2 ≤ i) :
    get present (initDirectoryEntry layout i entry) = 0 := by
  rw [initDirectoryEntry, if_neg (by omega), if_neg (by omega), get_putAll present _ _ (by decide) rfl]
  rfl

structure Mapped (layout : Layout) (tables : Tables) (page : Option Nat) (video : Bool) : Prop where
  low : get userSupervisor (tables.pageDirectory 0) = 0
  kernel : get userSupervisor (tables.pageDirectory 1) = 0
  userAbsent : page = none → get present (tables.pageDirectory 32) = 0
  userPresent : ∀ p, page = some p → get present (tables.pageDirectory 32) = 1 ∧
    get pageSize (tables.pageDirectory 32) = 1 ∧ get userSupervisor (tables.pageDirectory 32) = 1 ∧
    get bit10Addr (tables.pageDirectory 32) = 2 + p
  videoAbsent : video = false → get present (tables.pageDirectory 33) = 0
  videoPresent : video = true → get present (tables.pageDirectory 33) = 1 ∧
    get pageSize (tables.pageDirectory 33) = 0 ∧ get userSupervisor (tables.pageDirectory 33) = 1 ∧
    get bit20Addr (tables.pageDirectory 33) * 2 ^ 12 = layout.vidmapPt
  videoPage : video = true → get present (tables.vidmapPt 0) = 1 ∧ get userSupervisor (tables.vidmapPt 0) = 1 ∧
    get bit20Addr (tables.vidmapPt 0) * 2 ^ 12 = videoMemory
  videoRest : ∀ i, i ≠ 0 → tables.vidmapPt i = 0
  rest : ∀ i, 2 ≤ i → i < 1024 → i ≠ 32 → i ≠ 33 → get present (tables.pageDirectory i) = 0

theorem init_paging_directory (layout : Layout) (directory table : Nat → Word) (i : Nat) (bound : i < 1024) :
    (initPaging layout directory table).pageDirectory i = initDirectoryEntry layout i (directory i) :=
  if_pos bound

theorem init_paging_mapped (layout : Layout) (directory table : Nat → Word) :
    Mapped layout (initPaging layout directory table) none false where
  low := by
    rw [init_paging_directory layout directory table 0 (by decide)]
    exact (init_directory_low layout (directory 0)).2
  kernel := by
    rw [init_paging_directory layout directory table 1 (by decide)]
    exact init_directory_kernel layout (directory 1)
  userAbsent := fun _ => by
    rw [init_paging_directory layout directory table 32 (by decide)]
    exact init_directory_absent layout 32 (directory 32) (by decide)
  userPresent := fun _ same => by cases same
  videoAbsent := fun _ => by
    rw [init_paging_directory layout directory table 33 (by decide)]
    exact init_directory_absent layout 33 (directory 33) (by decide)
  videoPresent := fun same => by cases same
  videoPage := fun same => by cases same
  videoRest := fun _ _ => rfl
  rest := fun i above bound _ _ => by
    rw [init_paging_directory layout directory table i bound]
    exact init_directory_absent layout i (directory i) above

theorem user_idx_eq : userIdx = 32 := rfl

theorem vidmap_idx_eq : vidmapIdx = 33 := rfl

theorem vidmap_pt_idx_eq : vidmapPtIdx = 0 := by decide

theorem page_switch_refused (prossId : Int) (tables : Tables) (outside : prossId < 0 ∨ prossId ≥ 8) :
    pageSwitch prossId tables = tables :=
  if_pos outside

theorem page_switch_other (prossId : Int) (tables : Tables) (i : Nat) (different : i ≠ 32) :
    (pageSwitch prossId tables).pageDirectory i = tables.pageDirectory i := by
  unfold pageSwitch
  split
  · rfl
  · exact Function.update_of_ne different _ _

theorem page_switch_user (prossId : Int) (tables : Tables) (low : 0 ≤ prossId) (high : prossId < 8) :
    (pageSwitch prossId tables).pageDirectory 32 = pageSwitchEntry prossId (tables.pageDirectory 32) := by
  rw [pageSwitch, if_neg (by omega), user_idx_eq]
  dsimp only
  rw [Function.update_self]

theorem page_switch_vidmap_pt (prossId : Int) (tables : Tables) :
    (pageSwitch prossId tables).vidmapPt = tables.vidmapPt := by
  unfold pageSwitch
  split <;> rfl

theorem page_switch_mapped (layout : Layout) (tables : Tables) (page : Option Nat) (video : Bool) (prossId : Int)
    (mapped : Mapped layout tables page video) :
    Mapped layout (pageSwitch prossId tables) ((pageArgument (.pageSwitch prossId)).orElse fun _ => page) video := by
  by_cases outside : prossId < 0 ∨ prossId ≥ 8
  · simpa only [page_switch_refused prossId tables outside, pageArgument, if_pos outside,
      Option.orElse_none] using mapped
  · have fields := page_switch_entry_fields prossId (tables.pageDirectory 32) (by omega) (by omega)
    have user := page_switch_user prossId tables (by omega) (by omega)
    have other := page_switch_other prossId tables
    simp only [pageArgument, if_neg outside, Option.orElse_some]
    exact {
      low := by
        rw [other 0 (by decide)]
        exact mapped.low
      kernel := by
        rw [other 1 (by decide)]
        exact mapped.kernel
      userAbsent := fun absent => by cases absent
      userPresent := fun p same => by
        rw [user, ← Option.some.inj same]
        exact fields
      videoAbsent := by
        rw [other 33 (by decide)]
        exact mapped.videoAbsent
      videoPresent := by
        rw [other 33 (by decide)]
        exact mapped.videoPresent
      videoPage := by
        rw [page_switch_vidmap_pt]
        exact mapped.videoPage
      videoRest := by
        rw [page_switch_vidmap_pt]
        exact mapped.videoRest
      rest := fun i above bound notUser notVideo => by
        rw [other i notUser]
        exact mapped.rest i above bound notUser notVideo }

theorem vidmap_refused (layout : Layout) (tables : Tables) (screenStart : Word) (refused : accepts screenStart = false) :
    vidmap layout screenStart tables = ⟨-1, tables, none⟩ := by
  have outside : ¬ ((size128mb : Int) ≤ screenStart.toInt ∧ screenStart.toInt < (size128mb : Int) + (size4mb : Int)) := by
    simpa only [accepts, decide_eq_false_iff_not] using refused
  unfold vidmap
  split
  · rfl
  · rw [if_pos (by omega)]

theorem vidmap_accepted (layout : Layout) (tables : Tables) (screenStart : Word) (accepted : accepts screenStart = true) :
    vidmap layout screenStart tables =
      ⟨0, { pageDirectory := Function.update tables.pageDirectory vidmapIdx
              (vidmapDirectoryEntry layout (tables.pageDirectory vidmapIdx)),
            pageTable := Function.update tables.pageTable vidmapIdx (vidmapTableEntry (tables.pageTable vidmapIdx)),
            vidmapPt := Function.update tables.vidmapPt vidmapPtIdx (vidmapTableEntry (tables.pageTable vidmapIdx)) },
        some (screenStart, BitVec.ofNat 32 size132mb)⟩ := by
  have inside : (size128mb : Int) ≤ screenStart.toInt ∧ screenStart.toInt < (size128mb : Int) + (size4mb : Int) := by
    simpa only [accepts, decide_eq_true_eq] using accepted
  have nonzero : screenStart ≠ 0 := by
    rintro rfl
    exact absurd inside.1 (by decide)
  rw [vidmap, if_neg nonzero, if_neg (by omega)]

theorem vidmap_directory_other (layout : Layout) (tables : Tables) (screenStart : Word) (i : Nat) (different : i ≠ 33) :
    (vidmap layout screenStart tables).paging.pageDirectory i = tables.pageDirectory i := by
  cases accepted : accepts screenStart with
  | false => rw [vidmap_refused layout tables screenStart accepted]
  | true =>
      rw [vidmap_accepted layout tables screenStart accepted]
      exact Function.update_of_ne different _ _

theorem vidmap_pt_other (layout : Layout) (tables : Tables) (screenStart : Word) (i : Nat) (different : i ≠ 0) :
    (vidmap layout screenStart tables).paging.vidmapPt i = tables.vidmapPt i := by
  cases accepted : accepts screenStart with
  | false => rw [vidmap_refused layout tables screenStart accepted]
  | true =>
      rw [vidmap_accepted layout tables screenStart accepted]
      exact Function.update_of_ne different _ _

theorem vidmap_directory_video (layout : Layout) (tables : Tables) (screenStart : Word)
    (accepted : accepts screenStart = true) :
    (vidmap layout screenStart tables).paging.pageDirectory 33 =
      vidmapDirectoryEntry layout (tables.pageDirectory 33) := by
  rw [vidmap_accepted layout tables screenStart accepted, vidmap_idx_eq]
  dsimp only
  rw [Function.update_self]

theorem vidmap_pt_first (layout : Layout) (tables : Tables) (screenStart : Word)
    (accepted : accepts screenStart = true) :
    (vidmap layout screenStart tables).paging.vidmapPt 0 = vidmapTableEntry (tables.pageTable 33) := by
  rw [vidmap_accepted layout tables screenStart accepted, vidmap_idx_eq, vidmap_pt_idx_eq]
  dsimp only
  rw [Function.update_self]

theorem vidmap_mapped (layout : Layout) (tables : Tables) (page : Option Nat) (video : Bool) (screenStart : Word)
    (mapped : Mapped layout tables page video) :
    Mapped layout (vidmap layout screenStart tables).paging page (video || accepts screenStart) := by
  cases accepted : accepts screenStart with
  | false => simpa only [vidmap_refused layout tables screenStart accepted, Bool.or_false] using mapped
  | true =>
      have other := vidmap_directory_other layout tables screenStart
      have otherPt := vidmap_pt_other layout tables screenStart
      have fields := vidmap_directory_entry_fields layout (tables.pageDirectory 33)
      have pageFields := vidmap_table_entry_fields (tables.pageTable 33)
      rw [Bool.or_true]
      exact {
        low := by
          rw [other 0 (by decide)]
          exact mapped.low
        kernel := by
          rw [other 1 (by decide)]
          exact mapped.kernel
        userAbsent := by
          rw [other 32 (by decide)]
          exact mapped.userAbsent
        userPresent := by
          rw [other 32 (by decide)]
          exact mapped.userPresent
        videoAbsent := fun absent => by cases absent
        videoPresent := fun _ => by
          rw [vidmap_directory_video layout tables screenStart accepted]
          exact fields
        videoPage := fun _ => by
          rw [vidmap_pt_first layout tables screenStart accepted]
          exact pageFields
        videoRest := fun i nonzero => by
          rw [otherPt i nonzero]
          exact mapped.videoRest i nonzero
        rest := fun i above bound notUser notVideo => by
          rw [other i notVideo]
          exact mapped.rest i above bound notUser notVideo }

theorem last_page_concat (calls : List Call) (call : Call) :
    lastPage (calls ++ [call]) = (pageArgument call).orElse fun _ => lastPage calls := by
  cases argument : pageArgument call <;> simp [lastPage, List.filterMap_append, argument]

theorem video_mapped_concat (calls : List Call) (call : Call) :
    videoMapped (calls ++ [call]) = (videoMapped calls || mapsVideo call) := by
  simp [videoMapped]

theorem calls_mapped (layout : Layout) (directory table : Nat → Word) (calls : List Call) :
    Mapped layout (Run.final (step layout) (initPaging layout directory table) calls) (lastPage calls)
      (videoMapped calls) := by
  induction calls using List.reverseRecOn with
  | nil => exact init_paging_mapped layout directory table
  | append_singleton done call ih =>
      rw [Run.final_concat, last_page_concat, video_mapped_concat]
      cases call with
      | pageSwitch prossId =>
          simpa only [mapsVideo, Bool.or_false, step] using page_switch_mapped layout _ _ _ prossId ih
      | vidmap screenStart => exact vidmap_mapped layout _ _ _ screenStart ih

end SimpleKernel.Paging
