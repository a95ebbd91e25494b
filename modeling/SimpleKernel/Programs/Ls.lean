import SimpleKernel.Programs.World

set_option autoImplicit false

namespace SimpleKernel.Programs

open FileSystem (Image entryName paddedName)
open Files (sysOpen sysRead OpenFails)
open Grep (store text)

def sbufsize : Nat := 33

variable (image : Image) (line : Nat → UInt8) (buf literal : Pointer)

def lsRound (fd : Int) (r : Running) : Option (Running ⊕ (Int × World)) :=
  let read := sysRead image line fd buf.val (sbufsize - 1) r.world.files
  let cnt := read.1.ret
  let w : World := ⟨read.2, r.world.output⟩
  if cnt = 0 then some (.inr (0, w))
  else if cnt = -1 then some (.inr (3, ece391Fdputs 1 literal (text "directory entry read failed\n") w))
  else
    let data := Function.update (store r.data 0 read.1.stored) cnt.toNat 10
    let written := ece391Write 1 buf ((List.range (cnt.toNat + 1)).map data) w
    if written.1 = -1 then some (.inr (3, written.2)) else some (.inl ⟨data, written.2⟩)

def lsMain (stack : Bytes) (fuel : Nat) (w : World) : Option (Int × World) :=
  let opened := sysOpen image (some dot) w.files
  let next : World := ⟨opened.2, w.output⟩
  if opened.1 = -1 then some (2, ece391Fdputs 1 literal (text "directory open failed\n") next)
  else Loop.run (lsRound image line buf literal opened.1) fuel ⟨stack, next⟩

theorem update_range (data : Bytes) (n : Nat) (value : UInt8) :
    (List.range (n + 1)).map (Function.update data n value) = (List.range n).map data ++ [value] := by
  rw [List.range_succ, List.map_append, List.map_singleton, Function.update_self]
  congr 1
  apply List.map_congr_left
  intro i member
  exact Function.update_of_ne (Nat.ne_of_lt (List.mem_range.mp member)) _ _

theorem padded_take (name : List UInt8) : (paddedName name).take name.length = name := by
  rw [paddedName, List.take_left]

theorem padded_fits (name : List UInt8) : name.length ≤ (paddedName name).length := by
  rw [paddedName, List.length_append]
  exact Nat.le_add_right _ _

theorem advance_open (w : World) (bytes : List UInt8) (fd : Nat) (opened : OpenDirectory fd w) :
    OpenDirectory fd (w.advance.say bytes) := ⟨opened.standard, opened.own, opened.used, opened.table⟩

theorem ls_listing (fd : Nat) :
    Listing image (OpenDirectory fd) (fun i => entryName image i ++ [10]) (lsRound image line buf literal fd) := by
  constructor
  · intro r opened empty
    refine ⟨r.world.advance, ?_, rfl⟩
    rw [lsRound, directory_read image line fd buf _ r.world opened, empty]
    rfl
  · intro r opened named
    have read := directory_read image line fd buf (sbufsize - 1) r.world opened
    generalize entryName image r.world.cursor = name at named read ⊢
    have positive : (name.length : Int) ≠ 0 := by
      have nonempty := List.length_pos_iff.mpr named
      omega
    have succeeds : (name.length : Int) ≠ -1 := by omega
    have held : (List.range (name.length + 1)).map (Function.update (store r.data 0 (paddedName name)) name.length 10) =
        name ++ [10] := by
      rw [update_range, store_range _ _ _ (padded_fits name), padded_take]
    have wrote := write_standard buf (name ++ [10]) ⟨r.world.advance.files, r.world.output⟩ opened.standard
    have count : ((name ++ [10]).length : Int) ≠ -1 := by omega
    have listed : lsRound image line buf literal fd r =
        some (.inl ⟨Function.update (store r.data 0 (paddedName name)) name.length 10, r.world.advance.say
          (name ++ [10])⟩) := by
      simp only [lsRound, read, Int.toNat_natCast, if_neg positive, if_neg succeeds, held, wrote, if_neg count]
      rfl
    exact ⟨_, listed, advance_open r.world _ fd opened, rfl, rfl⟩

-- ls lists the entries up to the first one without a name, whatever dir_count
-- says, and never comes to an end when the cursor meets no such entry.
theorem ls_lists (stack : Bytes) (w : World) (standard : Standard w.files.fds) :
    (OpenFails image (some dot) w.files.fds →
      ∀ fuel, Leaves (lsMain image line buf literal stack fuel w) 2 w (text "directory open failed\n")) ∧
    ∀ dentry, FileSystem.readDentryByName image dot = some dentry → dentry.filetype = Files.dirFiletype →
      ¬ OpenFails image (some dot) w.files.fds →
        (∀ e < 256, FirstEmpty image e →
          Leaves (lsMain image line buf literal stack (e + 1) w) 0 w ((List.range e).flatMap fun i =>
            entryName image i ++ [10])) ∧
        ((∀ i < 256, entryName image i ≠ []) → ∀ fuel, lsMain image line buf literal stack fuel w = none) := by
  constructor
  · intro fails fuel
    have refused := open_refused image (some dot) w.files fails
    refine ⟨w.say (text "directory open failed\n"), ?_, rfl⟩
    simp only [lsMain, refused, if_true]
    rw [fdputs_standard literal _ ⟨w.files, w.output⟩ standard]
  · intro dentry found directory opens
    obtain ⟨fd, result, opened, rewound, _⟩ := directory_opened image dot w dentry standard found directory opens
    have listing := ls_listing image line buf literal fd
    have succeeds : ¬ (fd : Int) = -1 := by omega
    constructor
    · intro e small first
      obtain ⟨last, ended, output⟩ := listing_ends image _ _ _ listing ⟨stack, _⟩ opened rewound e small first
      refine ⟨last, ?_, output⟩
      simp only [lsMain, result, if_neg succeeds]
      exact ended
    · intro full fuel
      have forever := listing_endless image _ _ _ listing ⟨stack, _⟩ opened full fuel
      simp only [lsMain, result, if_neg succeeds]
      exact forever

theorem ls_lists_note : Leaves (lsMain noteImage (fun _ => 0) notePointer notePointer (fun _ => 0) 3 noteWorld) 0 noteWorld
    [46, 10, 97, 10] :=
  ((ls_lists noteImage (fun _ => 0) notePointer notePointer (fun _ => 0) noteWorld note_standard).2 _ note_dot rfl
    (note_opens dot _ (by decide) note_dot (by decide))).1 2 (by decide) note_first_empty

end SimpleKernel.Programs
