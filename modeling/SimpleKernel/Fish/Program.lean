import SimpleKernel.Fish.Animation

set_option autoImplicit false

namespace SimpleKernel.Fish

def pictureAt (file : List UInt8) (row col : Nat) : UInt8 := ((file.splitOn newline).getD row []).getD col space

def Blinked (file0 file1 : List UInt8) (row col : Nat) : Prop :=
  ¬ (pictureAt file0 row col = space ∧ pictureAt file1 row col = space)

instance (file0 file1 : List UInt8) (row col : Nat) : Decidable (Blinked file0 file1 row col) :=
  inferInstanceAs (Decidable (¬ (_ ∧ _)))

-- A picture whose places all have locations of their own in 16 bits.
structure Fits (file : List UInt8) : Prop where
  rows : (file.splitOn newline).length ≤ 818
  columns : ∀ line ∈ file.splitOn newline, line.length ≤ 80

instance (file : List UInt8) : Decidable (Fits file) :=
  decidable_of_iff ((file.splitOn newline).length ≤ 818 ∧ ∀ line ∈ file.splitOn newline, line.length ≤ 80)
    ⟨fun both => ⟨both.1, both.2⟩, fun fits => ⟨fits.rows, fits.columns⟩⟩

theorem cell_some (stack : Blink) (row : Nat) (line0 line1 : List UInt8) (col : Nat) (blink : Blink) :
    cell stack row line0 line1 col = some blink ↔
      ¬ (line0.getD col space = space ∧ line1.getD col space = space) ∧
        blink = frameBlink stack row col (line0.getD col space) (line1.getD col space) := by
  rw [cell]
  split
  · rename_i blank
    exact ⟨fun absurd => (by cases absurd), fun both => absurd blank both.1⟩
  · rename_i visible
    rw [Option.some.injEq]
    exact ⟨fun same => ⟨visible, same.symm⟩, fun both => both.2.symm⟩

theorem visible_column (line0 line1 : List UInt8) (col : Nat)
    (visible : ¬ (line0.getD col space = space ∧ line1.getD col space = space)) :
    col < max line0.length line1.length := by
  by_contra outside
  apply visible
  have past := max_le_iff.mp (Nat.le_of_not_lt outside)
  exact ⟨List.getD_eq_default line0 space past.1, List.getD_eq_default line1 space past.2⟩

theorem row_blinks_member (stack : Blink) (row : Nat) (line0 line1 : List UInt8) (blink : Blink) :
    blink ∈ rowBlinks stack row line0 line1 ↔ ∃ col, ¬ (line0.getD col space = space ∧ line1.getD col space = space) ∧
      blink = frameBlink stack row col (line0.getD col space) (line1.getD col space) := by
  simp only [rowBlinks, List.mem_filterMap, List.mem_range, cell_some]
  constructor
  · rintro ⟨col, _, visible, same⟩
    exact ⟨col, visible, same⟩
  · rintro ⟨col, visible, same⟩
    exact ⟨col, visible_column line0 line1 col visible, visible, same⟩

theorem blinks_member (stack : Blink) (file0 file1 : List UInt8) (blink : Blink) :
    blink ∈ blinksFrom stack 0 (file0.splitOn newline) (file1.splitOn newline) ↔ ∃ row col, Blinked file0 file1 row col ∧
      blink = frameBlink stack row col (pictureAt file0 row col) (pictureAt file1 row col) := by
  simp only [blinksFrom, List.mem_flatMap, List.mem_range, Nat.zero_add, row_blinks_member]
  constructor
  · rintro ⟨row, _, col, visible, same⟩
    exact ⟨row, col, visible, same⟩
  · rintro ⟨row, col, visible, same⟩
    refine ⟨row, ?_, col, visible, same⟩
    by_contra outside
    have past := max_le_iff.mp (Nat.le_of_not_lt outside)
    apply visible
    rw [pictureAt, pictureAt, List.getD_eq_default _ _ past.1, List.getD_eq_default _ _ past.2]
    exact ⟨rfl, rfl⟩

theorem picture_narrow (file : List UInt8) (fits : Fits file) (row col : Nat) (visible : pictureAt file row col ≠ space) :
    row < 818 ∧ col < 80 := by
  have inRows : row < (file.splitOn newline).length := by
    by_contra outside
    rw [pictureAt, List.getD_eq_default _ _ (Nat.le_of_not_lt outside)] at visible
    exact visible rfl
  have inLine : col < ((file.splitOn newline).getD row []).length := by
    by_contra outside
    rw [pictureAt, List.getD_eq_default _ _ (Nat.le_of_not_lt outside)] at visible
    exact visible rfl
  rw [List.getD_eq_getElem _ _ inRows] at inLine
  have narrow := fits.columns _ (List.getElem_mem inRows)
  have rows := fits.rows
  omega

theorem blinked_place (file0 file1 : List UInt8) (fits0 : Fits file0) (fits1 : Fits file1) (row col : Nat)
    (blinked : Blinked file0 file1 row col) : row < 818 ∧ col < 80 := by
  by_cases blank : pictureAt file0 row col = space
  · exact picture_narrow file1 fits1 row col fun same => blinked ⟨blank, same⟩
  · exact picture_narrow file0 fits0 row col blank

theorem frame_blink_place (stack : Blink) (row col : Nat) (c0 c1 : UInt8) (rows : row < 818) (columns : col < 80) :
    (frameBlink stack row col c0 c1).location.toNat = row * 80 + col + 40 := by
  rw [frameBlink, BitVec.toNat_ofNat]
  omega

theorem cells_apart (stack : Blink) (file0 file1 : List UInt8) (fits0 : Fits file0) (fits1 : Fits file1)
    (row col other column : Nat) (first : Blinked file0 file1 row col) (second : Blinked file0 file1 other column)
    (apart : row ≠ other ∨ col ≠ column) (c0 c1 d0 d1 : UInt8) :
    (frameBlink stack row col c0 c1).location ≠ (frameBlink stack other column d0 d1).location := by
  obtain ⟨rows, columns⟩ := blinked_place file0 file1 fits0 fits1 row col first
  obtain ⟨rows', columns'⟩ := blinked_place file0 file1 fits0 fits1 other column second
  intro same
  have places := congrArg BitVec.toNat same
  rw [frame_blink_place stack row col c0 c1 rows columns, frame_blink_place stack other column d0 d1 rows' columns'] at places
  omega

theorem blinks_distinct (stack : Blink) (file0 file1 : List UInt8) (fits0 : Fits file0) (fits1 : Fits file1) :
    ((blinksFrom stack 0 (file0.splitOn newline) (file1.splitOn newline)).map Blink.location).Nodup := by
  rw [List.nodup_iff_pairwise_ne, List.pairwise_map, blinksFrom, List.pairwise_flatMap]
  constructor
  · intro row _
    rw [rowBlinks, List.pairwise_filterMap]
    refine List.pairwise_lt_range.imp fun {col column} less first here second there => ?_
    obtain ⟨visible, rfl⟩ := (cell_some stack _ _ _ _ _).mp here
    obtain ⟨visible', rfl⟩ := (cell_some stack _ _ _ _ _).mp there
    rw [Nat.zero_add]
    exact cells_apart stack file0 file1 fits0 fits1 row col row column visible visible' (Or.inr (Nat.ne_of_lt less)) _ _ _ _
  · refine List.pairwise_lt_range.imp fun {row other} less first here second there => ?_
    obtain ⟨col, visible, rfl⟩ := (row_blinks_member stack _ _ _ _).mp here
    obtain ⟨column, visible', rfl⟩ := (row_blinks_member stack _ _ _ _).mp there
    rw [Nat.zero_add, Nat.zero_add]
    exact cells_apart stack file0 file1 fits0 fits1 row col other column visible visible' (Or.inl (Nat.ne_of_lt less)) _ _ _ _

theorem blinks_nonzero (stack : Blink) (file0 file1 : List UInt8) (fits0 : Fits file0) (fits1 : Fits file1) :
    0 ∉ (blinksFrom stack 0 (file0.splitOn newline) (file1.splitOn newline)).map Blink.location := by
  intro member
  obtain ⟨blink, inside, zero⟩ := List.mem_map.mp member
  obtain ⟨row, col, blinked, rfl⟩ := (blinks_member stack file0 file1 blink).mp inside
  obtain ⟨rows, columns⟩ := blinked_place file0 file1 fits0 fits1 row col blinked
  have place := congrArg BitVec.toNat zero
  rw [frame_blink_place stack row col _ _ rows columns] at place
  change row * 80 + col + 40 = 0 at place
  omega

theorem blinks_lengths (stack : Blink) (file0 file1 : List UInt8) :
    ∀ blink ∈ blinksFrom stack 0 (file0.splitOn newline) (file1.splitOn newline),
      blink.onLength = BitVec.ofNat 16 15 ∧ blink.offLength = BitVec.ofNat 16 15 := by
  intro blink member
  obtain ⟨row, col, _, rfl⟩ := (blinks_member stack file0 file1 blink).mp member
  exact ⟨rfl, rfl⟩

theorem drawn_chars (stack : Blink) (file0 file1 : List UInt8) (row col : Nat) :
    (frameBlink stack row col (pictureAt file0 row col) (pictureAt file1 row col)).onChar = pictureAt file0 row col ∧
      (frameBlink stack row col (pictureAt file0 row col) (pictureAt file1 row col)).offChar = pictureAt file1 row col := by
  have drawn (file : List UInt8) : pictureAt file row col ≠ newline := by
    apply never_newline
    by_cases inside : row < (file.splitOn newline).length
    · rw [List.getD_eq_getElem _ _ inside]
      exact Text.split_clean newline file _ (List.getElem_mem inside)
    · rw [List.getD_eq_default _ _ (Nat.le_of_not_lt inside)]
      exact List.not_mem_nil
  exact ⟨if_neg (drawn file0), if_neg (drawn file1)⟩

structure Animated (vmem : Nat → UInt8) (file0 file1 : List UInt8) (ticks : Nat) (now : Nat → UInt8) : Prop where
  shown : ∀ row col, Blinked file0 file1 row col → row * 80 + col + 40 < 80 * 25 →
    now (2 * (row * 80 + col + 40)) = pictureAt (if ticks / 15 % 2 = 0 then file0 else file1) row col
  untouched : ∀ address,
    (∀ row col, Blinked file0 file1 row col → row * 80 + col + 40 < 80 * 25 → address ≠ 2 * (row * 80 + col + 40)) →
    now address = vmem address

theorem frames_stage (stack : Blink) (file0 file1 : List UInt8) (vmem : Nat → UInt8) (ticks : Nat) (fits0 : Fits file0)
    (fits1 : Fits file1) (blinks : List Blink) (added : addFrames stack file0 file1 = some blinks) :
    Stage 15 ticks vmem ((accepted blinks).map Blink.entry).reverse
      (Run.final Session.step (start vmem) (blinks.map Request.add ++ List.replicate ticks .tick)) := by
  rw [add_frames_blinks stack file0 file1] at added
  cases added
  have distinct := blinks_distinct stack file0 file1 fits0 fits1
  have nonzero := blinks_nonzero stack file0 file1 fits0 fits1
  have stage := stage_adds 15 vmem _ [] (start vmem) (stage_start 15 vmem) distinct nonzero (blinks_lengths stack file0 file1)
  rw [List.append_nil] at stage
  have apart : (((accepted (blinksFrom stack 0 (file0.splitOn newline) (file1.splitOn newline))).map Blink.entry).reverse.map
      Entry.location).Nodup := by
    rw [List.map_reverse, List.nodup_reverse, List.map_map]
    exact (List.Sublist.map _ List.filter_sublist).nodup distinct
  have later := stage_ticks 15 0 ticks vmem _ _ (by decide) (by decide) apart stage
  rw [Nat.zero_add] at later
  rw [Run.final_append]
  exact later

theorem frames_animated (stack : Blink) (file0 file1 : List UInt8) (vmem : Nat → UInt8) (ticks : Nat) (fits0 : Fits file0)
    (fits1 : Fits file1) :
    ∃ blinks driver, addFrames stack file0 file1 = some blinks ∧
      (Run.final Session.step (start vmem) (blinks.map Request.add ++ List.replicate ticks .tick)).driver = some driver ∧
      Animated vmem file0 file1 ticks driver.vmem := by
  have added := add_frames_blinks stack file0 file1
  obtain ⟨driver, here, shows⟩ := stage_shows 15 ticks vmem _ _
    (frames_stage stack file0 file1 vmem ticks fits0 fits1 _ added)
  refine ⟨_, driver, added, here, ?_, ?_⟩
  · intro row col blinked inside
    obtain ⟨rows, columns⟩ := blinked_place file0 file1 fits0 fits1 row col blinked
    have place := frame_blink_place stack row col (pictureAt file0 row col) (pictureAt file1 row col) rows columns
    have member := (blinks_member stack file0 file1 _).mpr ⟨row, col, blinked, rfl⟩
    have shown := shows.shown _ member (by rw [OnScreen, place]; exact inside)
    rw [Blink.offset, place, (drawn_chars stack file0 file1 row col).1, (drawn_chars stack file0 file1 row col).2] at shown
    rw [shown]
    by_cases even : ticks / 15 % 2 = 0
    · rw [decide_eq_true even, if_pos even]
      rfl
    · rw [decide_eq_false even, if_neg even]
      rfl
  · intro address apart
    apply shows.untouched
    intro blink member inside
    obtain ⟨row, col, blinked, rfl⟩ := (blinks_member stack file0 file1 blink).mp member
    obtain ⟨rows, columns⟩ := blinked_place file0 file1 fits0 fits1 row col blinked
    have place := frame_blink_place stack row col (pictureAt file0 row col) (pictureAt file1 row col) rows columns
    rw [OnScreen, place] at inside
    rw [Blink.offset, place]
    exact apart row col blinked inside

theorem frames_animated_letters :
    ∃ blinks driver, addFrames zeroed [97] [98] = some blinks ∧
      (Run.final Session.step (start fun _ => 0) (blinks.map Request.add ++ List.replicate 15 .tick)).driver = some driver ∧
      driver.vmem 80 = 98 := by
  obtain ⟨blinks, driver, added, here, animated⟩ := frames_animated zeroed [97] [98] (fun _ => 0) 15 (by decide) (by decide)
  exact ⟨blinks, driver, added, here, animated.shown 0 0 (by decide) (by decide)⟩

def waitTicks : List Request := List.replicate 100 .tick

def mainBlink (stack : Blink) : Blink :=
  { stack with onChar := 73, offChar := 77, onLength := 7, offLength := 6, location := 6 * 80 + 60 }

def mainRequests (stack : Blink) (blinks : List Blink) : List Request :=
  blinks.map Request.add ++ waitTicks ++ [.add (mainBlink stack)] ++ waitTicks ++
    [.sync ((40 : BitVec 32) <<< 16 ||| (6 * 80 + 60))] ++
    waitTicks ++ [.remove (6 * 80 + 60)] ++ waitTicks

-- The exit status and the calls of the driver. A file that cannot be opened
-- halts the program, with the low byte of -1.
def fishMain (vidmapped : Bool) (file0 file1 : Option (List UInt8)) (stack mainStack : Blink) : Option (Int × List Request) :=
  if vidmapped = false then some (-1, [])
  else
    match file0, file1 with
    | none, _ => some (255, [])
    | some _, none => some (255, [])
    | some file0, some file1 => (addFrames stack file0 file1).map fun blinks => (0, mainRequests mainStack blinks)

theorem account_nonzero (request : Request) (returned : Int) (registered : List Entry)
    (added : ∀ user, request = .add user → user.location ≠ 0) (nonzero : 0 ∉ registered.map Entry.location) :
    0 ∉ (request.account returned registered).map Entry.location := by
  cases request with
  | add user =>
      rw [Request.account]
      split
      · rw [List.map_cons, List.mem_cons, not_or]
        exact ⟨fun zero => added user rfl zero.symm, nonzero⟩
      · exact nonzero
  | remove argument =>
      rw [Request.account]
      split
      · exact fun member => nonzero ((List.Sublist.map _ List.eraseP_sublist).subset member)
      · exact nonzero
  | _ => exact nonzero

structure Cornerless (session : Session) : Prop where
  kept : Kept session
  nonzero : 0 ∉ session.registered.map Entry.location

theorem cornerless_admits (session : Session) (request : Request) (cornerless : Cornerless session) :
    Admits session request := by
  cases request with
  | add user =>
      intro _ driver here
      obtain ⟨other, slots, there, shape⟩ := cornerless.kept
      obtain rfl : driver = other := Option.some.inj (here.symm.trans there)
      exact nonzero_free_first driver session.registered slots shape cornerless.nonzero
  | _ => trivial

theorem cornerless_step (session : Session) (request : Request) (cornerless : Cornerless session)
    (added : ∀ user, request = .add user → user.location ≠ 0) : Cornerless (session.step request) := by
  refine ⟨admitted_kept session request cornerless.kept (cornerless_admits session request cornerless), ?_⟩
  obtain ⟨driver, slots, here, shape⟩ := cornerless.kept
  obtain ⟨returned, after, rest, performed, _⟩ := perform_shape request driver session.registered slots shape
    (fun user same _ => nonzero_free_first driver session.registered slots shape cornerless.nonzero)
  rw [step_performed session request driver after returned here performed]
  exact account_nonzero request returned session.registered added cornerless.nonzero

theorem cornerless_guarded (session : Session) (requests : List Request) (cornerless : Cornerless session)
    (added : 0 ∉ addedLocations requests) : Run.Guarded Session.step Admits session requests := by
  have each : ∀ request ∈ requests, ∀ user, request = .add user → user.location ≠ 0 := by
    rintro _ member user rfl zero
    exact added (List.mem_filterMap.mpr ⟨_, member, congrArg some zero⟩)
  apply Run.guarded_law Session.step (fun _ request => ∀ user, request = .add user → user.location ≠ 0) Admits Cornerless
  · exact fun current request good fresh => cornerless_step current request good fresh
  · exact fun current request good _ => cornerless_admits current request good
  · exact cornerless
  · exact Run.guarded_all Session.step _ session requests each

def Quiet (request : Request) : Prop := ∀ returned registered, request.account returned registered = registered

structure Ledger (registered : List Entry) (session : Session) : Prop where
  ledger : session.registered = registered
  cornerless : Cornerless session

theorem ledger_quiet (registered : List Entry) (session : Session) (request : Request) (quiet : Quiet request)
    (added : ∀ user, request = .add user → user.location ≠ 0) (ledger : Ledger registered session) :
    Ledger registered (session.step request) := by
  refine ⟨?_, cornerless_step session request ledger.cornerless added⟩
  obtain ⟨driver, slots, here, shape⟩ := ledger.cornerless.kept
  obtain ⟨returned, after, rest, performed, _⟩ := perform_shape request driver session.registered slots shape
    (fun user same _ => nonzero_free_first driver session.registered slots shape ledger.cornerless.nonzero)
  rw [step_performed session request driver after returned here performed]
  exact (quiet returned _).trans ledger.ledger

theorem ledger_ticks (registered : List Entry) (session : Session) (ledger : Ledger registered session) :
    Ledger registered (Run.final Session.step session waitTicks) := by
  apply Run.guarded_invariant Session.step (fun _ request => request = .tick) (Ledger registered) _ session waitTicks ledger
  · apply Run.guarded_all Session.step (· = Request.tick)
    exact fun request member => List.eq_of_mem_replicate member
  · rintro current _ good rfl
    exact ledger_quiet registered current .tick (fun _ _ => rfl) (fun user same => by cases same) good

theorem remove_found (argument : BitVec 32) (driver : Driver) (registered : List Entry) (slots : List Slot)
    (shape : Shape driver registered slots) (entry : Entry) (member : entry ∈ registered)
    (here : entry.location = argument.setWidth 16) : ∃ after, mp1IoctlRemove argument driver = some (0, after) := by
  have helper := find_helper_linked argument driver registered slots shape
  rw [← shape.entries] at member
  obtain ⟨slot, onList, same⟩ := List.mem_map.mp member
  have location : (driver.blinkArray slot).location = argument.setWidth 16 := (congrArg Entry.location same).trans here
  cases search : slots.find? (fun slot => (driver.blinkArray slot).location = argument.setWidth 16) with
  | none => exact absurd (decide_eq_true location) (List.find?_eq_none.mp search slot onList)
  | some target =>
      rw [search] at helper
      cases remove_cases argument driver registered slots shape with
      | inr removed =>
          obtain ⟨before, found, behind, removed, _⟩ := removed
          exact ⟨_, removed⟩
      | inl refused =>
          rw [mp1IoctlRemove, helper] at refused
          obtain ⟨link, _, wrong⟩ := Option.map_eq_some_iff.mp refused
          cases wrong

theorem ledger_remove (registered : List Entry) (session : Session) (entry : Entry) (argument : BitVec 32)
    (here : entry.location = argument.setWidth 16) (ledger : Ledger (entry :: registered) session) :
    Ledger registered (session.step (.remove argument)) := by
  refine ⟨?_, cornerless_step session _ ledger.cornerless (fun user same => by cases same)⟩
  obtain ⟨driver, slots, there, shape⟩ := ledger.cornerless.kept
  obtain ⟨after, removed⟩ := remove_found argument driver session.registered slots shape entry
    (ledger.ledger ▸ List.mem_cons_self) here
  rw [step_performed session (.remove argument) driver after 0 there removed]
  change session.registered.eraseP _ = registered
  rw [ledger.ledger]
  exact List.eraseP_cons_of_pos (decide_eq_true here)

theorem ledger_add (period clock : Nat) (vmem : Nat → UInt8) (registered : List Entry) (session : Session) (user : Blink)
    (stage : Stage period clock vmem registered session) (distinct : (registered.map Entry.location).Nodup)
    (nonzero : 0 ∉ registered.map Entry.location) (inside : OnScreen user.location) (fresh : user.location ≠ 0) :
    Ledger (user.entry :: registered) (session.step (.add user)) := by
  obtain ⟨driver, slots, here, playing⟩ := stage.playing
  obtain ⟨slot, found, _⟩ := room_left driver registered slots playing.shape distinct nonzero stage.inside
  have performed : (Request.add user).perform driver = some (0, inserted user slot driver) :=
    congrArg some (add_inserted user slot driver inside found)
  have cornerless : Cornerless session := ⟨⟨driver, slots, here, stage.ledger ▸ playing.shape⟩, stage.ledger ▸ nonzero⟩
  refine ⟨?_, cornerless_step session _ cornerless (fun _ same => by cases same; exact fresh)⟩
  rw [step_performed session (.add user) driver _ 0 here performed]
  exact congrArg (user.entry :: ·) stage.ledger

theorem locations_append (first second : List Request) :
    addedLocations (first ++ second) = addedLocations first ++ addedLocations second := List.filterMap_append

theorem main_locations (mainStack : Blink) (blinks : List Blink) :
    addedLocations (mainRequests mainStack blinks) = blinks.map Blink.location ++ [6 * 80 + 60] := by
  have ticks : addedLocations waitTicks = [] :=
    List.filterMap_eq_nil_iff.mpr fun request member => by rw [List.eq_of_mem_replicate member]
  have adds : addedLocations (blinks.map Request.add) = blinks.map Blink.location := by
    rw [addedLocations, List.filterMap_map, ← List.filterMap_eq_map]
    rfl
  have own : addedLocations [.add (mainBlink mainStack)] = [6 * 80 + 60] := rfl
  have synced (argument : BitVec 32) : addedLocations [.sync argument] = [] := rfl
  have removed (argument : BitVec 32) : addedLocations [.remove argument] = [] := rfl
  simp only [mainRequests, locations_append, ticks, adds, own, synced, removed, List.append_nil]

end SimpleKernel.Fish
