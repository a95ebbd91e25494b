import SimpleKernel.Fish.Registered

set_option autoImplicit false

namespace SimpleKernel.Fish

def Blink.lit (blink : Blink) : Bool := blink.status.getLsbD 0

def Blink.character (blink : Blink) : UInt8 := if blink.lit then blink.onChar else blink.offChar

def Driver.Shows (driver : Driver) : Prop :=
  ∀ slot, Chain.Reaches driver.next driver.listHead slot →
    driver.vmem (driver.blinkArray slot).offset = (driver.blinkArray slot).character

def Shown (session : Session) : Prop := ∃ driver, session.driver = some driver ∧ driver.Shows

def Driver.At (driver : Driver) (location : BitVec 16) (slot : Slot) : Prop :=
  Chain.Reaches driver.next driver.listHead slot ∧ (driver.blinkArray slot).location = location

def SyncsOff (session : Session) : Request → Prop
  | .sync argument => ∀ driver source dest, session.driver = some driver →
      driver.At ((argument >>> 16).setWidth 16) source → driver.At ((argument &&& 0xFFFF).setWidth 16) dest →
      (driver.blinkArray source).lit = false ∨ (driver.blinkArray dest).onChar = (driver.blinkArray dest).offChar
  | _ => True

def addedLocations (requests : List Request) : List (BitVec 16) :=
  requests.filterMap fun request =>
    match request with
    | .add user => some user.location
    | _ => none

def ShowsOn (driver : Driver) (slots : List Slot) : Prop :=
  ∀ slot ∈ slots, driver.vmem (driver.blinkArray slot).offset = (driver.blinkArray slot).character

def Apart (driver : Driver) (slots : List Slot) : Prop :=
  ∀ slot ∈ slots, ∀ other ∈ slots, (driver.blinkArray slot).location = (driver.blinkArray other).location → slot = other

theorem shows_on (driver : Driver) (registered : List Entry) (slots : List Slot) (shape : Shape driver registered slots) :
    driver.Shows ↔ ShowsOn driver slots :=
  forall_congr' fun slot =>
    imp_congr (Chain.linked_reaches driver.next driver.listHead slots shape.linked slot) Iff.rfl

theorem offset_injective (first second : Blink) (same : first.offset = second.offset) : first.location = second.location := by
  rw [Blink.offset, Blink.offset] at same
  exact BitVec.eq_of_toNat_eq (by omega)

theorem same_list_apart (driver after : Driver) (slots : List Slot) (same : SameList driver after)
    (apart : Apart driver slots) : Apart after slots := by
  have location (slot : Slot) : (after.blinkArray slot).location = (driver.blinkArray slot).location :=
    congrArg Entry.location (congrFun same.entry slot)
  intro slot member other also
  rw [location, location]
  exact apart slot member other also

-- One node and the byte at its location are written: the other ones stay as
-- they were, so all is well if the byte is the one the node asks for.
theorem redrawn_shows (driver : Driver) (slots : List Slot) (slot : Slot) (blink : Blink) (byte : UInt8) (head : Option Slot)
    (apart : ∀ other ∈ slots, other ≠ slot → (driver.blinkArray other).location ≠ blink.location)
    (shows : ∀ other ∈ slots, other ≠ slot →
      driver.vmem (driver.blinkArray other).offset = (driver.blinkArray other).character)
    (member : slot ∈ slots) :
    ShowsOn ⟨Function.update driver.blinkArray slot blink, head, Function.update driver.vmem blink.offset byte⟩ slots ↔
      byte = blink.character := by
  constructor
  · intro after
    have here := after slot member
    simp only [Function.update_self] at here
    exact here
  · intro right other inside
    by_cases same : other = slot
    · subst same
      simp only [Function.update_self]
      exact right
    · have distinct : (driver.blinkArray other).offset ≠ blink.offset := by
        intro equal
        exact apart other inside same (offset_injective _ _ equal)
      simp only [Function.update_of_ne same, Function.update_of_ne distinct]
      exact shows other inside same

theorem test_off (blink : Blink) : Flags.equal (Flags.test blink.status 1) = !blink.lit := by
  have bit : blink.status &&& 1 = BitVec.setWidth 16 (BitVec.ofBool blink.lit) := BitVec.and_one_eq_setWidth_ofBool_getLsbD
  change (blink.status &&& 1 == 0) = _
  rw [bit]
  cases blink.lit with
  | false => rfl
  | true => rfl

theorem toggled_lit (blink : Blink) (length : BitVec 16) :
    Blink.lit { blink with countdown := length, status := blink.status ^^^ 1 } = !blink.lit := by
  change (blink.status ^^^ 1).getLsbD 0 = !blink.status.getLsbD 0
  rw [BitVec.getLsbD_xor]
  exact Bool.xor_true _

-- cmovl never moves: the sign of one bit is clear.
theorem sync_shows_off (status : BitVec 8) : Flags.less (Flags.test status 1) = false := by
  rw [Flags.test_less, BitVec.msb_and]
  exact Bool.and_false _

theorem blink_slot_cases (driver : Driver) (slot : Slot) :
    blinkSlot driver slot = driver.modify slot (fun blink => { blink with countdown := blink.countdown - 1 }) ∨
      ∃ length, let toggled : Blink := { driver.blinkArray slot with
          countdown := length, status := (driver.blinkArray slot).status ^^^ 1 }
        blinkSlot driver slot = ⟨Function.update driver.blinkArray slot toggled, driver.listHead,
          Function.update driver.vmem toggled.offset toggled.character⟩ := by
  rw [blinkSlot]
  dsimp only
  split
  · exact Or.inl rfl
  · refine Or.inr ⟨if !(driver.blinkArray slot).lit then (driver.blinkArray slot).onLength
      else (driver.blinkArray slot).offLength, ?_⟩
    rw [Blink.character, toggled_lit]
    simp only [Driver.modify, mp1Poke, Function.update_self, Function.update_idem, test_off]
    rfl

theorem blink_shows (driver : Driver) (slots : List Slot) (slot : Slot) (apart : Apart driver slots)
    (shows : ShowsOn driver slots) (member : slot ∈ slots) : ShowsOn (blinkSlot driver slot) slots := by
  cases blink_slot_cases driver slot with
  | inl counted =>
      rw [counted]
      intro other inside
      have before := shows other inside
      by_cases same : other = slot
      · subst same
        simp only [Driver.modify, Function.update_self]
        exact before
      · simp only [Driver.modify, Function.update_of_ne same]
        exact before
  | inr drawn =>
      obtain ⟨length, drawn⟩ := drawn
      rw [drawn]
      apply (redrawn_shows driver slots slot _ _ _ _ _ member).mpr rfl
      · intro other inside differs equal
        exact differs (apart other inside slot member equal)
      · intro other inside _
        exact shows other inside

theorem blinks_shows (ticked slots : List Slot) (driver : Driver) (apart : Apart driver slots) (shows : ShowsOn driver slots)
    (inside : ∀ slot ∈ ticked, slot ∈ slots) : ShowsOn (ticked.foldl blinkSlot driver) slots := by
  induction ticked generalizing driver with
  | nil => exact shows
  | cons slot rest ih =>
      apply ih (blinkSlot driver slot)
      · exact same_list_apart driver _ slots (blink_same_list driver slot) apart
      · exact blink_shows driver slots slot apart shows (inside slot List.mem_cons_self)
      · intro later member
        exact inside later (List.mem_cons_of_mem _ member)

theorem inserted_shows (user : Blink) (slot : Slot) (driver : Driver) (slots : List Slot)
    (unused : ∀ other ∈ slots, (driver.blinkArray other).location ≠ user.location) (shows : ShowsOn driver slots) :
    ShowsOn (inserted user slot driver) (slot :: slots) := by
  have older (other : Slot) (inside : other ∈ slot :: slots) (differs : other ≠ slot) : other ∈ slots :=
    (List.mem_cons.mp inside).resolve_left differs
  have redrawn := redrawn_shows driver (slot :: slots) slot
    { user with status := 1, countdown := user.onLength, next := driver.listHead } user.onChar (some slot)
  have lit : (1 : BitVec 16).getLsbD 0 = true := by decide
  apply (redrawn _ _ List.mem_cons_self).mpr (if_pos lit).symm
  · intro other inside differs
    exact unused other (older other inside differs)
  · intro other inside differs
    exact shows other (older other inside differs)

def synced (origin blink : Blink) : Blink :=
  { blink with
    onLength := origin.onLength
    offLength := origin.offLength
    countdown := origin.countdown
    status := origin.status }

theorem sync_drawn (source dest : Slot) (driver : Driver) :
    syncNodes source dest driver =
      ⟨Function.update driver.blinkArray dest (synced (driver.blinkArray source) (driver.blinkArray dest)), driver.listHead,
        Function.update driver.vmem (driver.blinkArray dest).offset (driver.blinkArray dest).offChar⟩ := by
  simp only [syncNodes, Driver.modify, mp1Poke, Function.update_self, sync_shows_off, Bool.false_eq_true, if_false]
  rfl

theorem sync_shows_iff (source dest : Slot) (driver : Driver) (slots : List Slot) (apart : Apart driver slots)
    (shows : ShowsOn driver slots) (member : dest ∈ slots) :
    ShowsOn (syncNodes source dest driver) slots ↔
      (driver.blinkArray source).lit = false ∨ (driver.blinkArray dest).onChar = (driver.blinkArray dest).offChar := by
  rw [sync_drawn]
  apply (redrawn_shows driver slots dest (synced (driver.blinkArray source) (driver.blinkArray dest))
    (driver.blinkArray dest).offChar driver.listHead (fun other inside differs equal =>
      differs (apart other inside dest member equal))
    (fun other inside _ => shows other inside) member).trans
  change _ = (if (driver.blinkArray source).lit then _ else _) ↔ _
  cases (driver.blinkArray source).lit with
  | false => exact iff_of_true rfl (Or.inl rfl)
  | true =>
      constructor
      · intro same
        exact Or.inr same.symm
      · intro either
        exact (either.resolve_left (by decide)).symm

theorem unlinked_vmem (before : List Slot) (target : Slot) (driver : Driver) :
    (unlinked before target driver).vmem = driver.vmem := by
  rw [unlinked]
  cases before.getLast? with
  | none => rfl
  | some previous => rfl

theorem unlinked_shows (before behind : List Slot) (target : Slot) (driver : Driver)
    (apart : target ∉ before ++ behind) (shows : ∀ slot ∈ before ++ behind,
      driver.vmem (driver.blinkArray slot).offset = (driver.blinkArray slot).character) :
    ShowsOn (unlinked before target driver) (before ++ behind) := by
  intro slot member
  have differs : slot ≠ target := fun same => apart (same ▸ member)
  have offset := congrFun (unlinked_kept Blink.offset (fun _ _ => rfl) before target driver) slot
  have character := congrFun (unlinked_kept Blink.character (fun _ _ => rfl) before target driver) slot
  rw [Function.update_of_ne differs] at offset character
  rw [unlinked_vmem]
  exact (congrArg driver.vmem offset).trans ((shows slot member).trans character.symm)

structure Ready (session : Session) (ahead : List Request) : Prop where
  shaped : ∃ driver slots, session.driver = some driver ∧ Shape driver session.registered slots ∧ ShowsOn driver slots
  distinct : (session.registered.map Entry.location ++ addedLocations ahead).Nodup
  nonzero : 0 ∉ session.registered.map Entry.location ++ addedLocations ahead

theorem shape_locations (driver : Driver) (registered : List Entry) (slots : List Slot)
    (shape : Shape driver registered slots) :
    registered.map Entry.location = slots.map fun slot => (driver.blinkArray slot).location := by
  rw [← shape.entries, List.map_map]
  rfl

theorem shape_apart (driver : Driver) (registered : List Entry) (slots : List Slot) (shape : Shape driver registered slots)
    (distinct : (registered.map Entry.location).Nodup) : Apart driver slots := by
  rw [shape_locations driver registered slots shape] at distinct
  intro slot member other also same
  exact List.inj_on_of_nodup_map distinct member also same

theorem nonzero_free_first (driver : Driver) (registered : List Entry) (slots : List Slot)
    (shape : Shape driver registered slots) (nonzero : 0 ∉ registered.map Entry.location) : driver.FreeFirst := by
  rw [shape_locations driver registered slots shape] at nonzero
  intro slot reached zero
  have member := (Chain.linked_reaches driver.next driver.listHead slots shape.linked slot).mp reached
  exact absurd (List.mem_map.mpr ⟨slot, member, zero⟩) nonzero

theorem added_shows (user : Blink) (driver : Driver) (registered : List Entry) (slots : List Slot)
    (shape : Shape driver registered slots) (shows : ShowsOn driver slots) (freeFirst : driver.FreeFirst)
    (unused : user.location ∉ registered.map Entry.location) :
    ∃ returned after rest, mp1IoctlAdd user driver = (returned, after) ∧
      Shape after ((Request.add user).account returned registered) rest ∧ ShowsOn after rest := by
  cases add_cases user driver with
  | inl refused => exact ⟨-1, driver, slots, refused, refused_shape _ driver registered slots shape, shows⟩
  | inr added =>
      obtain ⟨slot, _, found, added⟩ := added
      have fresh := (free_first_fresh driver registered slots shape).mp freeFirst slot found
      rw [shape_locations driver registered slots shape] at unused
      refine ⟨0, inserted user slot driver, slot :: slots, added,
        inserted_shape user slot driver registered slots shape fresh, ?_⟩
      apply inserted_shows user slot driver slots _ shows
      intro other member same
      exact unused (List.mem_map.mpr ⟨other, member, same⟩)

theorem removed_shows (argument : BitVec 32) (driver : Driver) (registered : List Entry) (slots : List Slot)
    (shape : Shape driver registered slots) (shows : ShowsOn driver slots) :
    ∃ returned after rest, mp1IoctlRemove argument driver = some (returned, after) ∧
      Shape after ((Request.remove argument).account returned registered) rest ∧ ShowsOn after rest := by
  cases remove_cases argument driver registered slots shape with
  | inl refused => exact ⟨-1, driver, slots, refused, refused_shape _ driver registered slots shape, shows⟩
  | inr removed =>
      obtain ⟨before, target, behind, removed, split, apart, here, earlier⟩ := removed
      subst split
      refine ⟨0, unlinked before target driver, before ++ behind, removed,
        unlinked_shape argument driver registered before behind target shape apart here earlier, ?_⟩
      apply unlinked_shows before behind target driver apart
      intro slot member
      apply shows slot
      rw [List.mem_append, List.mem_cons]
      exact (List.mem_append.mp member).imp_right Or.inr

theorem synced_shows_iff (argument : BitVec 32) (session : Session) (driver : Driver) (slots : List Slot)
    (here : session.driver = some driver) (shape : Shape driver session.registered slots) (shows : ShowsOn driver slots)
    (apart : Apart driver slots) :
    ∃ returned after, mp1IoctlSync argument driver = some (returned, after) ∧ Shape after session.registered slots ∧
      (ShowsOn after slots ↔ SyncsOff session (.sync argument)) := by
  have onList (slot : Slot) := Chain.linked_reaches driver.next driver.listHead slots shape.linked slot
  cases sync_cases argument driver session.registered slots shape with
  | inl refused =>
      obtain ⟨refused, missing⟩ := refused
      refine ⟨-1, driver, refused, shape, iff_of_true shows ?_⟩
      intro other first second there firstAt secondAt
      obtain rfl : driver = other := Option.some.inj (here.symm.trans there)
      cases missing with
      | inl none => exact absurd firstAt.2 (none first ((onList first).mp firstAt.1))
      | inr none => exact absurd secondAt.2 (none second ((onList second).mp secondAt.1))
  | inr synced =>
      obtain ⟨source, dest, synced, sourceOn, destOn, sourceAt, destAt⟩ := synced
      refine ⟨0, syncNodes source dest driver, synced,
        shape_same_list driver _ session.registered slots shape (sync_same_list source dest driver), ?_⟩
      rw [sync_shows_iff source dest driver slots apart shows destOn]
      constructor
      · intro off other first second there firstAt secondAt
        obtain rfl : driver = other := Option.some.inj (here.symm.trans there)
        obtain rfl := apart source sourceOn first ((onList first).mp firstAt.1) (sourceAt.trans firstAt.2.symm)
        obtain rfl := apart dest destOn second ((onList second).mp secondAt.1) (destAt.trans secondAt.2.symm)
        exact off
      · intro off
        exact off driver source dest here ⟨(onList source).mpr sourceOn, sourceAt⟩ ⟨(onList dest).mpr destOn, destAt⟩

theorem ready_performed (session : Session) (request : Request) (ahead : List Request)
    (ready : Ready session (request :: ahead)) :
    ∃ driver returned after rest, session.driver = some driver ∧ request.perform driver = some (returned, after) ∧
      Shape after (request.account returned session.registered) rest ∧ (ShowsOn after rest ↔ SyncsOff session request) := by
  obtain ⟨⟨driver, slots, here, shape, shows⟩, distinct, nonzero⟩ := ready
  have apart := shape_apart driver session.registered slots shape (List.nodup_append.mp distinct).1
  cases request with
  | add user =>
      have freeFirst := nonzero_free_first driver session.registered slots shape
        (fun member => nonzero (List.mem_append_left _ member))
      have unused : user.location ∉ session.registered.map Entry.location :=
        fun member => (List.nodup_append.mp distinct).2.2 _ member _ List.mem_cons_self rfl
      obtain ⟨returned, after, rest, added, later, shown⟩ := added_shows user driver session.registered slots shape shows
        freeFirst unused
      exact ⟨driver, returned, after, rest, here, congrArg some added, later, iff_of_true shown trivial⟩
  | remove argument =>
      obtain ⟨returned, after, rest, removed, later, shown⟩ := removed_shows argument driver session.registered slots
        shape shows
      exact ⟨driver, returned, after, rest, here, removed, later, iff_of_true shown trivial⟩
  | find user =>
      obtain ⟨returned, found⟩ := find_unchanged user driver session.registered slots shape
      exact ⟨driver, returned, driver, slots, here, found, shape, iff_of_true shows trivial⟩
  | sync argument =>
      obtain ⟨returned, after, synced, later, iff⟩ := synced_shows_iff argument session driver slots here shape shows apart
      exact ⟨driver, returned, after, slots, here, synced, later, iff⟩
  | tick =>
      refine ⟨driver, 0, slots.foldl blinkSlot driver, slots, here, ?_, ?_, iff_of_true ?_ trivial⟩
      · rw [Request.perform, tasklet_linked driver session.registered slots shape]
        rfl
      · exact shape_same_list driver _ session.registered slots shape (blinks_same_list slots driver)
      · exact blinks_shows slots slots driver apart shows (fun _ member => member)

theorem account_ahead (request : Request) (returned : Int) (registered : List Entry) (ahead : List Request) :
    ∃ whole, whole.Perm (registered.map Entry.location ++ addedLocations (request :: ahead)) ∧
      ((request.account returned registered).map Entry.location ++ addedLocations ahead).Sublist whole := by
  cases request with
  | add user =>
      by_cases accepted : returned = 0
      · refine ⟨user.location :: (registered.map Entry.location ++ addedLocations ahead), List.perm_middle.symm, ?_⟩
        rw [Request.account, if_pos accepted]
        exact List.Sublist.refl _
      · refine ⟨_, List.Perm.refl _, ?_⟩
        rw [Request.account, if_neg accepted]
        exact List.Sublist.append_left (List.sublist_cons_self user.location (addedLocations ahead)) _
  | remove argument =>
      refine ⟨_, List.Perm.refl _, List.Sublist.append_right (List.Sublist.map _ ?_) _⟩
      rw [Request.account]
      split
      · exact List.eraseP_sublist
      · exact List.Sublist.refl _
  | _ => exact ⟨_, List.Perm.refl _, List.Sublist.refl _⟩

theorem ready_step (session : Session) (request : Request) (ahead : List Request) (ready : Ready session (request :: ahead)) :
    (Shown (session.step request) ↔ SyncsOff session request) ∧
      (Shown (session.step request) → Ready (session.step request) ahead) := by
  obtain ⟨driver, returned, after, rest, here, performed, later, iff⟩ := ready_performed session request ahead ready
  obtain ⟨whole, same, part⟩ := account_ahead request returned session.registered ahead
  rw [step_performed session request driver after returned here performed]
  have shown : Shown ⟨some after, request.account returned session.registered⟩ ↔ ShowsOn after rest := by
    rw [← shows_on after _ rest later]
    constructor
    · rintro ⟨other, there, shows⟩
      cases there
      exact shows
    · intro shows
      exact ⟨after, rfl, shows⟩
  refine ⟨shown.trans iff, fun now => ⟨⟨after, rest, rfl, later, shown.mp now⟩, ?_, ?_⟩⟩
  · exact part.nodup (same.nodup_iff.mpr ready.distinct)
  · intro member
    exact ready.nonzero (same.mem_iff.mp (part.subset member))

theorem display_exact (vmem : Nat → UInt8) (requests : List Request) (distinct : (addedLocations requests).Nodup)
    (nonzero : 0 ∉ addedLocations requests) :
    (∀ before after, requests = before ++ after → Shown (Run.final Session.step (start vmem) before)) ↔
      Run.Guarded Session.step SyncsOff (start vmem) requests := by
  have shape : Shape ⟨fun _ => zeroed, none, vmem⟩ [] [] := ⟨rfl, rfl, fun _ _ => rfl⟩
  have shows : ShowsOn ⟨fun _ => zeroed, none, vmem⟩ [] := fun slot member => absurd member List.not_mem_nil
  have initial : Ready (start vmem) requests := ⟨⟨_, [], rfl, shape, shows⟩, distinct, nonzero⟩
  rw [Run.reached_iff_guarded Session.step Shown _ _ ⟨_, rfl, (shows_on _ [] [] shape).mpr shows⟩]
  apply Run.guarded_congr_ahead Session.step _ SyncsOff Ready _ _ _ _ initial
  · intro session request ahead ready
    exact (ready_step session request ahead ready).2
  · intro session request ahead ready
    exact (ready_step session request ahead ready).1

def quick : Blink := ⟨1, 67, 68, 1, 15, 0, 0, none⟩
def besideQuick : Blink := blinkAt 2 69 70

def blinked : Session := (((start fun _ => 0).step (.add quick)).step (.add besideQuick)).step .tick

theorem blinked_list (driver : Driver) (here : blinked.driver = some driver) :
    driver.listHead = some 1 ∧ driver.next 1 = some 0 ∧ driver.next 0 = none := by
  have head : blinked.driver.map (·.listHead) = some (some 1) := by decide +kernel
  have first : blinked.driver.map (·.next 1) = some (some 0) := by decide +kernel
  have second : blinked.driver.map (·.next 0) = some none := by decide +kernel
  rw [here] at head first second
  exact ⟨Option.some.inj head, Option.some.inj first, Option.some.inj second⟩

theorem blinked_syncs_off : SyncsOff blinked (.sync 0x00010002) := by
  intro driver source dest here atSource _
  have location : blinked.driver.map (fun driver => (driver.blinkArray 1).location) = some 2 := by decide +kernel
  have off : blinked.driver.map (fun driver => (driver.blinkArray 0).lit) = some false := by decide +kernel
  rw [here] at location off
  have linked : Chain.Linked driver.next driver.listHead [1, 0] := blinked_list driver here
  have listed := (Chain.linked_reaches driver.next driver.listHead [1, 0] linked source).mp atSource.1
  simp only [List.mem_cons, List.not_mem_nil, or_false] at listed
  cases listed with
  | inl same =>
      have other : (driver.blinkArray 1).location = 1 := same ▸ atSource.2
      exact absurd ((Option.some.inj location).symm.trans other) (by decide)
  | inr same =>
      rw [same]
      exact Or.inl (Option.some.inj off)

theorem display_exact_blinking :
    Shown (Run.final Session.step (start fun _ => 0) [.add quick, .add besideQuick, .tick, .sync 0x00010002]) :=
  (display_exact (fun _ => 0) [.add quick, .add besideQuick, .tick, .sync 0x00010002] (by decide) (by decide)).mpr
    ⟨trivial, trivial, trivial, blinked_syncs_off, trivial⟩ _ [] (List.append_nil _).symm

theorem sync_with_itself (driver : Driver) (registered : List Entry) (slot : Slot) (argument : BitVec 32)
    (shape : Shape driver registered [slot]) (first : (driver.blinkArray slot).location = (argument >>> 16).setWidth 16)
    (second : (driver.blinkArray slot).location = (argument &&& 0xFFFF).setWidth 16) :
    mp1IoctlSync argument driver = some (0, syncNodes slot slot driver) := by
  cases sync_cases argument driver registered [slot] shape with
  | inl refused =>
      cases refused.2 with
      | inl none => exact absurd first (none slot List.mem_cons_self)
      | inr none => exact absurd second (none slot List.mem_cons_self)
  | inr synced =>
      obtain ⟨source, dest, synced, sourceOn, destOn, _⟩ := synced
      rw [synced, List.mem_singleton.mp sourceOn, List.mem_singleton.mp destOn]

theorem sync_draws_off :
    let after := Run.final Session.step (start fun _ => 0) [.add besideCorner, .sync 0x00010001]
    ∃ driver, after.driver = some driver ∧ driver.listHead = some 0 ∧ (driver.blinkArray 0).lit = true ∧
      driver.vmem (driver.blinkArray 0).offset = besideCorner.offChar ∧ ¬ Shown after := by
  let added := inserted besideCorner 0 empty
  have shape : Shape added [besideCorner.entry] [0] :=
    inserted_shape besideCorner 0 empty [] [] ⟨rfl, rfl, fun _ _ => rfl⟩ List.not_mem_nil
  have first : (Request.add besideCorner).perform empty = some (0, added) :=
    congrArg some (add_inserted besideCorner 0 empty (by decide) (malloc_zero empty rfl))
  have second : (Request.sync 0x00010001).perform added = some (0, syncNodes 0 0 added) :=
    sync_with_itself added [besideCorner.entry] 0 0x00010001 shape rfl rfl
  have one := step_performed (start fun _ => 0) _ empty _ 0 rfl first
  have two := step_performed ((start fun _ => 0).step (.add besideCorner)) _ _ _ 0 (by rw [one]) second
  have reached : Run.final Session.step (start fun _ => 0) [.add besideCorner, .sync 0x00010001] =
      ⟨some (syncNodes 0 0 added), [besideCorner.entry]⟩ := by
    rw [Run.final_cons, Run.final_cons, Run.final_nil, two, one]
    simp only [Request.account, if_true, start]
  have later := shape_same_list added _ _ _ shape (sync_same_list 0 0 added)
  have shows : ShowsOn added [0] := inserted_shows besideCorner 0 empty [] (fun _ member => absurd member List.not_mem_nil)
    (fun _ member => absurd member List.not_mem_nil)
  have apart : Apart added [0] := shape_apart added _ [0] shape (by decide)
  rw [reached]
  refine ⟨_, rfl, rfl, ?_, ?_, ?_⟩
  · rw [sync_drawn]
    decide
  · rw [sync_drawn]
    rfl
  · rintro ⟨driver, same, all⟩
    cases same
    rw [shows_on _ _ [0] later, sync_shows_iff 0 0 added [0] apart shows List.mem_cons_self] at all
    exact absurd all (by decide)

end SimpleKernel.Fish
