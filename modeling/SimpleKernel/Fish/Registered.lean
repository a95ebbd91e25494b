import SimpleKernel.Fish.Blink
import SimpleKernel.Library.Run

set_option autoImplicit false

namespace SimpleKernel.Fish

structure Driver.Lists (driver : Driver) (registered : List Entry) : Prop where
  list : ∃ slots : List Slot, Chain.Linked driver.next driver.listHead slots ∧ slots.Nodup ∧
    slots.map driver.entry = registered
  ends : ∀ request : Request, (request.perform driver).isSome = true

def Tidy (session : Session) : Prop := ∃ driver, session.driver = some driver ∧ driver.Lists session.registered

-- Every structure on the list whose location is 0, which mp1_malloc takes for
-- a free slot, has a slot before it that is not on the list.
def Driver.FreeFirst (driver : Driver) : Prop :=
  ∀ slot, Chain.Reaches driver.next driver.listHead slot → (driver.blinkArray slot).location = 0 →
    ∃ earlier, earlier < slot ∧ ¬ Chain.Reaches driver.next driver.listHead earlier

def Admits (session : Session) : Request → Prop
  | .add user => user.location.toNat < 80 * 25 → ∀ driver, session.driver = some driver → driver.FreeFirst
  | _ => True

structure Shape (driver : Driver) (registered : List Entry) (slots : List Slot) : Prop where
  linked : Chain.Linked driver.next driver.listHead slots
  entries : slots.map driver.entry = registered
  unused : ∀ slot, slot ∉ slots → (driver.blinkArray slot).location = 0

structure SameList (driver after : Driver) : Prop where
  next : after.next = driver.next
  entry : after.entry = driver.entry
  head : after.listHead = driver.listHead

theorem same_list_trans (driver middle after : Driver) (first : SameList driver middle) (second : SameList middle after) :
    SameList driver after :=
  ⟨second.next.trans first.next, second.entry.trans first.entry, second.head.trans first.head⟩

theorem modify_next (driver : Driver) (slot : Slot) (change : Blink → Blink) :
    (driver.modify slot change).next = Function.update driver.next slot (change (driver.blinkArray slot)).next :=
  Function.comp_update Blink.next driver.blinkArray slot _

theorem modify_entry (driver : Driver) (slot : Slot) (change : Blink → Blink) :
    (driver.modify slot change).entry = Function.update driver.entry slot (change (driver.blinkArray slot)).entry :=
  Function.comp_update Blink.entry driver.blinkArray slot _

theorem modify_same_list (driver : Driver) (slot : Slot) (change : Blink → Blink)
    (next : ∀ blink, (change blink).next = blink.next) (entry : ∀ blink, (change blink).entry = blink.entry) :
    SameList driver (driver.modify slot change) := by
  refine ⟨?_, ?_, rfl⟩
  · rw [modify_next, next]
    exact Function.update_eq_self slot driver.next
  · rw [modify_entry, entry]
    exact Function.update_eq_self slot driver.entry

theorem poke_same_list (driver : Driver) (offset : Nat) (byte : UInt8) : SameList driver (mp1Poke offset byte driver) :=
  ⟨rfl, rfl, rfl⟩

theorem blink_same_list (driver : Driver) (slot : Slot) : SameList driver (blinkSlot driver slot) := by
  have counted : SameList driver (driver.modify slot fun blink => { blink with countdown := blink.countdown - 1 }) :=
    modify_same_list driver slot _ (fun _ => rfl) (fun _ => rfl)
  rw [blinkSlot]
  dsimp only
  split
  · exact counted
  · apply same_list_trans _ _ _ (same_list_trans _ _ _ counted (poke_same_list _ _ _))
    exact modify_same_list _ slot _ (fun _ => rfl) (fun _ => rfl)

theorem blinks_same_list (slots : List Slot) (driver : Driver) : SameList driver (slots.foldl blinkSlot driver) := by
  induction slots generalizing driver with
  | nil => exact ⟨rfl, rfl, rfl⟩
  | cons slot rest ih => exact same_list_trans _ _ _ (blink_same_list driver slot) (ih (blinkSlot driver slot))

theorem sync_same_list (source dest : Slot) (driver : Driver) : SameList driver (syncNodes source dest driver) := by
  apply same_list_trans _ _ _ _ (poke_same_list _ _ _)
  exact modify_same_list driver dest _ (fun _ => rfl) (fun _ => rfl)

theorem shape_same_list (driver after : Driver) (registered : List Entry) (slots : List Slot)
    (shape : Shape driver registered slots) (same : SameList driver after) : Shape after registered slots := by
  constructor
  · rw [same.next, same.head]
    exact shape.linked
  · rw [same.entry]
    exact shape.entries
  · intro slot outside
    have location := congrArg Entry.location (congrFun same.entry slot)
    exact location.trans (shape.unused slot outside)

theorem shape_length (driver : Driver) (registered : List Entry) (slots : List Slot)
    (shape : Shape driver registered slots) : slots.length ≤ 80 * 25 := by
  have bound := Chain.linked_length driver.next driver.listHead slots shape.linked
  rwa [Fintype.card_fin] at bound

theorem find_loop_linked (driver : Driver) (location : BitVec 16) (slots : List Slot) (start : Option Slot) (fuel : Nat)
    (linked : Chain.Linked driver.next start slots) (enough : slots.length ≤ fuel) :
    findLoop driver location fuel start =
      some (slots.find? fun slot => (driver.blinkArray slot).location = location) := by
  induction slots generalizing start fuel with
  | nil =>
      have ended : start = none := linked
      rw [ended, findLoop]
      rfl
  | cons slot rest ih =>
      cases fuel with
      | zero => cases enough
      | succ fuel =>
          rw [linked.1, findLoop, List.find?_cons]
          by_cases here : (driver.blinkArray slot).location = location
          · rw [if_pos ((Flags.compare_equal _ _).mpr here), decide_eq_true here]
          · rw [if_neg (fun same => here ((Flags.compare_equal _ _).mp same)), decide_eq_false here]
            exact ih (driver.next slot) fuel linked.2 (Nat.le_of_succ_le_succ enough)

theorem find_helper_linked (argument : BitVec 32) (driver : Driver) (registered : List Entry) (slots : List Slot)
    (shape : Shape driver registered slots) :
    mp1FindHelper argument driver =
      some (slots.find? fun slot => (driver.blinkArray slot).location = argument.setWidth 16) :=
  find_loop_linked driver _ slots driver.listHead _ shape.linked (shape_length driver registered slots shape)

theorem tasklet_loop_linked (slots : List Slot) (driver : Driver) (start : Option Slot) (fuel : Nat)
    (linked : Chain.Linked driver.next start slots) (enough : slots.length ≤ fuel) :
    taskletLoop fuel start driver = some (slots.foldl blinkSlot driver) := by
  induction slots generalizing driver start fuel with
  | nil =>
      have ended : start = none := linked
      rw [ended, taskletLoop]
      rfl
  | cons slot rest ih =>
      cases fuel with
      | zero => cases enough
      | succ fuel =>
          have same := (blink_same_list driver slot).next
          rw [linked.1, taskletLoop, List.foldl_cons]
          apply ih (blinkSlot driver slot) _ fuel _ (Nat.le_of_succ_le_succ enough)
          rw [same]
          exact linked.2

theorem tasklet_linked (driver : Driver) (registered : List Entry) (slots : List Slot)
    (shape : Shape driver registered slots) :
    mp1RtcTasklet driver = some (slots.foldl blinkSlot driver) :=
  tasklet_loop_linked slots driver driver.listHead _ shape.linked (shape_length driver registered slots shape)

theorem tasklet_ends_linked (fuel : Nat) (start : Option Slot) (driver after : Driver)
    (ended : taskletLoop fuel start driver = some after) : ∃ slots, Chain.Linked driver.next start slots := by
  induction fuel generalizing start driver with
  | zero =>
      cases start with
      | none => exact ⟨[], rfl⟩
      | some slot => cases ended
  | succ fuel ih =>
      cases start with
      | none => exact ⟨[], rfl⟩
      | some slot =>
          rw [taskletLoop] at ended
          obtain ⟨rest, linked⟩ := ih _ _ ended
          rw [(blink_same_list driver slot).next] at linked
          exact ⟨slot :: rest, rfl, linked⟩

theorem find_prev_segment (driver : Driver) (target : Slot) (before : List Slot) (link : Option Slot) (fuel : Nat)
    (segment : Chain.Segment driver.next (driver.link link) before (some target)) (apart : target ∉ before)
    (enough : before.length < fuel) : removeFindPrev driver target fuel link = some (before.getLast?.or link) := by
  induction before generalizing link fuel with
  | nil =>
      cases fuel with
      | zero => cases enough
      | succ fuel =>
          have here : driver.link link = some target := segment
          rw [removeFindPrev, here]
          exact if_pos rfl
  | cons slot rest ih =>
      cases fuel with
      | zero => cases enough
      | succ fuel =>
          have other : slot ≠ target := fun same => apart (same ▸ List.mem_cons_self)
          have later := ih (some slot) fuel segment.2 (fun member => apart (List.mem_cons_of_mem _ member))
            (Nat.lt_of_succ_lt_succ enough)
          rw [removeFindPrev, segment.1]
          refine (if_neg other).trans (later.trans ?_)
          rw [List.getLast?_cons]
          cases rest.getLast? with
          | none => rfl
          | some last => rfl

theorem malloc_first (driver : Driver) (slot : Slot) (found : mp1Malloc driver = some slot) :
    (driver.blinkArray slot).location = 0 ∧ ∀ earlier, earlier < slot → (driver.blinkArray earlier).location ≠ 0 := by
  obtain ⟨zero, before, after, split, busy⟩ := List.find?_eq_some_iff_append.mp found
  refine ⟨of_decide_eq_true zero, fun earlier less free => ?_⟩
  have ordered := List.pairwise_lt_finRange (80 * 25)
  have member := List.mem_finRange earlier
  rw [split] at ordered member
  cases List.mem_append.mp member with
  | inl inside =>
      have taken := busy earlier inside
      rw [free] at taken
      cases taken
  | inr behind =>
      cases List.mem_cons.mp behind with
      | inl same => exact absurd less (same ▸ Fin.lt_irrefl earlier)
      | inr later =>
          have greater := (List.pairwise_cons.mp (List.pairwise_append.mp ordered).2.1).1 earlier later
          exact absurd less (Fin.lt_asymm greater)

theorem malloc_some (driver : Driver) (slot : Slot) (free : (driver.blinkArray slot).location = 0) :
    ∃ found, mp1Malloc driver = some found := by
  cases none : mp1Malloc driver with
  | some found => exact ⟨found, rfl⟩
  | none =>
      have taken := List.find?_eq_none.mp none slot (List.mem_finRange slot)
      exact absurd (decide_eq_true free) taken

theorem free_first_fresh (driver : Driver) (registered : List Entry) (slots : List Slot)
    (shape : Shape driver registered slots) :
    driver.FreeFirst ↔ ∀ slot, mp1Malloc driver = some slot → slot ∉ slots := by
  have onList (slot : Slot) := Chain.linked_reaches driver.next driver.listHead slots shape.linked slot
  constructor
  · intro freeFirst slot found member
    obtain ⟨zero, busy⟩ := malloc_first driver slot found
    obtain ⟨earlier, less, outside⟩ := freeFirst slot ((onList slot).mpr member) zero
    exact busy earlier less (shape.unused earlier fun inside => outside ((onList earlier).mpr inside))
  · intro fresh slot reached zero
    obtain ⟨found, first⟩ := malloc_some driver slot zero
    have outside := fresh found first
    have inside := (onList slot).mp reached
    refine ⟨found, ?_, fun again => outside ((onList found).mp again)⟩
    cases lt_trichotomy found slot with
    | inl less => exact less
    | inr rest =>
        cases rest with
        | inl same => exact absurd (same ▸ inside) outside
        | inr greater => exact absurd zero ((malloc_first driver found first).2 slot greater)

def inserted (user : Blink) (slot : Slot) (driver : Driver) : Driver :=
  mp1Poke user.offset user.onChar
    ⟨Function.update driver.blinkArray slot
      { user with status := 1, countdown := user.onLength, next := driver.listHead }, some slot, driver.vmem⟩

theorem add_out_of_range (user : Blink) (driver : Driver) (outside : ¬ user.location.toNat < 80 * 25) :
    mp1IoctlAdd user driver = (-1, driver) := by
  have above : Flags.below (Flags.compare user.location 2000) = false := by
    rw [← Bool.not_eq_true, Flags.compare_below]
    exact outside
  rw [mp1IoctlAdd, above]
  rfl

theorem add_full (user : Blink) (driver : Driver) (full : mp1Malloc driver = none) :
    mp1IoctlAdd user driver = (-1, driver) := by
  rw [mp1IoctlAdd, full]
  dsimp only
  split <;> rfl

theorem add_inserted (user : Blink) (slot : Slot) (driver : Driver) (inside : user.location.toNat < 80 * 25)
    (found : mp1Malloc driver = some slot) : mp1IoctlAdd user driver = (0, inserted user slot driver) := by
  have below : Flags.below (Flags.compare user.location 2000) = true := (Flags.compare_below _ _).mpr inside
  rw [mp1IoctlAdd, below, found]
  simp only [Driver.modify, Function.update_self, Function.update_idem]
  rfl

theorem add_cases (user : Blink) (driver : Driver) :
    mp1IoctlAdd user driver = (-1, driver) ∨
      ∃ slot, user.location.toNat < 80 * 25 ∧ mp1Malloc driver = some slot ∧
        mp1IoctlAdd user driver = (0, inserted user slot driver) := by
  by_cases inside : user.location.toNat < 80 * 25
  · cases found : mp1Malloc driver with
    | none => exact Or.inl (add_full user driver found)
    | some slot => exact Or.inr ⟨slot, inside, rfl, add_inserted user slot driver inside found⟩
  · exact Or.inl (add_out_of_range user driver inside)

theorem inserted_next (user : Blink) (slot : Slot) (driver : Driver) :
    (inserted user slot driver).next = Function.update driver.next slot driver.listHead :=
  Function.comp_update Blink.next driver.blinkArray slot _

theorem inserted_entry (user : Blink) (slot : Slot) (driver : Driver) :
    (inserted user slot driver).entry = Function.update driver.entry slot user.entry :=
  Function.comp_update Blink.entry driver.blinkArray slot _

theorem map_update (entry : Slot → Entry) (slot : Slot) (value : Entry) (slots : List Slot) (apart : slot ∉ slots) :
    slots.map (Function.update entry slot value) = slots.map entry := by
  apply List.map_congr_left
  intro other member
  apply Function.update_of_ne
  rintro rfl
  exact apart member

theorem inserted_shape (user : Blink) (slot : Slot) (driver : Driver) (registered : List Entry) (slots : List Slot)
    (shape : Shape driver registered slots) (fresh : slot ∉ slots) :
    Shape (inserted user slot driver) (user.entry :: registered) (slot :: slots) := by
  constructor
  · rw [inserted_next]
    exact Chain.linked_push driver.next driver.listHead slots slot fresh shape.linked
  · rw [inserted_entry, List.map_cons, Function.update_self, map_update _ _ _ slots fresh, shape.entries]
  · intro other outside
    have apart : other ≠ slot := fun same => outside (same ▸ List.mem_cons_self)
    have same := Function.update_of_ne apart
      { user with status := 1, countdown := user.onLength, next := driver.listHead } driver.blinkArray
    exact (congrArg Blink.location same).trans (shape.unused other fun member => outside (List.mem_cons_of_mem _ member))

theorem inserted_endless (user : Blink) (slot : Slot) (driver : Driver) (registered : List Entry) (slots : List Slot)
    (shape : Shape driver registered slots) (member : slot ∈ slots) (others : List Slot) :
    ¬ Chain.Linked (inserted user slot driver).next (inserted user slot driver).listHead others := by
  rw [inserted_next]
  exact Chain.push_again_endless driver.next driver.listHead slots slot member shape.linked others

def unlinked (before : List Slot) (target : Slot) (driver : Driver) : Driver :=
  mp1Free target (driver.setLink (driver.next target) before.getLast?)

theorem set_link_kept {View : Type} (view : Blink → View)
    (keeps : ∀ blink value, view { blink with next := value } = view blink) (driver : Driver) (value link : Option Slot) :
    view ∘ (driver.setLink value link).blinkArray = view ∘ driver.blinkArray := by
  cases link with
  | none => rfl
  | some slot =>
      have updated := Function.comp_update view driver.blinkArray slot { driver.blinkArray slot with next := value }
      rw [keeps] at updated
      exact updated.trans (Function.update_eq_self slot (view ∘ driver.blinkArray))

theorem unlinked_kept {View : Type} (view : Blink → View)
    (keeps : ∀ blink value, view { blink with next := value } = view blink) (before : List Slot) (target : Slot)
    (driver : Driver) :
    view ∘ (unlinked before target driver).blinkArray = Function.update (view ∘ driver.blinkArray) target (view zeroed) := by
  rw [← set_link_kept view keeps driver (driver.next target) before.getLast?]
  exact Function.comp_update view _ target zeroed

theorem unlinked_entry (before : List Slot) (target : Slot) (driver : Driver) :
    (unlinked before target driver).entry = Function.update driver.entry target zeroed.entry :=
  unlinked_kept Blink.entry (fun _ _ => rfl) before target driver

theorem unlinked_linked (driver : Driver) (before behind : List Slot) (target : Slot)
    (linked : Chain.Linked driver.next driver.listHead (before ++ target :: behind))
    (apart : target ∉ before ++ behind) :
    Chain.Linked (unlinked before target driver).next (unlinked before target driver).listHead (before ++ behind) := by
  rw [unlinked, mp1Free, modify_next]
  cases List.eq_nil_or_concat before with
  | inl first =>
      subst first
      exact Chain.segment_update driver.next (driver.next target) none _ behind target apart linked.2
  | inr later =>
      obtain ⟨front, previous, same⟩ := later
      subst same
      rw [List.concat_append] at linked apart ⊢
      have cut := Chain.linked_unlink driver.next driver.listHead front behind previous target linked
      apply Chain.segment_update _ _ none _ _ target apart
      rw [List.concat_eq_append, List.getLast?_concat]
      change Chain.Linked (driver.modify previous fun blink => { blink with next := driver.next target }).next _ _
      rw [modify_next]
      exact cut

theorem account_refused (request : Request) (registered : List Entry) : request.account (-1) registered = registered := by
  have refused : (-1 : Int) ≠ 0 := by decide
  cases request with
  | add user => rw [Request.account, if_neg refused]
  | remove argument => rw [Request.account, if_neg refused]
  | find user => rfl
  | sync argument => rfl
  | tick => rfl

theorem remove_cases (argument : BitVec 32) (driver : Driver) (registered : List Entry) (slots : List Slot)
    (shape : Shape driver registered slots) :
    mp1IoctlRemove argument driver = some (-1, driver) ∨
      ∃ before target behind, mp1IoctlRemove argument driver = some (0, unlinked before target driver) ∧
        slots = before ++ target :: behind ∧ target ∉ before ++ behind ∧
        (driver.blinkArray target).location = argument.setWidth 16 ∧
        ∀ slot ∈ before, (driver.blinkArray slot).location ≠ argument.setWidth 16 := by
  have helper := find_helper_linked argument driver registered slots shape
  cases search : slots.find? (fun slot => (driver.blinkArray slot).location = argument.setWidth 16) with
  | none =>
      rw [search] at helper
      apply Or.inl
      rw [mp1IoctlRemove, helper]
      rfl
  | some target =>
      rw [search] at helper
      obtain ⟨here, before, behind, split, earlier⟩ := List.find?_eq_some_iff_append.mp search
      have distinct := Chain.linked_nodup driver.next driver.listHead slots shape.linked
      have linked := shape.linked
      rw [split] at distinct linked
      obtain ⟨outsideRest, _⟩ := List.nodup_cons.mp (List.nodup_middle.mp distinct)
      obtain ⟨middle, first, second⟩ := (Chain.segment_append _ _ _ before (target :: behind)).mp linked
      have length := shape_length driver registered slots shape
      rw [split, List.length_append, List.length_cons] at length
      have link := find_prev_segment driver target before none (80 * 25) (second.1 ▸ first)
        (fun member => outsideRest (List.mem_append_left _ member)) (by omega)
      rw [Option.or_none] at link
      refine Or.inr ⟨before, target, behind, ?_, split, outsideRest, of_decide_eq_true here, fun slot member => ?_⟩
      · rw [mp1IoctlRemove, helper]
        change (removeFindPrev driver target (80 * 25) none).map _ = _
        rw [link]
        rfl
      · have differs := earlier slot member
        rwa [Bool.not_eq_true', decide_eq_false_iff_not] at differs

theorem refused_shape (request : Request) (driver : Driver) (registered : List Entry) (slots : List Slot)
    (shape : Shape driver registered slots) : Shape driver (request.account (-1) registered) slots := by
  rw [account_refused]
  exact shape

theorem unlinked_shape (argument : BitVec 32) (driver : Driver) (registered : List Entry) (before behind : List Slot)
    (target : Slot) (shape : Shape driver registered (before ++ target :: behind)) (apart : target ∉ before ++ behind)
    (here : (driver.blinkArray target).location = argument.setWidth 16)
    (earlier : ∀ slot ∈ before, (driver.blinkArray slot).location ≠ argument.setWidth 16) :
    Shape (unlinked before target driver) (registered.eraseP fun entry => entry.location = argument.setWidth 16)
      (before ++ behind) := by
  constructor
  · exact unlinked_linked driver before behind target shape.linked apart
  · rw [unlinked_entry, map_update _ _ _ _ apart, ← shape.entries, List.map_append, List.map_append, List.map_cons,
      List.eraseP_append_right, List.eraseP_cons_of_pos]
    · exact decide_eq_true here
    · intro entry member
      obtain ⟨slot, inside, same⟩ := List.mem_map.mp member
      rw [← same, decide_eq_true_iff]
      exact earlier slot inside
  · intro slot outside
    have entries := congrFun (unlinked_entry before target driver) slot
    by_cases same : slot = target
    · rw [same, Function.update_self] at entries
      rw [same]
      exact congrArg Entry.location entries
    · rw [Function.update_of_ne same] at entries
      have location := shape.unused slot (by
        rw [List.mem_append, List.mem_cons]
        rw [List.mem_append] at outside
        rintro (member | here | member)
        · exact outside (Or.inl member)
        · exact same here
        · exact outside (Or.inr member))
      exact (congrArg Entry.location entries).trans location

theorem remove_shape (argument : BitVec 32) (driver : Driver) (registered : List Entry) (slots : List Slot)
    (shape : Shape driver registered slots) :
    ∃ returned after rest, mp1IoctlRemove argument driver = some (returned, after) ∧
      Shape after ((Request.remove argument).account returned registered) rest := by
  cases remove_cases argument driver registered slots shape with
  | inl refused => exact ⟨-1, driver, slots, refused, refused_shape _ driver registered slots shape⟩
  | inr removed =>
      obtain ⟨before, target, behind, removed, split, apart, here, earlier⟩ := removed
      subst split
      exact ⟨0, unlinked before target driver, before ++ behind, removed,
        unlinked_shape argument driver registered before behind target shape apart here earlier⟩

theorem sync_cases (argument : BitVec 32) (driver : Driver) (registered : List Entry) (slots : List Slot)
    (shape : Shape driver registered slots) :
    (mp1IoctlSync argument driver = some (-1, driver) ∧
        ((∀ slot ∈ slots, (driver.blinkArray slot).location ≠ (argument >>> 16).setWidth 16) ∨
          ∀ slot ∈ slots, (driver.blinkArray slot).location ≠ (argument &&& 0xFFFF).setWidth 16)) ∨
      ∃ source dest, mp1IoctlSync argument driver = some (0, syncNodes source dest driver) ∧ source ∈ slots ∧ dest ∈ slots ∧
        (driver.blinkArray source).location = (argument >>> 16).setWidth 16 ∧
        (driver.blinkArray dest).location = (argument &&& 0xFFFF).setWidth 16 := by
  have first := find_helper_linked (argument >>> 16) driver registered slots shape
  have second := find_helper_linked (argument &&& 0xFFFF) driver registered slots shape
  rw [mp1IoctlSync, first, second]
  cases origin : slots.find? (fun slot => (driver.blinkArray slot).location = (argument >>> 16).setWidth 16) with
  | none =>
      refine Or.inl ⟨rfl, Or.inl fun slot member same => ?_⟩
      exact List.find?_eq_none.mp origin slot member (decide_eq_true same)
  | some source =>
      cases target : slots.find? (fun slot => (driver.blinkArray slot).location = (argument &&& 0xFFFF).setWidth 16) with
      | none =>
          refine Or.inl ⟨rfl, Or.inr fun slot member same => ?_⟩
          exact List.find?_eq_none.mp target slot member (decide_eq_true same)
      | some dest =>
          have first := List.find?_some origin
          have second := List.find?_some target
          exact Or.inr ⟨source, dest, rfl, List.mem_of_find?_eq_some origin, List.mem_of_find?_eq_some target,
            of_decide_eq_true first, of_decide_eq_true second⟩

theorem sync_shape (argument : BitVec 32) (driver : Driver) (registered : List Entry) (slots : List Slot)
    (shape : Shape driver registered slots) :
    ∃ returned after, mp1IoctlSync argument driver = some (returned, after) ∧ Shape after registered slots := by
  cases sync_cases argument driver registered slots shape with
  | inl refused => exact ⟨-1, driver, refused.1, shape⟩
  | inr synced =>
      obtain ⟨source, dest, synced, _⟩ := synced
      exact ⟨0, syncNodes source dest driver, synced,
        shape_same_list driver _ registered slots shape (sync_same_list source dest driver)⟩

theorem find_unchanged (user : Blink) (driver : Driver) (registered : List Entry) (slots : List Slot)
    (shape : Shape driver registered slots) : ∃ returned, (Request.find user).perform driver = some (returned, driver) := by
  have helper := find_helper_linked (user.location.setWidth 32) driver registered slots shape
  rw [Request.perform, mp1IoctlFind, helper]
  exact ⟨_, rfl⟩

theorem add_shape (user : Blink) (driver : Driver) (registered : List Entry) (slots : List Slot)
    (shape : Shape driver registered slots) (freeFirst : user.location.toNat < 80 * 25 → driver.FreeFirst) :
    ∃ returned after rest, mp1IoctlAdd user driver = (returned, after) ∧
      Shape after ((Request.add user).account returned registered) rest := by
  cases add_cases user driver with
  | inl refused => exact ⟨-1, driver, slots, refused, refused_shape _ driver registered slots shape⟩
  | inr added =>
      obtain ⟨slot, inside, found, added⟩ := added
      have fresh := (free_first_fresh driver registered slots shape).mp (freeFirst inside) slot found
      exact ⟨0, inserted user slot driver, slot :: slots, added,
        inserted_shape user slot driver registered slots shape fresh⟩

theorem perform_shape (request : Request) (driver : Driver) (registered : List Entry) (slots : List Slot)
    (shape : Shape driver registered slots)
    (freeFirst : ∀ user, request = .add user → user.location.toNat < 80 * 25 → driver.FreeFirst) :
    ∃ returned after rest, request.perform driver = some (returned, after) ∧
      Shape after (request.account returned registered) rest := by
  cases request with
  | add user =>
      obtain ⟨returned, after, rest, added, later⟩ := add_shape user driver registered slots shape (freeFirst user rfl)
      exact ⟨returned, after, rest, congrArg some added, later⟩
  | remove argument => exact remove_shape argument driver registered slots shape
  | find user =>
      obtain ⟨returned, found⟩ := find_unchanged user driver registered slots shape
      exact ⟨returned, driver, slots, found, shape⟩
  | sync argument =>
      obtain ⟨returned, after, synced, later⟩ := sync_shape argument driver registered slots shape
      exact ⟨returned, after, slots, synced, later⟩
  | tick =>
      rw [Request.perform, tasklet_linked driver registered slots shape]
      exact ⟨0, _, slots, rfl, shape_same_list driver _ registered slots shape (blinks_same_list slots driver)⟩

theorem shape_lists (driver : Driver) (registered : List Entry) (slots : List Slot) (shape : Shape driver registered slots) :
    driver.Lists registered := by
  refine ⟨⟨slots, shape.linked, Chain.linked_nodup _ _ slots shape.linked, shape.entries⟩, fun request => ?_⟩
  cases added : request with
  | add user => rfl
  | _ =>
      obtain ⟨returned, after, rest, performed, _⟩ := perform_shape request driver registered slots shape
        (fun user same => by rw [added] at same; cases same)
      rw [← added, performed]
      rfl

def Kept (session : Session) : Prop := ∃ driver slots, session.driver = some driver ∧ Shape driver session.registered slots

theorem kept_tidy (session : Session) (kept : Kept session) : Tidy session := by
  obtain ⟨driver, slots, here, shape⟩ := kept
  exact ⟨driver, here, shape_lists driver session.registered slots shape⟩

theorem step_performed (session : Session) (request : Request) (driver after : Driver) (returned : Int)
    (here : session.driver = some driver) (performed : request.perform driver = some (returned, after)) :
    session.step request = ⟨some after, request.account returned session.registered⟩ := by
  rw [Session.step, here, Option.bind_some, performed]

theorem admitted_kept (session : Session) (request : Request) (kept : Kept session) (admitted : Admits session request) :
    Kept (session.step request) := by
  obtain ⟨driver, slots, here, shape⟩ := kept
  obtain ⟨returned, after, rest, performed, later⟩ := perform_shape request driver session.registered slots shape (by
    intro user same inside
    rw [same] at admitted
    exact admitted inside driver here)
  rw [step_performed session request driver after returned here performed]
  exact ⟨after, rest, rfl, later⟩

theorem tidy_admitted (session : Session) (request : Request) (kept : Kept session) (tidy : Tidy (session.step request)) :
    Admits session request := by
  cases request with
  | add user =>
      intro inside driver here
      obtain ⟨other, slots, there, shape⟩ := kept
      obtain rfl : driver = other := Option.some.inj (here.symm.trans there)
      rw [free_first_fresh driver session.registered slots shape]
      intro slot found member
      have performed : (Request.add user).perform driver = some (0, inserted user slot driver) :=
        congrArg some (add_inserted user slot driver inside found)
      rw [step_performed session _ driver _ 0 here performed] at tidy
      obtain ⟨after, reached, lists⟩ := tidy
      cases reached
      obtain ⟨others, linked, _⟩ := lists.list
      exact inserted_endless user slot driver session.registered slots shape member others linked
  | _ => trivial

theorem start_kept (vmem : Nat → UInt8) : Kept (start vmem) :=
  ⟨_, [], rfl, rfl, rfl, fun _ _ => rfl⟩

theorem registrations_exact (vmem : Nat → UInt8) (requests : List Request) :
    (∀ before after, requests = before ++ after → Tidy (Run.final Session.step (start vmem) before)) ↔
      Run.Guarded Session.step Admits (start vmem) requests := by
  rw [Run.reached_iff_guarded Session.step Tidy _ _ (kept_tidy _ (start_kept vmem))]
  apply Run.guarded_congr Session.step _ Admits Kept _ _ _ _ (start_kept vmem)
  · intro session request kept tidy
    exact admitted_kept session request kept (tidy_admitted session request kept tidy)
  · intro session request kept
    constructor
    · exact tidy_admitted session request kept
    · intro admitted
      exact kept_tidy _ (admitted_kept session request kept admitted)

theorem malloc_zero (driver : Driver) (free : (driver.blinkArray 0).location = 0) : mp1Malloc driver = some 0 := by
  obtain ⟨found, first⟩ := malloc_some driver 0 free
  cases Fin.eq_or_lt_of_le (Fin.zero_le found) with
  | inl same => rw [first, same]
  | inr later => exact absurd free ((malloc_first driver found first).2 0 later)

def blinkAt (location : BitVec 16) (onChar offChar : UInt8) : Blink := ⟨location, onChar, offChar, 15, 15, 0, 0, none⟩

def empty : Driver := ⟨fun _ => zeroed, none, fun _ => 0⟩
def corner : Blink := blinkAt 0 65 66
def besideCorner : Blink := blinkAt 1 67 68

-- The upper left corner: the next structure gets the same slot and becomes its
-- own successor, so the first one is lost and no tick comes to its end.
theorem corner_taken_again :
    let after := Run.final Session.step (start fun _ => 0) [.add corner, .add besideCorner]
    after.registered = [besideCorner.entry, corner.entry] ∧
      (∃ driver, after.driver = some driver ∧ driver.listHead = some 0 ∧ driver.next 0 = some 0 ∧
        ∀ fuel, taskletLoop fuel driver.listHead driver = none) ∧
      ¬ Tidy after := by
  have first : (Request.add corner).perform empty = some (0, inserted corner 0 empty) :=
    congrArg some (add_inserted corner 0 empty (by decide) (malloc_zero empty rfl))
  have second : (Request.add besideCorner).perform (inserted corner 0 empty) =
      some (0, inserted besideCorner 0 (inserted corner 0 empty)) :=
    congrArg some (add_inserted besideCorner 0 _ (by decide) (malloc_zero _ rfl))
  have one := step_performed (start fun _ => 0) _ empty _ 0 rfl first
  have two := step_performed ((start fun _ => 0).step (.add corner)) _ _ _ 0 (by rw [one]) second
  have shape : Shape empty [] [] := ⟨rfl, rfl, fun _ _ => rfl⟩
  have endless := inserted_endless besideCorner 0 _ _ _
    (inserted_shape corner 0 empty [] [] shape List.not_mem_nil) List.mem_cons_self
  have reached : Run.final Session.step (start fun _ => 0) [.add corner, .add besideCorner] =
      ⟨some (inserted besideCorner 0 (inserted corner 0 empty)), [besideCorner.entry, corner.entry]⟩ := by
    rw [Run.final_cons, Run.final_cons, Run.final_nil, two, one]
    simp only [Request.account, if_true, start]
  rw [reached]
  refine ⟨rfl, ⟨_, rfl, rfl, rfl, fun fuel => ?_⟩, fun tidy => ?_⟩
  · cases ended : taskletLoop fuel (inserted besideCorner 0 (inserted corner 0 empty)).listHead
      (inserted besideCorner 0 (inserted corner 0 empty)) with
    | none => rfl
    | some state =>
        obtain ⟨others, linked⟩ := tasklet_ends_linked fuel _ _ state ended
        exact absurd linked (endless others)
  · obtain ⟨driver, same, lists⟩ := tidy
    cases same
    obtain ⟨others, linked, _⟩ := lists.list
    exact endless others linked

end SimpleKernel.Fish
