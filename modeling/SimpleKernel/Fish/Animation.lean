import SimpleKernel.Fish.Display
import SimpleKernel.Fish.Frames

set_option autoImplicit false

namespace SimpleKernel.Fish

structure Paced (period clock : Nat) (blink : Blink) : Prop where
  onLength : blink.onLength = BitVec.ofNat 16 period
  offLength : blink.offLength = BitVec.ofNat 16 period
  countdown : blink.countdown = BitVec.ofNat 16 (period - clock % period)
  lit : blink.lit = decide (clock / period % 2 = 0)

def ticked (blink : Blink) : Blink :=
  if Flags.greater (Flags.compare (blink.countdown - 1) 0) then { blink with countdown := blink.countdown - 1 }
  else { blink with
    countdown := if blink.lit then blink.offLength else blink.onLength
    status := blink.status ^^^ 1 }

theorem blink_slot_array (driver : Driver) (slot : Slot) :
    (blinkSlot driver slot).blinkArray = Function.update driver.blinkArray slot (ticked (driver.blinkArray slot)) := by
  rw [blinkSlot, ticked]
  simp only [Driver.modify, mp1Poke, Function.update_self, Function.update_idem, test_off]
  split
  · rfl
  · cases (driver.blinkArray slot).lit <;> rfl

theorem blinks_array (slots : List Slot) (driver : Driver) (distinct : slots.Nodup) (slot : Slot) :
    (slots.foldl blinkSlot driver).blinkArray slot =
      if slot ∈ slots then ticked (driver.blinkArray slot) else driver.blinkArray slot := by
  induction slots generalizing driver with
  | nil => rfl
  | cons head rest ih =>
      obtain ⟨fresh, later⟩ := List.nodup_cons.mp distinct
      rw [List.foldl_cons, ih (blinkSlot driver head) later, blink_slot_array]
      by_cases same : slot = head
      · subst same
        rw [if_neg fresh, if_pos List.mem_cons_self, Function.update_self]
      · rw [Function.update_of_ne same]
        by_cases inside : slot ∈ rest
        · rw [if_pos inside, if_pos (List.mem_cons_of_mem head inside)]
        · rw [if_neg inside, if_neg (fun member => (List.mem_cons.mp member).elim same inside)]

theorem clock_step (period clock : Nat) (positive : 0 < period) :
    (clock % period + 1 < period ∧ (clock + 1) % period = clock % period + 1 ∧ (clock + 1) / period = clock / period) ∨
      (clock % period + 1 = period ∧ (clock + 1) % period = 0 ∧ (clock + 1) / period = clock / period + 1) := by
  have below := Nat.mod_lt clock positive
  have parts := Nat.div_add_mod clock period
  by_cases more : clock % period + 1 < period
  · have next : clock + 1 = clock % period + 1 + period * (clock / period) := by omega
    refine Or.inl ⟨more, ?_, ?_⟩
    · rw [next, Nat.add_mul_mod_self_left, Nat.mod_eq_of_lt more]
    · rw [next, Nat.add_mul_div_left _ _ positive, Nat.div_eq_of_lt more, Nat.zero_add]
  · have last : clock % period + 1 = period := by omega
    have next : clock + 1 = period * (clock / period + 1) := by
      rw [Nat.mul_add]
      omega
    refine Or.inr ⟨last, ?_, ?_⟩
    · rw [next, Nat.mul_mod_right]
    · rw [next, Nat.mul_div_cancel_left _ positive]

theorem word_pred (left : Nat) (positive : 0 < left) (small : left < 2 ^ 16) :
    BitVec.ofNat 16 left - 1 = BitVec.ofNat 16 (left - 1) := by
  apply BitVec.eq_of_toNat_eq
  rw [BitVec.toNat_sub, BitVec.toNat_ofNat, BitVec.toNat_ofNat]
  change (2 ^ 16 - 1 + left % 2 ^ 16) % 2 ^ 16 = _
  omega

theorem countdown_greater (left : Nat) (positive : 0 < left) (small : left < 2 ^ 15) :
    Flags.greater (Flags.compare (BitVec.ofNat 16 left - 1) 0) = true ↔ 1 < left := by
  have value : (BitVec.ofNat 16 (left - 1)).toInt = ((left - 1 : Nat) : Int) := by
    rw [BitVec.toInt_eq_toNat_cond, BitVec.toNat_ofNat]
    split <;> omega
  rw [Flags.compare_greater, word_pred left positive (by omega), value]
  change (0 : Int) < _ ↔ _
  omega

theorem ticked_paced (period clock : Nat) (blink : Blink) (positive : 0 < period) (small : period < 2 ^ 15)
    (paced : Paced period clock blink) : Paced period (clock + 1) (ticked blink) := by
  have below := Nat.mod_lt clock positive
  have sign := countdown_greater (period - clock % period) (by omega) (by omega)
  rw [← paced.countdown] at sign
  cases clock_step period clock positive with
  | inl more =>
      obtain ⟨more, remainder, quotient⟩ := more
      rw [ticked, if_pos (sign.mpr (by omega))]
      refine ⟨paced.onLength, paced.offLength, ?_, ?_⟩
      · rw [remainder, paced.countdown, Nat.sub_add_eq]
        exact word_pred _ (by omega) (by omega)
      · rw [quotient]
        exact paced.lit
  | inr last =>
      obtain ⟨last, remainder, quotient⟩ := last
      rw [ticked, if_neg (fun greater => absurd (sign.mp greater) (by omega))]
      refine ⟨paced.onLength, paced.offLength, ?_, ?_⟩
      · rw [remainder, Nat.sub_zero, paced.onLength, paced.offLength, ite_self]
      · rw [toggled_lit, paced.lit, quotient]
        by_cases even : clock / period % 2 = 0
        · rw [decide_eq_true even, decide_eq_false (by omega)]
          rfl
        · rw [decide_eq_false even, decide_eq_true (by omega)]
          rfl

structure Playing (period clock : Nat) (vmem : Nat → UInt8) (registered : List Entry) (driver : Driver)
    (slots : List Slot) : Prop where
  shape : Shape driver registered slots
  paced : ∀ slot ∈ slots, Paced period clock (driver.blinkArray slot)
  shows : ShowsOn driver slots
  untouched : ∀ address, (∀ slot ∈ slots, address ≠ (driver.blinkArray slot).offset) → driver.vmem address = vmem address

theorem blink_slot_vmem (driver : Driver) (slot : Slot) (address : Nat) (apart : address ≠ (driver.blinkArray slot).offset) :
    (blinkSlot driver slot).vmem address = driver.vmem address := by
  cases blink_slot_cases driver slot with
  | inl counted => rw [counted]; rfl
  | inr drawn =>
      obtain ⟨length, drawn⟩ := drawn
      rw [drawn]
      exact Function.update_of_ne apart _ _

theorem same_list_offset (driver after : Driver) (same : SameList driver after) (slot : Slot) :
    (after.blinkArray slot).offset = (driver.blinkArray slot).offset :=
  congrArg (fun entry => 2 * entry.location.toNat) (congrFun same.entry slot)

theorem blinks_vmem (slots : List Slot) (driver : Driver) (address : Nat)
    (apart : ∀ slot ∈ slots, address ≠ (driver.blinkArray slot).offset) :
    (slots.foldl blinkSlot driver).vmem address = driver.vmem address := by
  induction slots generalizing driver with
  | nil => rfl
  | cons head rest ih =>
      rw [List.foldl_cons, ih (blinkSlot driver head)]
      · exact blink_slot_vmem driver head address (apart head List.mem_cons_self)
      · intro slot member
        rw [same_list_offset driver _ (blink_same_list driver head) slot]
        exact apart slot (List.mem_cons_of_mem _ member)

theorem playing_tick (period clock : Nat) (vmem : Nat → UInt8) (registered : List Entry) (driver : Driver)
    (slots : List Slot) (positive : 0 < period) (small : period < 2 ^ 15)
    (distinct : (registered.map Entry.location).Nodup) (playing : Playing period clock vmem registered driver slots) :
    ∃ after, mp1RtcTasklet driver = some after ∧ Playing period (clock + 1) vmem registered after slots := by
  have nodup := Chain.linked_nodup _ _ slots playing.shape.linked
  have same := blinks_same_list slots driver
  refine ⟨_, tasklet_linked driver registered slots playing.shape, ?_⟩
  constructor
  · exact shape_same_list driver _ registered slots playing.shape same
  · intro slot member
    rw [blinks_array slots driver nodup slot, if_pos member]
    exact ticked_paced period clock _ positive small (playing.paced slot member)
  · exact blinks_shows slots slots driver (shape_apart driver registered slots playing.shape distinct) playing.shows
      fun _ member => member
  · intro address apart
    have before : ∀ slot ∈ slots, address ≠ (driver.blinkArray slot).offset := by
      intro slot member
      rw [← same_list_offset driver _ same slot]
      exact apart slot member
    rw [blinks_vmem slots driver address before]
    exact playing.untouched address before

def OnScreen (location : BitVec 16) : Prop := location.toNat < 80 * 25

instance (location : BitVec 16) : Decidable (OnScreen location) := inferInstanceAs (Decidable (_ < _))

-- There are fewer places on the screen without the corner than slots.
theorem room_left (driver : Driver) (registered : List Entry) (slots : List Slot) (shape : Shape driver registered slots)
    (distinct : (registered.map Entry.location).Nodup) (nonzero : 0 ∉ registered.map Entry.location)
    (inside : ∀ entry ∈ registered, OnScreen entry.location) : ∃ slot, mp1Malloc driver = some slot ∧ slot ∉ slots := by
  have places : (registered.map fun entry => entry.location.toNat) ⊆ List.range' 1 1999 := by
    intro place member
    obtain ⟨entry, here, same⟩ := List.mem_map.mp member
    have bound : entry.location.toNat < 80 * 25 := inside entry here
    have positive : entry.location.toNat ≠ 0 := by
      intro zero
      exact nonzero (List.mem_map.mpr ⟨entry, here, BitVec.eq_of_toNat_eq zero⟩)
    rw [List.mem_range'_1]
    omega
  have apart : (registered.map fun entry => entry.location.toNat).Nodup := by
    have split : (registered.map fun entry => entry.location.toNat) = (registered.map Entry.location).map BitVec.toNat := by
      rw [List.map_map]
      rfl
    rw [split]
    exact distinct.map BitVec.toNat_injective
  have count := (apart.subperm places).length_le
  rw [List.length_map, List.length_range', ← shape.entries, List.length_map] at count
  obtain ⟨slot, outside⟩ : ∃ slot, slot ∉ slots := by
    by_contra every
    have all : List.finRange (80 * 25) ⊆ slots := fun slot _ => by_contra fun outside => every ⟨slot, outside⟩
    have many := ((List.nodup_finRange (80 * 25)).subperm all).length_le
    rw [List.length_finRange] at many
    omega
  obtain ⟨found, first⟩ := malloc_some driver slot (shape.unused slot outside)
  have fresh := (free_first_fresh driver registered slots shape).mp (nonzero_free_first driver registered slots shape nonzero)
  exact ⟨found, first, fresh found first⟩

theorem playing_add (period : Nat) (vmem : Nat → UInt8) (registered : List Entry) (driver : Driver) (slots : List Slot)
    (user : Blink) (slot : Slot) (fresh : slot ∉ slots) (unused : user.location ∉ registered.map Entry.location)
    (onLength : user.onLength = BitVec.ofNat 16 period) (offLength : user.offLength = BitVec.ofNat 16 period)
    (playing : Playing period 0 vmem registered driver slots) :
    Playing period 0 vmem (user.entry :: registered) (inserted user slot driver) (slot :: slots) := by
  have others (other : Slot) (member : other ∈ slots) :
      (inserted user slot driver).blinkArray other = driver.blinkArray other :=
    Function.update_of_ne (fun same : other = slot => fresh (same ▸ member)) _ _
  have here : (inserted user slot driver).blinkArray slot =
      { user with status := 1, countdown := user.onLength, next := driver.listHead } := Function.update_self _ _ _
  have elsewhere : ∀ other ∈ slots, (driver.blinkArray other).location ≠ user.location := by
    rw [shape_locations driver registered slots playing.shape] at unused
    exact fun other member same => unused (List.mem_map.mpr ⟨other, member, same⟩)
  constructor
  · exact inserted_shape user slot driver registered slots playing.shape fresh
  · intro other member
    cases List.mem_cons.mp member with
    | inl same =>
        rw [same, here]
        refine ⟨onLength, offLength, ?_, ?_⟩
        · rw [Nat.zero_mod, Nat.sub_zero]
          exact onLength
        · rw [Nat.zero_div]
          change (1 : BitVec 16).getLsbD 0 = decide (0 % 2 = 0)
          decide
    | inr older =>
        rw [others other older]
        exact playing.paced other older
  · exact inserted_shows user slot driver slots elsewhere playing.shows
  · intro address apart
    have first := apart slot List.mem_cons_self
    rw [here] at first
    have kept : (inserted user slot driver).vmem address = driver.vmem address := Function.update_of_ne first _ _
    rw [kept]
    apply playing.untouched
    intro other member
    have later := apart other (List.mem_cons_of_mem slot member)
    rwa [others other member] at later

structure Stage (period clock : Nat) (vmem : Nat → UInt8) (registered : List Entry) (session : Session) : Prop where
  ledger : session.registered = registered
  playing : ∃ driver slots, session.driver = some driver ∧ Playing period clock vmem registered driver slots
  inside : ∀ entry ∈ registered, OnScreen entry.location

theorem stage_start (period : Nat) (vmem : Nat → UInt8) : Stage period 0 vmem [] (start vmem) where
  ledger := rfl
  playing := ⟨_, [], rfl, ⟨rfl, rfl, fun _ _ => rfl⟩, fun _ member => absurd member List.not_mem_nil,
    fun _ member => absurd member List.not_mem_nil, fun _ _ => rfl⟩
  inside := fun _ member => absurd member List.not_mem_nil

def accepted (users : List Blink) : List Blink := users.filter fun user => OnScreen user.location

theorem stage_add (period : Nat) (vmem : Nat → UInt8) (registered : List Entry) (session : Session) (user : Blink)
    (stage : Stage period 0 vmem registered session)
    (distinct : (registered.map Entry.location ++ [user.location]).Nodup)
    (nonzero : 0 ∉ registered.map Entry.location)
    (onLength : user.onLength = BitVec.ofNat 16 period) (offLength : user.offLength = BitVec.ofNat 16 period) :
    Stage period 0 vmem ((accepted [user]).map Blink.entry ++ registered) (session.step (.add user)) := by
  obtain ⟨driver, slots, here, playing⟩ := stage.playing
  obtain ⟨apart, _, crossed⟩ := List.nodup_append.mp distinct
  by_cases inside : OnScreen user.location
  · obtain ⟨slot, found, fresh⟩ := room_left driver registered slots playing.shape apart nonzero stage.inside
    have performed : (Request.add user).perform driver = some (0, inserted user slot driver) :=
      congrArg some (add_inserted user slot driver inside found)
    have unused : user.location ∉ registered.map Entry.location :=
      fun member => crossed user.location member user.location List.mem_cons_self rfl
    have taken : accepted [user] = [user] := List.filter_cons_of_pos (decide_eq_true inside)
    rw [step_performed session _ driver _ 0 here performed, taken]
    refine ⟨congrArg (user.entry :: ·) stage.ledger, ⟨_, slot :: slots, rfl, ?_⟩, ?_⟩
    · exact playing_add period vmem registered driver slots user slot fresh unused onLength offLength playing
    · intro entry member
      cases List.mem_cons.mp member with
      | inl same => exact same ▸ inside
      | inr older => exact stage.inside entry older
  · have performed : (Request.add user).perform driver = some (-1, driver) :=
      congrArg some (add_out_of_range user driver inside)
    have refused : accepted [user] = [] := List.filter_cons_of_neg (by rwa [decide_eq_true_eq])
    rw [step_performed session _ driver _ (-1) here performed, refused]
    exact ⟨stage.ledger, ⟨driver, slots, rfl, playing⟩, stage.inside⟩

theorem accepted_ahead (registered : List Entry) (user : Blink) (ahead : List (BitVec 16)) :
    ∃ whole, whole.Perm (registered.map Entry.location ++ user.location :: ahead) ∧
      (((accepted [user]).map Blink.entry ++ registered).map Entry.location ++ ahead).Sublist whole := by
  refine ⟨user.location :: (registered.map Entry.location ++ ahead), List.perm_middle.symm, ?_⟩
  by_cases inside : OnScreen user.location
  · have taken : accepted [user] = [user] := List.filter_cons_of_pos (decide_eq_true inside)
    rw [taken]
    exact List.Sublist.refl _
  · have refused : accepted [user] = [] := List.filter_cons_of_neg (by rwa [decide_eq_true_eq])
    rw [refused]
    exact List.sublist_cons_self _ _

theorem accepted_first (user : Blink) (rest : List Blink) :
    ((accepted (user :: rest)).map Blink.entry).reverse =
      ((accepted rest).map Blink.entry).reverse ++ (accepted [user]).map Blink.entry := by
  have split : accepted (user :: rest) = accepted [user] ++ accepted rest := List.filter_append [user] rest
  have short : ((accepted [user]).map Blink.entry).reverse = (accepted [user]).map Blink.entry := by
    by_cases inside : OnScreen user.location
    · have taken : accepted [user] = [user] := List.filter_cons_of_pos (decide_eq_true inside)
      rw [taken]
      rfl
    · have refused : accepted [user] = [] := List.filter_cons_of_neg (by rwa [decide_eq_true_eq])
      rw [refused]
      rfl
  rw [split, List.map_append, List.reverse_append, short]

theorem stage_adds (period : Nat) (vmem : Nat → UInt8) (users : List Blink) (registered : List Entry) (session : Session)
    (stage : Stage period 0 vmem registered session)
    (distinct : (registered.map Entry.location ++ users.map Blink.location).Nodup)
    (nonzero : 0 ∉ registered.map Entry.location ++ users.map Blink.location)
    (lengths : ∀ user ∈ users, user.onLength = BitVec.ofNat 16 period ∧ user.offLength = BitVec.ofNat 16 period) :
    Stage period 0 vmem (((accepted users).map Blink.entry).reverse ++ registered)
      (Run.final Session.step session (users.map Request.add)) := by
  induction users generalizing registered session with
  | nil => exact stage
  | cons user rest ih =>
      obtain ⟨onLength, offLength⟩ := lengths user List.mem_cons_self
      obtain ⟨whole, same, part⟩ := accepted_ahead registered user (rest.map Blink.location)
      have alone : (registered.map Entry.location ++ [user.location]).Sublist
          (registered.map Entry.location ++ (user :: rest).map Blink.location) :=
        List.Sublist.append_left (List.cons_sublist_cons.mpr (List.nil_sublist _)) _
      have next := stage_add period vmem registered session user stage (alone.nodup distinct)
        (fun member => nonzero (List.mem_append_left _ member)) onLength offLength
      rw [List.map_cons, Run.final_cons, accepted_first, List.append_assoc]
      apply ih _ _ next
      · exact part.nodup (same.nodup_iff.mpr distinct)
      · exact fun member => nonzero (same.mem_iff.mp (part.subset member))
      · exact fun later member => lengths later (List.mem_cons_of_mem user member)

theorem stage_ticks (period clock ticks : Nat) (vmem : Nat → UInt8) (registered : List Entry) (session : Session)
    (positive : 0 < period) (small : period < 2 ^ 15) (distinct : (registered.map Entry.location).Nodup)
    (stage : Stage period clock vmem registered session) :
    Stage period (clock + ticks) vmem registered (Run.final Session.step session (List.replicate ticks .tick)) := by
  induction ticks generalizing clock session with
  | zero => exact stage
  | succ ticks ih =>
      obtain ⟨driver, slots, here, playing⟩ := stage.playing
      obtain ⟨after, ended, later⟩ := playing_tick period clock vmem registered driver slots positive small distinct playing
      have performed : Request.tick.perform driver = some (0, after) := by
        rw [Request.perform, ended]
        rfl
      have shift : clock + (ticks + 1) = clock + 1 + ticks := by omega
      rw [List.replicate_succ, Run.final_cons, step_performed session _ driver after 0 here performed, shift]
      exact ih (clock + 1) _ ⟨stage.ledger, ⟨after, slots, rfl, later⟩, stage.inside⟩

structure Shows (vmem : Nat → UInt8) (blinks : List Blink) (on : Bool) (now : Nat → UInt8) : Prop where
  shown : ∀ blink ∈ blinks, OnScreen blink.location → now blink.offset = if on then blink.onChar else blink.offChar
  untouched : ∀ address, (∀ blink ∈ blinks, OnScreen blink.location → address ≠ blink.offset) → now address = vmem address

theorem playing_slot (period clock : Nat) (vmem : Nat → UInt8) (registered : List Entry) (driver : Driver)
    (slots : List Slot) (entry : Entry) (playing : Playing period clock vmem registered driver slots) :
    entry ∈ registered ↔ ∃ slot ∈ slots, driver.entry slot = entry := by
  rw [← playing.shape.entries, List.mem_map]

theorem stage_shows (period clock : Nat) (vmem : Nat → UInt8) (users : List Blink) (session : Session)
    (stage : Stage period clock vmem ((accepted users).map Blink.entry).reverse session) :
    ∃ driver, session.driver = some driver ∧ Shows vmem users (decide (clock / period % 2 = 0)) driver.vmem := by
  obtain ⟨driver, slots, here, playing⟩ := stage.playing
  refine ⟨driver, here, ?_, ?_⟩
  · intro blink member inside
    have registered : blink.entry ∈ ((accepted users).map Blink.entry).reverse :=
      List.mem_reverse.mpr (List.mem_map_of_mem (List.mem_filter.mpr ⟨member, decide_eq_true inside⟩))
    obtain ⟨slot, onList, same⟩ := (playing_slot period clock vmem _ driver slots blink.entry playing).mp registered
    have place : (driver.blinkArray slot).offset = blink.offset :=
      congrArg (fun entry : Entry => 2 * entry.location.toNat) same
    have on : (driver.blinkArray slot).onChar = blink.onChar := congrArg Entry.onChar same
    have off : (driver.blinkArray slot).offChar = blink.offChar := congrArg Entry.offChar same
    rw [← place, playing.shows slot onList, Blink.character, (playing.paced slot onList).lit, on, off]
  · intro address apart
    apply playing.untouched
    intro slot onList
    have registered := (playing_slot period clock vmem _ driver slots _ playing).mpr ⟨slot, onList, rfl⟩
    obtain ⟨blink, member, same⟩ := List.mem_map.mp (List.mem_reverse.mp registered)
    obtain ⟨member, inside⟩ := List.mem_filter.mp member
    have place : blink.offset = (driver.blinkArray slot).offset :=
      congrArg (fun entry : Entry => 2 * entry.location.toNat) same
    rw [← place]
    exact apart blink member (of_decide_eq_true inside)

end SimpleKernel.Fish
