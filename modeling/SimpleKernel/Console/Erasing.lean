import SimpleKernel.Console.Rows

set_option autoImplicit false

namespace SimpleKernel.Console

def Ordinary (c : UInt8) : Prop := c ≠ newline ∧ c ≠ carriageReturn ∧ c ≠ backspace ∧ c ≠ 0

instance (c : UInt8) : Decidable (Ordinary c) := inferInstanceAs (Decidable (_ ∧ _))

def scrollsAt (c : UInt8) (screen : Screen) : Nat :=
  if (c = newline ∨ c = carriageReturn ∨ Ordinary c ∧ (numCols : Int) ≤ screen.screenX + 1) ∧
      (numRows : Int) ≤ screen.screenY + 1 then 1
  else 0

def scrollsIn : List UInt8 → Screen → Nat
  | [], _ => 0
  | c :: rest, screen => scrollsAt c screen + scrollsIn rest (putc c screen)

def place (screen : Screen) : Int := numCols * screen.screenY + screen.screenX

-- A NUL is drawn as a blank.
def Blank (held : UInt8 × UInt8) : Prop := (held.1 = space ∨ held.1 = 0) ∧ held.2 = attrib

theorem putc_ordinary (c : UInt8) (screen : Screen) (ordinary : Ordinary c) :
    putc c screen = placeCursor (byte (putChar c screen).screenX) (byte (putChar c screen).screenY) (putChar c screen) := by
  obtain ⟨line, feed, back, nul⟩ := ordinary
  simp only [putc, line, feed, back, nul, or_self, if_false]

theorem putc_backspace (screen : Screen) :
    putc backspace screen =
      placeCursor (byte (putBackspace screen).screenX) (byte (putBackspace screen).screenY) (putBackspace screen) := rfl

theorem scrolls_ordinary (c : UInt8) (screen : Screen) (ordinary : Ordinary c) :
    scrollsAt c screen = if 79 ≤ screen.screenX ∧ 24 ≤ screen.screenY then 1 else 0 := by
  have breaks : c ≠ newline ∧ c ≠ carriageReturn := ⟨ordinary.1, ordinary.2.1⟩
  have column : (numCols : Int) ≤ screen.screenX + 1 ↔ 79 ≤ screen.screenX := by
    rw [numCols]
    omega
  have row : (numRows : Int) ≤ screen.screenY + 1 ↔ 24 ≤ screen.screenY := by
    rw [numRows]
    omega
  simp only [scrollsAt, breaks, ordinary, column, row, false_or, true_and]

theorem scrolls_backspace (screen : Screen) : scrollsAt backspace screen = 0 := by
  have never : ¬ ((backspace = newline ∨ backspace = carriageReturn ∨ Ordinary backspace ∧
      (numCols : Int) ≤ screen.screenX + 1) ∧ (numRows : Int) ≤ screen.screenY + 1) := by
    have plain : ¬ Ordinary backspace := by decide
    have breaks : backspace ≠ newline ∧ backspace ≠ carriageReturn := by decide
    simp only [plain, breaks, false_and, or_self, not_false_eq_true]
  exact if_neg never

theorem cell_clear_below (row : Int) (screen : Screen) (low : 0 ≤ row) (high : row < 25) (j : Int) :
    cell (clearTopRow (byte row) screen) j = if 80 * row ≤ j ∧ j < 2000 then (0, attrib) else cell screen j := by
  have range : ((row.toNat * numCols : Nat) : Int) ≤ j ∧
      j < (row.toNat * numCols : Nat) + (cells - row.toNat * numCols : Nat) ↔ 80 * row ≤ j ∧ j < 2000 := by
    rw [cells_size, numCols]
    omega
  rw [clear_top_row_fill row screen low (by omega), cell_fill]
  simp only [range]

structure Advanced (screen next : Screen) (scrolled : Nat) : Prop where
  on : OnScreen next.screenX next.screenY
  place : place next = place screen + 1 - 80 * scrolled
  before : ∀ j, 0 ≤ j → j + 80 * scrolled < Console.place screen → cell next j = cell screen (j + 80 * scrolled)

theorem put_char_advances (c : UInt8) (screen : Screen) (on : OnScreen screen.screenX screen.screenY) :
    Advanced screen (putChar c screen) (if 79 ≤ screen.screenX ∧ 24 ≤ screen.screenY then 1 else 0) := by
  have stays := put_char_on_screen c screen on
  obtain ⟨⟨left, right⟩, low, high⟩ := on
  have stored (j : Int) (before : j < place screen) : cell (putCell c screen) j = cell screen j := by
    rw [putCell, cell_store, if_neg (by rw [place] at before; omega)]
  by_cases full : 79 ≤ screen.screenX
  · rw [put_char_full c screen full] at stays ⊢
    by_cases last : 24 ≤ screen.screenY
    · rw [if_pos ⟨full, last⟩]
      rw [next_row_last { putCell c screen with screenX := 0 } last, scroll_y] at stays ⊢
      refine ⟨stays, ?_, fun j inside before => ?_⟩
      · simp only [place, clear_top_row_x, clear_top_row_y, scroll_x, scroll_y, numCols]
        omega
      · have bound : j < 1920 := by
          rw [place, numCols] at before
          omega
        rw [cell_clear_below 24 _ (by decide) (by decide), if_neg (by omega), cell_scroll _ j inside (by omega), if_pos bound]
        exact stored (j + 80) before
    · rw [if_neg fun both => last both.2]
      rw [next_row_above { putCell c screen with screenX := 0 } (Int.not_le.mp last)] at stays ⊢
      refine ⟨stays, ?_, fun j inside before => ?_⟩
      · simp only [place, clear_top_row_x, clear_top_row_y, numCols]
        change (80 : Int) * (screen.screenY + 1) + 0 = _
        omega
      · have above : ¬ (80 * (screen.screenY + 1) ≤ j ∧ j < 2000) := by
          rw [place, numCols] at before
          omega
        have same : cell (clearTopRow (byte (screen.screenY + 1))
            { putCell c screen with screenX := 0, screenY := screen.screenY + 1 }) j =
            cell screen (j + 80 * (0 : Nat)) := by
          rw [cell_clear_below (screen.screenY + 1) _ (by omega) (by omega), if_neg above, cell_cursor, stored j (by omega)]
          simp only [Int.natCast_zero, Int.mul_zero, Int.add_zero]
        exact same
  · rw [if_neg fun both => full both.1]
    rw [put_char_right c screen (Int.not_le.mp full)] at stays ⊢
    refine ⟨stays, ?_, fun j inside before => ?_⟩
    · simp only [place]
      change numCols * screen.screenY + (screen.screenX + 1) = _
      omega
    · have same : cell (putCell c screen) j = cell screen (j + 80 * (0 : Nat)) := by
        rw [stored j (by omega)]
        simp only [Int.natCast_zero, Int.mul_zero, Int.add_zero]
      exact same

theorem putc_advances (c : UInt8) (screen : Screen) (ordinary : Ordinary c) (on : OnScreen screen.screenX screen.screenY) :
    Advanced screen (putc c screen) (scrollsAt c screen) := by
  have advanced := put_char_advances c screen on
  rw [putc_ordinary c screen ordinary, scrolls_ordinary c screen ordinary]
  exact ⟨advanced.on, advanced.place, advanced.before⟩

structure Erased (screen next : Screen) : Prop where
  on : OnScreen next.screenX next.screenY
  place : place next = place screen - 1
  before : ∀ j, j < Console.place screen - 1 → cell next j = cell screen j
  erased : Blank (cell next (Console.place screen - 1))
  blank : ∀ j, Console.place screen - 1 < j → Blank (cell screen j) → Blank (cell next j)

theorem put_backspace_erases (screen : Screen) (on : OnScreen screen.screenX screen.screenY) (away : 0 < place screen) :
    Erased screen (putBackspace screen) := by
  have off : ¬ (screen.screenX = 0 ∧ screen.screenY = 0) := by
    intro corner
    rw [place, corner.1, corner.2, numCols] at away
    omega
  have stays := (put_backspace_on_screen screen on).mpr off
  have drawn : Blank (space, attrib) := ⟨Or.inl rfl, rfl⟩
  obtain ⟨⟨left, right⟩, low, high⟩ := on
  by_cases first : screen.screenX = 0
  · rw [put_backspace_first screen first low] at stays ⊢
    have target : (numCols : Int) * (screen.screenY - 1) + (numCols - 1) = place screen - 1 := by
      rw [place, numCols]
      omega
    have held (j : Int) : cell (putCell space { clearTopRow
      (byte screen.screenY) { screen with screenX := screen.screenX - 1 } with
        screenX := numCols - 1, screenY := screen.screenY - 1 }) j =
          if j = place screen - 1 then (space, attrib)
          else if 80 * screen.screenY ≤ j ∧ j < 2000 then (0, attrib) else cell screen j := by
      rw [putCell, cell_store, target, cell_cursor, cell_clear_below screen.screenY _ low high]
      rfl
    refine ⟨stays, target, fun j before => ?_, ?_, fun j after blank => ?_⟩
    · rw [held j, if_neg (by omega), if_neg (by rw [place, numCols] at before; omega)]
    · rw [held, if_pos rfl]
      exact drawn
    · rw [held j, if_neg (by omega)]
      by_cases cleared : 80 * screen.screenY ≤ j ∧ j < 2000
      · rw [if_pos cleared]
        exact ⟨Or.inr rfl, rfl⟩
      · rw [if_neg cleared]
        exact blank
  · rw [put_backspace_right screen (by omega)] at stays ⊢
    have target : (numCols : Int) * screen.screenY + (screen.screenX - 1) = place screen - 1 := by
      rw [place]
      omega
    have held (j : Int) : cell (putCell space { screen with screenX := screen.screenX - 1 }) j =
        if j = place screen - 1 then (space, attrib) else cell screen j := by
      rw [putCell, cell_store, target]
      rfl
    refine ⟨stays, target, fun j before => ?_, ?_, fun j after blank => ?_⟩
    · rw [held j, if_neg (by omega)]
    · rw [held, if_pos rfl]
      exact drawn
    · rw [held j, if_neg (by omega)]
      exact blank

theorem putc_backspace_erases (screen : Screen) (on : OnScreen screen.screenX screen.screenY) (away : 0 < place screen) :
    Erased screen (putc backspace screen) := by
  have erased := put_backspace_erases screen on away
  rw [putc_backspace]
  exact ⟨erased.on, erased.place, erased.before, erased.erased, erased.blank⟩

def write (bytes : List UInt8) (screen : Screen) : Screen := bytes.foldl (fun current c => putc c current) screen

theorem write_append (before after : List UInt8) (screen : Screen) :
    write (before ++ after) screen = write after (write before screen) := List.foldl_append

theorem scrolls_append (before after : List UInt8) (screen : Screen) :
    scrollsIn (before ++ after) screen = scrollsIn before screen + scrollsIn after (write before screen) := by
  induction before generalizing screen with
  | nil => exact (Nat.zero_add _).symm
  | cons c rest ih =>
      change scrollsAt c screen + scrollsIn (rest ++ after) (putc c screen) =
        scrollsAt c screen + scrollsIn rest (putc c screen) + scrollsIn after (write rest (putc c screen))
      rw [ih (putc c screen), Nat.add_assoc]

theorem scrolls_backspaces (count : Nat) (screen : Screen) : scrollsIn (List.replicate count backspace) screen = 0 := by
  induction count generalizing screen with
  | zero => rfl
  | succ count ih => rw [List.replicate_succ, scrollsIn, scrolls_backspace, ih]

theorem write_advances (w : List UInt8) (screen : Screen) (ordinary : ∀ c ∈ w, Ordinary c)
    (on : OnScreen screen.screenX screen.screenY) :
    OnScreen (write w screen).screenX (write w screen).screenY ∧
      place (write w screen) = place screen + w.length - 80 * scrollsIn w screen ∧
      ∀ j, 0 ≤ j → j + 80 * scrollsIn w screen < place screen →
        cell (write w screen) j = cell screen (j + 80 * scrollsIn w screen) := by
  induction w generalizing screen with
  | nil =>
      refine ⟨on, ?_, fun j _ _ => ?_⟩
      · change place screen = place screen + (0 : Nat) - 80 * (0 : Nat)
        omega
      · change cell screen j = cell screen (j + 80 * (0 : Nat))
        rw [Int.natCast_zero, Int.mul_zero, Int.add_zero]
  | cons c rest ih =>
      have step := putc_advances c screen (ordinary c List.mem_cons_self) on
      obtain ⟨stays, placed, kept⟩ := ih (putc c screen) (fun d member => ordinary d (List.mem_cons_of_mem c member)) step.on
      have moved := step.place
      change OnScreen (write rest (putc c screen)).screenX (write rest (putc c screen)).screenY ∧
        place (write rest (putc c screen)) = place screen + (rest.length + 1 : Nat) - 80 *
          (scrollsAt c screen + scrollsIn rest (putc c screen) : Nat) ∧
        ∀ j, 0 ≤ j → j + 80 * (scrollsAt c screen + scrollsIn rest (putc c screen) : Nat) < place screen →
          cell (write rest (putc c screen)) j = cell screen
            (j + 80 * (scrollsAt c screen + scrollsIn rest (putc c screen) : Nat))
      refine ⟨stays, by omega, fun j inside before => ?_⟩
      have split : j + 80 * (scrollsIn rest (putc c screen) : Int) + 80 * (scrollsAt c screen : Int) =
          j + 80 * (scrollsAt c screen + scrollsIn rest (putc c screen) : Nat) := by omega
      rw [kept j inside (by omega), step.before _ (by omega) (by omega), split]

theorem backspaces_erase (count : Nat) (screen : Screen) (on : OnScreen screen.screenX screen.screenY)
    (room : (count : Int) ≤ place screen) :
    OnScreen (write (List.replicate count backspace) screen).screenX (write (List.replicate count backspace) screen).screenY ∧
      place (write (List.replicate count backspace) screen) = place screen - count ∧
      (∀ j, j < place screen - count → cell (write (List.replicate count backspace) screen) j = cell screen j) ∧
      ∀ j, place screen - count ≤ j → (place screen ≤ j → Blank (cell screen j)) →
        Blank (cell (write (List.replicate count backspace) screen) j) := by
  induction count generalizing screen with
  | zero =>
      change OnScreen screen.screenX screen.screenY ∧ place screen = place screen - (0 : Nat) ∧
        (∀ j, j < place screen - (0 : Nat) → cell screen j = cell screen j) ∧
        ∀ j, place screen - (0 : Nat) ≤ j → (place screen ≤ j → Blank (cell screen j)) → Blank (cell screen j)
      exact ⟨on, by omega, fun _ _ => rfl, fun j low blank => blank (by omega)⟩
  | succ count ih =>
      have step := putc_backspace_erases screen on (by omega)
      have moved := step.place
      obtain ⟨stays, placed, kept, blank⟩ := ih (putc backspace screen) step.on (by omega)
      change OnScreen (write (List.replicate count backspace) (putc backspace screen)).screenX
          (write (List.replicate count backspace) (putc backspace screen)).screenY ∧
        place (write (List.replicate count backspace) (putc backspace screen)) = place screen - (count + 1 : Nat) ∧
        (∀ j, j < place screen - (count + 1 : Nat) →
          cell (write (List.replicate count backspace) (putc backspace screen)) j = cell screen j) ∧
        ∀ j, place screen - (count + 1 : Nat) ≤ j → (place screen ≤ j → Blank (cell screen j)) →
          Blank (cell (write (List.replicate count backspace) (putc backspace screen)) j)
      refine ⟨stays, by omega, fun j before => ?_, fun j low old => ?_⟩
      · rw [kept j (by omega), step.before j (by omega)]
      · apply blank j (by omega)
        intro reached
        by_cases here : j = place screen - 1
        · rw [here]
          exact step.erased
        · exact step.blank j (by omega) (old (by omega))

theorem place_determines (screen : Screen) (x y : Int) (on : OnScreen screen.screenX screen.screenY) (column : 0 ≤ x ∧ x < 80)
    (same : place screen = numCols * y + x) : screen.screenX = x ∧ screen.screenY = y := by
  obtain ⟨⟨left, right⟩, _⟩ := on
  rw [place, numCols] at same
  omega

theorem write_placed (bytes : List UInt8) (c : UInt8) (screen : Screen)
    (on : OnScreen (write (bytes ++ [c]) screen).screenX (write (bytes ++ [c]) screen).screenY) :
    Placed (write (bytes ++ [c]) screen) := by
  rw [write_append] at on ⊢
  exact putc_placed c (write bytes screen) on

theorem erasing_inverts (screen : Screen) (w : List UInt8) (s : Nat) (on : OnScreen screen.screenX screen.screenY)
    (ordinary : ∀ c ∈ w, Ordinary c) (scrolled : scrollsIn (w ++ List.replicate w.length backspace) screen = s)
    (room : (s : Int) ≤ screen.screenY) :
    let after := write (w ++ List.replicate w.length backspace) screen
    (after.screenX = screen.screenX ∧ after.screenY = screen.screenY - s) ∧
      (w ≠ [] → Placed after) ∧
      (∀ j, 0 ≤ j → j + 80 * s < place screen → cell after j = cell screen (j + 80 * s)) ∧
      ∀ k < w.length, Blank (cell after (place screen + k - 80 * s)) := by
  intro after
  rw [scrolls_append, scrolls_backspaces, Nat.add_zero] at scrolled
  obtain ⟨typedOn, typedPlace, typedBefore⟩ := write_advances w screen ordinary on
  rw [scrolled] at typedPlace typedBefore
  have enough : (w.length : Int) ≤ place (write w screen) := by
    have left := on.1.1
    simp only [place, numCols] at typedPlace ⊢
    omega
  obtain ⟨stays, placed, kept, blank⟩ := backspaces_erase w.length (write w screen) typedOn enough
  rw [← write_append] at stays placed kept blank
  refine ⟨?_, fun typed => ?_, fun j inside before => ?_, fun k typed => ?_⟩
  · apply place_determines after _ _ stays on.1
    rw [placed, typedPlace, place, numCols]
    omega
  · obtain ⟨count, size⟩ := Nat.exists_eq_succ_of_ne_zero (mt List.length_eq_zero_iff.mp typed)
    have last : w ++ List.replicate w.length backspace = w ++ List.replicate count backspace ++ [backspace] := by
      rw [size, List.replicate_succ', List.append_assoc]
    have on := stays
    rw [last] at on
    change Placed (write (w ++ List.replicate w.length backspace) screen)
    rw [last]
    exact write_placed _ backspace screen on
  · exact (kept j (by omega)).trans (typedBefore j inside before)
  · exact blank _ (by omega) fun beyond => absurd beyond (by omega)

theorem erasing_inverts_at_bottom :
    let screen : Screen := { powerOn (fun _ => 0) with screenX := 79, screenY := 24 }
    let after := write ([104, 105] ++ List.replicate 2 backspace) screen
    (after.screenX = 79 ∧ after.screenY = 23) ∧ Placed after := by
  intro screen after
  have scrolled : scrollsIn ([104, 105] ++ List.replicate 2 backspace) screen = 1 := by decide +kernel
  have ordinary : ∀ c ∈ [(104 : UInt8), 105], Ordinary c :=
    List.forall_mem_cons.mpr ⟨by decide, List.forall_mem_singleton.mpr (by decide)⟩
  have inverted := erasing_inverts screen [104, 105] 1 (by decide) ordinary scrolled (by decide)
  exact ⟨inverted.1, inverted.2.1 (by decide)⟩

end SimpleKernel.Console
