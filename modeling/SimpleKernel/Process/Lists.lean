import SimpleKernel.Library.Placement
import SimpleKernel.Process.Lifetimes

set_option autoImplicit false

namespace SimpleKernel.Process

open Keyboard (Term)

def Machine.places (m : Machine) (place : Term × Fin 4) : Option Slot := (m.terminals place.1).processes place.2

structure Roster (m : Machine) : Prop where
  exact : Placement.Exact m.places m.alive
  unstarted : ∀ t, (m.terminals t).terminalFlag = true → ∀ i : Fin 4, (m.terminals t).processes i = none

theorem find_entry_none (processes : Nat → Option Slot) (sought : Option Slot) (left i : Nat)
    (missing : findEntry processes sought left i = none) : ∀ k, i ≤ k → k < i + left → processes k ≠ sought := by
  induction left generalizing i with
  | zero =>
      intro k low high
      omega
  | succ left ih =>
      simp only [findEntry] at missing
      split at missing
      · cases missing
      · rename_i other
        intro k low high
        by_cases here : k = i
        · subst here
          exact other
        · exact ih (i + 1) missing k (by omega) (by omega)

theorem replace_entry_found (processes : Nat → Option Slot) (sought replacement : Option Slot)
    (present : ∃ i : Fin 4, processes i = sought) :
    ∃ k : Fin 4, processes k = sought ∧ replaceEntry sought replacement processes = Function.update processes k
      replacement := by
  obtain ⟨i, here⟩ := present
  rw [replaceEntry]
  cases found : findEntry processes sought 4 0 with
  | none => exact absurd here (find_entry_none processes sought 4 0 found i (Nat.zero_le _) (by omega))
  | some k =>
      obtain ⟨_, bound, same⟩ := find_entry_first processes sought 4 0 k found
      exact ⟨⟨k, by omega⟩, same, rfl⟩

theorem places_update (m m' : Machine) (t : Term) (k : Fin 4) (entry : Option Slot) (flag : Bool)
    (same : m'.terminals = Function.update m.terminals t ⟨Function.update (m.terminals t).processes k entry, flag⟩) :
    m'.places = Function.update m.places (t, k) entry := by
  funext place
  obtain ⟨t', i⟩ := place
  simp only [Machine.places, same]
  by_cases here : t' = t
  · subst here
    simp only [Function.update_self]
    by_cases at_k : i = k
    · subst at_k
      simp only [Function.update_self]
    · have apart : (i : Nat) ≠ k := fun equal => at_k (Fin.ext equal)
      have pair : ((t', i) : Term × Fin 4) ≠ (t', k) := fun equal => at_k (Prod.mk.inj equal).2
      rw [Function.update_of_ne apart, Function.update_of_ne pair]
      rfl
  · have pair : ((t', i) : Term × Fin 4) ≠ (t, k) := fun equal => here (Prod.mk.inj equal).1
    rw [Function.update_of_ne here, Function.update_of_ne pair]
    rfl

theorem register_terminals (j : Slot) (m : Machine) : (m.register j).terminals = Function.update m.terminals m.activeTerminal
    ⟨if m.active.terminalFlag then Function.update m.active.processes 0 (some j)
      else replaceEntry none (some j) m.active.processes, false⟩ := by
  by_cases flag : m.active.terminalFlag = true
  · rw [Machine.register, if_pos flag, if_pos flag]
  · have lowered : m.active.terminalFlag = false := by simpa using flag
    rw [Machine.register, if_neg flag, if_neg flag, ← lowered]

theorem start_terminals (caller : Caller) (creator : Option Slot) (q j : Slot) (args : List UInt8) (entryAddress : Nat)
    (m : Machine) : (m.start caller creator q j args entryAddress).terminals = (m.register j).terminals := by
  have stored : ∀ state : Machine, (state.storeShellPid j).terminals = state.terminals := by
    intro state
    rw [Machine.storeShellPid]
    split <;> rfl
  calc (m.start caller creator q j args entryAddress).terminals
      = ((m.occupy j).storeShellPid j).terminals := rfl
    _ = (m.occupy j).terminals := stored _
    _ = (m.register j).terminals := by
      rw [Machine.occupy, register_terminals, register_terminals]
      rfl

theorem register_place (j : Slot) (m : Machine)
    (room : m.active.terminalFlag = true ∨ ∃ i : Fin 4, m.active.processes i = none) :
    ∃ k : Fin 4, (m.active.terminalFlag = true ∨ m.active.processes k = none) ∧ (m.register j).terminals =
      Function.update m.terminals m.activeTerminal ⟨Function.update m.active.processes k (some j), false⟩ := by
  by_cases flag : m.active.terminalFlag = true
  · refine ⟨⟨0, by decide⟩, Or.inl flag, ?_⟩
    rw [register_terminals, if_pos flag]
  · obtain ⟨k, vacant, replaced⟩ := replace_entry_found m.active.processes none (some j) (room.resolve_left flag)
    exact ⟨k, Or.inr vacant, by rw [register_terminals, if_neg flag, replaced]⟩

theorem leave_terminals (q : Slot) (m : Machine) : (m.leave q).terminals = Function.update m.terminals m.activeTerminal
    ⟨replaceEntry (some (m.pcbs q).pid) none m.active.processes, m.active.terminalFlag⟩ := by
  obtain ⟨shells, same⟩ := pass_shell_changes q (m.unlist (m.pcbs q).pid)
  rw [Machine.leave, same]
  rfl

theorem roster_transfer (m m' : Machine) (roster : Roster m) (terminals : m'.terminals = m.terminals)
    (alive : ∀ p, m'.alive p ↔ m.alive p) : Roster m' := by
  have places : m'.places = m.places := by
    funext place
    rw [Machine.places, terminals]
    rfl
  constructor
  · rw [places]
    exact Placement.exact_congr _ _ _ alive roster.exact
  · rw [terminals]
    exact roster.unstarted

theorem roster_start (caller : Caller) (creator : Option Slot) (q j : Slot) (args : List UInt8) (entryAddress : Nat)
    (m : Machine) (control : Control) (roster : Roster m) (fresh : ¬ m.alive j)
    (room : m.active.terminalFlag = true ∨ ∃ i : Fin 4, m.active.processes i = none) :
    Roster { m.start caller creator q j args entryAddress with control := control } := by
  obtain ⟨k, vacant, terminals⟩ := register_place j m room
  have emptied : m.places (m.activeTerminal, k) = none := by
    rcases vacant with flag | none
    · exact roster.unstarted m.activeTerminal flag k
    · exact none
  have placed := places_update m { m.start caller creator q j args entryAddress with control := control } m.activeTerminal k
    (some j) false ((start_terminals caller creator q j args entryAddress m).trans terminals)
  constructor
  · rw [placed]
    exact Placement.exact_congr _ _ _ (fun p => start_alive caller creator q j p args entryAddress m)
      (Placement.exact_put m.places m.alive roster.exact _ j emptied fresh)
  · intro t flag i
    dsimp only at flag ⊢
    rw [start_terminals, terminals] at flag ⊢
    by_cases here : t = m.activeTerminal
    · subst here
      simp at flag
    · rw [Function.update_of_ne here] at flag ⊢
      exact roster.unstarted t flag i

theorem roster_leave (q : Slot) (m : Machine) (roster : Roster m) (own : (m.pcbs q).pid = q)
    (listed : ∃ i : Fin 4, m.active.processes i = some q) : Roster ((m.note (.halted q)).leave q) := by
  obtain ⟨k, here, replaced⟩ := replace_entry_found m.active.processes (some q) none listed
  have terminals : ((m.note (.halted q)).leave q).terminals = Function.update m.terminals m.activeTerminal
      ⟨Function.update m.active.processes k none, m.active.terminalFlag⟩ := by
    have left := leave_terminals q (m.note (.halted q))
    have pid : ((m.note (.halted q)).pcbs q).pid = q := own
    rw [pid] at left
    rw [left, ← replaced]
    rfl
  constructor
  · rw [places_update m _ m.activeTerminal k none m.active.terminalFlag terminals]
    exact Placement.exact_congr _ _ _ (fun p => leave_alive q p m)
      (Placement.exact_take m.places m.alive roster.exact _ q here)
  · intro t flag i
    rw [terminals] at flag ⊢
    by_cases current : t = m.activeTerminal
    · subst current
      simp only [Function.update_self] at flag ⊢
      by_cases at_k : (i : Nat) = k
      · rw [at_k, Function.update_self]
      · rw [Function.update_of_ne at_k]
        exact roster.unstarted _ flag i
    · rw [Function.update_of_ne current] at flag ⊢
      exact roster.unstarted t flag i

end SimpleKernel.Process
