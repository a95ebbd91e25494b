import SimpleKernel.Grep.Reading

set_option autoImplicit false

namespace SimpleKernel.Grep

open Text (each firstLine lastLine)

variable (s fname : CString)

def wanted (file : List UInt8) : List UInt8 :=
  ((file.splitOn newline).filter fun line => s.bytes <:+: line).flatMap (entry fname)

def Prints (file : List UInt8) (stack : Bytes) : Prop :=
  ∃ returned, doOneFile s fname ⟨some file, counted, 0⟩ stack = some (returned, wanted s fname file)

-- The k-th multiple of 1024 is the first one that does not lie behind a
-- newline; it lies inside a line that contains the string.
structure Torn (file : List UInt8) (k : Nat) : Prop where
  earlier : ∀ j, 0 < j → j < k → file[bufSize * j - 1]? = some newline
  before : lastLine newline (file.take (bufSize * k)) ≠ []
  behind : firstLine newline (file.drop (bufSize * k)) ≠ []
  found : s.bytes <:+: lastLine newline (file.take (bufSize * k)) ++ firstLine newline (file.drop (bufSize * k))

def report (line : List UInt8) : List UInt8 := if s.bytes <:+: line then entry fname line else []

theorem filtered_lines (lines : List (List UInt8)) :
    (lines.filter fun line => s.bytes <:+: line).flatMap (entry fname) = lines.flatMap (report s fname) := by
  induction lines with
  | nil => rfl
  | cons line rest ih =>
      rw [List.flatMap_cons, report, ← ih, List.filter_cons]
      by_cases here : s.bytes <:+: line
      · rw [decide_eq_true here, if_pos rfl, if_pos here, List.flatMap_cons]
      · rw [decide_eq_false here, if_neg Bool.false_ne_true, if_neg here, List.nil_append]

theorem wanted_each (file : List UInt8) : wanted s fname file = each newline (report s fname) file :=
  filtered_lines s fname (file.splitOn newline)

theorem short_file (file : List UInt8) (lines : ∀ line ∈ file.splitOn newline, line.length ≤ 1023) : Short file := by
  intro run part clean
  obtain ⟨line, member, inside⟩ := Text.infix_line newline run file part clean
  exact Nat.lt_succ_of_le (Nat.le_trans inside.length_le (lines line member))

theorem do_one_file_reports (file : List UInt8) (stack : Bytes) (noNul : (0 : UInt8) ∉ file) (short : Short file)
    (nonempty : s.bytes ≠ []) :
    ∃ reported, doOneFile s fname ⟨some file, counted, 0⟩ stack = some (0, reported) ∧
      (stack bufSize ≠ newline → reported = each newline (printed s fname) file) ∧
      (stack bufSize = newline → CutReport s fname file reported) := by
  let locals : Locals := ⟨stack, 0, file, []⟩
  have finished (after : Locals) (ended : readLoop s fname counted (file.length + 1) locals = some (0, after)) :
      doOneFile s fname ⟨some file, counted, 0⟩ stack = some (0, after.output) := by
    change (readLoop s fname counted (file.length + 1) locals).map _ = _
    rw [ended]
    rfl
  by_cases stale : stack bufSize = newline
  · obtain ⟨after, reported, ended, output, report⟩ := read_loop_stale s fname (file.length + 1) locals rfl stale noNul short
      (Nat.lt_succ_self _) nonempty
    rw [List.nil_append] at output
    exact ⟨reported, (finished after ended).trans (by rw [output]), fun clear => absurd stale clear, fun _ => report⟩
  · obtain ⟨after, ended, output⟩ := read_loop_whole s fname (file.length + 1) locals [] ⟨rfl, trivial, List.not_mem_nil⟩
      (Or.inl stale) noNul short (Nat.lt_succ_self _) nonempty
    exact ⟨_, finished after ended, fun _ => output, fun same => absurd same stale⟩

theorem prints_reported (file reported : List UInt8) (stack : Bytes)
    (done : doOneFile s fname ⟨some file, counted, 0⟩ stack = some (0, reported)) :
    Prints s fname file stack ↔ reported = wanted s fname file := by
  rw [Prints, done]
  constructor
  · rintro ⟨returned, same⟩
    exact congrArg Prod.snd (Option.some.inj same)
  · intro same
    exact ⟨0, by rw [same]⟩

theorem torn_cut (file : List UInt8) (k : Nat) (torn : Torn s file k) : Cut file k := by
  have behind := torn.behind
  have before := torn.before
  refine ⟨Nat.pos_of_ne_zero ?_, Nat.le_of_not_lt fun beyond => ?_, torn.earlier, fun ends => ?_⟩
  · rintro rfl
    exact before rfl
  · rw [List.drop_eq_nil_of_le (Nat.le_of_lt beyond)] at behind
    exact behind rfl
  · obtain ⟨i, place⟩ : ∃ i, bufSize * k = i + 1 := by
      apply Nat.exists_eq_add_one.mpr
      apply Nat.pos_of_ne_zero
      intro zero
      rw [zero] at before
      exact before rfl
    rw [place, Nat.add_sub_cancel] at ends
    rw [place, List.take_add_one, ends] at before
    exact before (Text.last_line_break newline (file.take i))

theorem cut_unique (file : List UInt8) (first second : Nat) (one : Cut file first) (two : Cut file second) :
    first = second := by
  cases Nat.lt_trichotomy first second with
  | inl less => exact absurd (two.earlier first one.positive less) one.broken
  | inr rest =>
      cases rest with
      | inl same => exact same
      | inr greater => exact absurd (one.earlier second two.positive greater) two.broken

theorem entry_length (line : List UInt8) : (entry fname line).length = fname.bytes.length + 2 + line.length := by
  rw [entry, List.length_append, List.length_append, List.length_append, List.length_singleton, List.length_singleton]
  omega

theorem report_halves (first second : List UInt8) (nonempty : s.bytes ≠ []) :
    report s fname first ++ report s fname second = report s fname (first ++ second) ↔
      ¬ (first ≠ [] ∧ second ≠ [] ∧ s.bytes <:+: first ++ second) := by
  have nothing : report s fname [] = [] := if_neg fun part => nonempty (List.infix_nil.mp part)
  by_cases inside : s.bytes <:+: first ++ second
  · constructor
    · intro same torn
      have lengths := congrArg List.length same
      have left := List.length_pos_iff.mpr torn.1
      have right := List.length_pos_iff.mpr torn.2.1
      rw [report, report, report, if_pos inside, List.length_append, entry_length, List.length_append] at lengths
      split at lengths <;> split at lengths <;>
        simp only [entry_length, List.length_nil] at lengths <;> omega
    · intro whole
      by_cases noFirst : first = []
      · rw [noFirst, nothing, List.nil_append, List.nil_append]
      · by_cases noSecond : second = []
        · rw [noSecond, nothing, List.append_nil, List.append_nil]
        · exact absurd ⟨noFirst, noSecond, inside⟩ whole
  · have noFirst : ¬ s.bytes <:+: first := fun part => inside (part.trans (List.prefix_append _ _).isInfix)
    have noSecond : ¬ s.bytes <:+: second := fun part => inside (part.trans (List.suffix_append _ _).isInfix)
    refine iff_of_true ?_ (fun torn => inside torn.2.2)
    rw [report, report, report, if_neg noFirst, if_neg noSecond, if_neg inside, List.append_nil]

theorem each_absent (file : List UInt8) (print : List UInt8 → List UInt8) (silent : ∀ line, ¬ s.bytes <:+: line →
    print line = [])
    (absent : ¬ s.bytes <:+: file) : each newline print file = [] := by
  apply List.flatMap_eq_nil_iff.mpr
  intro line member
  exact silent line fun part => absent (part.trans (Text.line_infix newline file line member))

theorem report_silent (line : List UInt8) (absent : ¬ s.bytes <:+: line) : report s fname line = [] := if_neg absent

theorem printed_silent (line : List UInt8) (absent : ¬ s.bytes <:+: line) : printed s fname line = [] :=
  if_neg fun both => absent both.2

theorem cut_report_nothing (file reported : List UInt8) (outcome : CutReport s fname file reported)
    (silent : ∀ part, part <:+: file → each newline (printed s fname) part = []) : reported = [] := by
  cases outcome with
  | inl torn =>
      obtain ⟨k, _, reported⟩ := torn
      rw [reported, silent _ (List.take_prefix _ _).isInfix, silent _ (List.drop_suffix _ _).isInfix]
      rfl
  | inr whole => exact whole.2.trans (silent file (List.infix_refl file))

-- An accented first letter is negative as a char and matches no byte.
theorem nothing_printed (file : List UInt8) (accented : ¬ s.memory 0 < 128) : each newline (printed s fname) file = [] :=
  List.flatMap_eq_nil_iff.mpr fun _ _ => if_neg fun both => accented both.1

theorem wanted_some (file : List UInt8) (oneLine : newline ∉ s.bytes) (inside : s.bytes <:+: file) :
    wanted s fname file ≠ [] := by
  intro nothing
  rw [wanted_each] at nothing
  obtain ⟨line, member, part⟩ := Text.infix_line newline s.bytes file inside oneLine
  have silent := List.flatMap_eq_nil_iff.mp nothing line member
  rw [report, if_pos part] at silent
  have length := congrArg List.length silent
  rw [entry_length, List.length_nil] at length
  omega

theorem printed_report (ascii : s.memory 0 < 128) : printed s fname = report s fname := by
  funext line
  exact if_congr (and_iff_right ascii) rfl rfl

theorem cut_report_wanted (file reported : List UInt8) (ascii : s.memory 0 < 128) (nonempty : s.bytes ≠ [])
    (outcome : CutReport s fname file reported) : reported = wanted s fname file ↔ ∀ k, ¬ Torn s file k := by
  rw [CutReport, printed_report s fname ascii] at outcome
  rw [wanted_each]
  cases outcome with
  | inl parts =>
      obtain ⟨k, cut, reported⟩ := parts
      have halves := Text.each_cut newline (report s fname) (file.take (bufSize * k)) (file.drop (bufSize * k))
      rw [List.take_append_drop, report_halves s fname _ _ nonempty] at halves
      rw [reported, halves]
      constructor
      · intro whole other torn
        have same := cut_unique file k other cut (torn_cut s file other torn)
        subst same
        exact whole ⟨torn.before, torn.behind, torn.found⟩
      · intro untorn torn
        exact untorn k ⟨cut.earlier, torn.1, torn.2.1, torn.2.2⟩
  | inr uncut => exact iff_of_true uncut.2 fun k torn => uncut.1 k (torn_cut s file k torn)

theorem nothing_reported (file reported : List UInt8) (stack : Bytes)
    (fresh : stack bufSize ≠ newline → reported = each newline (printed s fname) file)
    (stale : stack bufSize = newline → CutReport s fname file reported)
    (silent : ∀ part, part <:+: file → each newline (printed s fname) part = []) : reported = [] := by
  by_cases same : stack bufSize = newline
  · exact cut_report_nothing s fname file reported (stale same) silent
  · exact (fresh same).trans (silent file (List.infix_refl file))

theorem whole_lines_exact (file : List UInt8) (stack : Bytes) (noNul : (0 : UInt8) ∉ file)
    (short : ∀ line ∈ file.splitOn newline, line.length ≤ 1023) (nonempty : s.bytes ≠ []) (oneLine : newline ∉ s.bytes) :
    Prints s fname file stack ↔
      ¬ s.bytes <:+: file ∨ s.memory 0 < 128 ∧ (stack bufSize = newline → ∀ k, ¬ Torn s file k) := by
  obtain ⟨reported, done, fresh, stale⟩ := do_one_file_reports s fname file stack noNul (short_file file short) nonempty
  rw [prints_reported s fname file reported stack done]
  by_cases inside : s.bytes <:+: file
  · rw [or_iff_right (not_not.mpr inside)]
    by_cases ascii : s.memory 0 < 128
    · rw [and_iff_right ascii]
      by_cases same : stack bufSize = newline
      · rw [cut_report_wanted s fname file reported ascii nonempty (stale same), forall_prop_of_true same]
      · refine iff_of_true ?_ (fun equal => absurd equal same)
        rw [fresh same, wanted_each, printed_report s fname ascii]
    · have nothing := nothing_reported s fname file reported stack fresh stale fun part _ =>
        nothing_printed s fname part ascii
      refine iff_of_false (fun same => ?_) (fun both => ascii both.1)
      exact wanted_some s fname file oneLine inside (same.symm.trans nothing)
  · have nothing := nothing_reported s fname file reported stack fresh stale fun part partOf =>
      each_absent s part _ (printed_silent s fname) fun found => inside (found.trans partOf)
    refine iff_of_true ?_ (Or.inl inside)
    rw [nothing, wanted_each, each_absent s file _ (report_silent s fname) inside]

def fileName : CString := ⟨[102], by simp⟩
def letterB : CString := ⟨[98], by simp⟩

theorem whole_lines_exact_b : Prints letterB fileName [97, 98, 10, 99] (fun _ => 0) :=
  (whole_lines_exact letterB fileName [97, 98, 10, 99] (fun _ => 0) (by decide) (by decide) (by decide) (by decide)).mpr
    (Or.inr ⟨by decide, fun same => absurd same (by decide)⟩)

theorem torn_unprinted (file : List UInt8) (stack : Bytes) (k : Nat) (noNul : (0 : UInt8) ∉ file) (short : Short file)
    (nonempty : s.bytes ≠ []) (ascii : s.memory 0 < 128) (stale : stack bufSize = newline) (torn : Torn s file k) :
    ¬ Prints s fname file stack := by
  obtain ⟨reported, done, _, report⟩ := do_one_file_reports s fname file stack noNul short nonempty
  rw [prints_reported s fname file reported stack done, cut_report_wanted s fname file reported ascii nonempty (report stale)]
  exact fun untorn => untorn k torn

def wordBC : CString := ⟨[98, 99], by simp⟩
def accentedE : CString := ⟨[0xE9], by simp⟩

def longFile : List UInt8 := List.replicate 1000 97 ++ newline :: (List.replicate 23 98 ++ [99, newline])

theorem torn_line_lost :
    ¬ Prints wordBC fileName longFile (fun _ => newline) ∧ ¬ Prints accentedE fileName [0xE9] (fun _ => 0) := by
  have noNul : (0 : UInt8) ∉ longFile := by decide +kernel
  have lines : ∀ line ∈ longFile.splitOn newline, line.length ≤ 1023 := by decide +kernel
  have torn : Torn wordBC longFile 1 :=
    ⟨fun _ low high => absurd high (Nat.not_lt.mpr low), by decide +kernel, by decide +kernel, by decide +kernel⟩
  have done : doOneFile accentedE fileName ⟨some [0xE9], counted, 0⟩ (fun _ => 0) = some (0, []) := by decide +kernel
  constructor
  · exact torn_unprinted wordBC fileName longFile _ 1 noNul (short_file longFile lines) (by decide) (by decide) rfl torn
  · rw [prints_reported accentedE fileName _ _ _ done]
    exact (wanted_some accentedE fileName [0xE9] (by decide) (List.infix_refl _)).symm

end SimpleKernel.Grep
