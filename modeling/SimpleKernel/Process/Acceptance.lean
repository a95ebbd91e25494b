import SimpleKernel.FileSystem.Lookup
import SimpleKernel.FileSystem.Range
import SimpleKernel.Process.Arguments
import SimpleKernel.Process.Failure

set_option autoImplicit false

namespace SimpleKernel.Process

open Paging (Tables)
open FileSystem (Image FirstNamed BlockPresent ReadOutcome inodeCount fileLength fileByte fileSlice dentryFiletype dentryInode
  numMaxDentries entryName slotDentry readDentryByName readData read_dentry_by_name_some read_data_outcome
  block_present_small file_slice_get file_slice_length word_bound)

-- The part of a file that execute checks: 28 bytes, all in the first block. A
-- length from 2^31 on is a negative one.
structure WholeHeader (image : Image) (inode : Nat) : Prop where
  inodeInRange : inode < inodeCount image
  firstBlock : BlockPresent image inode 0
  long : 28 ≤ fileLength image inode ∧ fileLength image inode < 2 ^ 31

structure ElfFile (image : Image) (inode entry : Nat) : Prop where
  whole : WholeHeader image inode
  magicBytes : ∀ i < 4, fileByte image inode i = magic.getD i 0
  entryBytes : entry = (fileByte image inode 24).toNat + 2 ^ 8 * (fileByte image inode 25).toNat +
    2 ^ 16 * (fileByte image inode 26).toNat + 2 ^ 24 * (fileByte image inode 27).toNat

-- Any slot of that name will do, not only the first one.
def Names (image : Image) (word : List UInt8) (entry : Nat) : Prop :=
  ∃ k < numMaxDentries, entryName image k = word ∧ dentryFiletype image k = 2 ∧ ElfFile image (dentryInode image k) entry

def Machine.hasFree (m : Machine) : Prop := ∃ j, m.pcbState j = false

def Started (p : Slot) (m next : Machine) (entry : Nat) : Prop :=
  ∃ j, m.pcbState j = false ∧ next.control = .user j ∧ next.history = .started j (some p) entry :: m.history

def Halted (p : Slot) (m next : Machine) : Prop := ∃ since, next.history = since ++ .halted p :: m.history

def Refused (m next : Machine) : Prop :=
  next.control = m.control ∧ (next.history = m.history ∨ next.history = .refused :: m.history)

-- execute starts what the word names, halts only for quit, and otherwise returns.
structure Answers (image : Image) (p : Slot) (word : List UInt8) (m next : Machine) : Prop where
  starts : (∃ entry, Started p m next entry) ↔ (∃ entry, Names image word entry) ∧ m.hasFree
  entries : ∀ entry, Started p m next entry → Names image word entry
  halts : Halted p m next → word = quitCommand.bytes
  returns : (¬ ∃ entry, Started p m next entry) → Halted p m next ∨ Refused m next

-- How many bytes of the file the read of 40 stores: one more than its length.
def visible (image : Image) (inode : Nat) : Nat :=
  if inode < inodeCount image ∧ BlockPresent image inode 0 then min 40 (fileLength image inode + 1) else 0

def seen (image : Image) (inode : Nat) (exeData : Bytes) (i : Nat) : UInt8 :=
  if i < visible image inode then fileByte image inode i else exeData i

-- What execute takes for the program: the first slot of the name, if it is a
-- regular file and the magic stands in front of what execute sees of it.
structure Chosen (image : Image) (exeData : Bytes) (word : List UInt8) (k : Nat) : Prop where
  first : FirstNamed image word k
  regular : dentryFiletype image k = 2
  magicSeen : ∀ i < 4, seen image (dentryInode image k) exeData i = magic.getD i 0

structure Startable (image : Image) (exeData : Bytes) (paging : Tables) (word : List UInt8) : Prop where
  named : ∀ k, Chosen image exeData word k → Names image word (entryAddress (seen image (dentryInode image k) exeData))
  fits : ∀ k, Chosen image exeData word k → fitsPage image ⟨dentryInode image k, 0⟩ paging = true
  chosen : (∃ entry, Names image word entry) → ∃ k, Chosen image exeData word k

def Understood (image : Image) (exeData : Bytes) (command : CString) (q : Slot) (m : Machine) : Prop :=
  (arguments command).length < 128 ∧
    if isQuit command = true ∧ m.pcbState (m.pcbs q).pid = true then
      (firstWord command).bytes = quitCommand.bytes ∧ ¬ ((∃ entry, Names image (firstWord command).bytes entry) ∧ m.hasFree)
    else m.hasFree → Startable image exeData m.paging (firstWord command).bytes

theorem first_block (image : Image) (inode i : Nat) (low : i < 4096) :
    BlockPresent image inode i ↔ BlockPresent image inode 0 := by
  have zero : i / 4096 = 0 / 4096 := by omega
  rw [block_present_small image inode i (by omega), block_present_small image inode 0 (by decide), zero]

theorem header_seen (image : Image) (inode : Nat) (exeData : Bytes) (i : Nat) :
    header image inode exeData i = seen image inode exeData i := by
  rw [header, seen]
  dsimp only
  by_cases valid : inode < inodeCount image
  · have outcome := read_data_outcome image inode 0 40 valid (by decide) (Nat.zero_le _) (by omega)
    generalize readData image inode 0 40 = result at outcome
    cases outcome with
    | finished passed =>
        have here := passed.present 0 (Nat.le_refl 0) (by decide)
        have within := passed.within
        have limit : visible image inode = 40 := (if_pos ⟨valid, here⟩).trans (by omega)
        rw [limit]
        exact (file_slice_get image inode 0 40 i (exeData i)).trans (by rw [Nat.zero_add])
    | ended count early passed atEnd here =>
        have first := (first_block image inode (0 + count) (by omega)).mp here
        have limit : visible image inode = count + 1 := (if_pos ⟨valid, first⟩).trans (by omega)
        rw [limit]
        exact (file_slice_get image inode 0 (count + 1) i (exeData i)).trans (by rw [Nat.zero_add])
    | blocked count early passed missing =>
        have first : ¬ BlockPresent image inode 0 := fun here =>
          missing ((first_block image inode (0 + count) (by omega)).mpr here)
        have empty : count = 0 := by
          by_contra some
          exact first (passed.present 0 (Nat.le_refl 0) (by omega))
        subst empty
        have none : visible image inode = 0 := if_neg fun both => first both.2
        rw [none]
        rfl
  · have none : visible image inode = 0 := if_neg fun both => valid both.1
    rw [none, readData, if_pos (Nat.not_lt.mp valid)]
    rfl

theorem whole_seen (image : Image) (inode : Nat) (exeData : Bytes) (i : Nat) (whole : WholeHeader image inode)
    (low : i < 28) :
    seen image inode exeData i = fileByte image inode i := by
  have long := whole.long
  have limit : visible image inode = min 40 (fileLength image inode + 1) := if_pos ⟨whole.inodeInRange, whole.firstBlock⟩
  rw [seen, limit, if_pos (by omega)]

theorem header_eq_seen (image : Image) (inode : Nat) (exeData : Bytes) :
    header image inode exeData = seen image inode exeData :=
  funext (header_seen image inode exeData)

theorem has_magic_iff (header : Bytes) : hasMagic header = true ↔ ∀ i < 4, header i = magic.getD i 0 := by
  simp only [hasMagic, List.all_eq_true, List.mem_range, beq_iff_eq]

theorem elf_file_iff (image : Image) (inode entry : Nat) (exeData : Bytes) (whole : WholeHeader image inode) :
    ElfFile image inode entry ↔
      (∀ i < 4, seen image inode exeData i = magic.getD i 0) ∧ entry = entryAddress (seen image inode exeData) := by
  have content := fun i => whole_seen image inode exeData i whole
  have sum : ∀ a b c d : Nat, 2 ^ 24 * d + 2 ^ 16 * c + 2 ^ 8 * b + a = a + 2 ^ 8 * b + 2 ^ 16 * c + 2 ^ 24 * d := by
    intro a b c d
    omega
  rw [entryAddress, content 24 (by decide), content 25 (by decide), content 26 (by decide), content 27 (by decide), sum]
  constructor
  · intro elf
    exact ⟨fun i low => (content i (by omega)).trans (elf.magicBytes i low), elf.entryBytes⟩
  · rintro ⟨magicSeen, entryEq⟩
    exact ⟨whole, fun i low => (content i (by omega)).symm.trans (magicSeen i low), entryEq⟩

theorem find_program_some (image : Image) (exeData : Bytes) (cmds : CString) (program : Program) :
    findProgram image exeData cmds = some program ↔ ∃ k, Chosen image exeData cmds.bytes k ∧
      program = ⟨dentryInode image k, entryAddress (seen image (dentryInode image k) exeData)⟩ := by
  constructor
  · intro found
    rw [findProgram] at found
    cases named : readDentryByName image cmds with
    | none =>
        rw [named] at found
        cases found
    | some dentry =>
        obtain ⟨k, first, same⟩ := (read_dentry_by_name_some image cmds dentry).mp named
        subst same
        rw [named] at found
        dsimp only [slotDentry] at found
        rw [header_eq_seen] at found
        by_cases regular : dentryFiletype image k = 2
        · rw [if_neg (fun other => other regular)] at found
          split at found
          · rename_i accepted
            exact ⟨k, ⟨first, regular, (has_magic_iff _).mp accepted⟩, (Option.some.inj found).symm⟩
          · cases found
        · rw [if_pos regular] at found
          cases found
  · rintro ⟨k, chosen, same⟩
    have named := (read_dentry_by_name_some image cmds (slotDentry image k)).mpr ⟨k, chosen.first, rfl⟩
    have accepted := (has_magic_iff _).mpr chosen.magicSeen
    rw [findProgram, named]
    dsimp only [slotDentry]
    rw [header_eq_seen, if_neg (fun other => other chosen.regular), if_pos accepted, same]

theorem startable_iff (image : Image) (exeData : Bytes) (paging : Tables) (cmds : CString) :
    Startable image exeData paging cmds.bytes ↔
      (∀ program, findProgram image exeData cmds = some program →
        Names image cmds.bytes program.entryAddress ∧ fitsPage image program paging = true) ∧
      ((∃ entry, Names image cmds.bytes entry) → ∃ program, findProgram image exeData cmds = some program) := by
  constructor
  · intro startable
    constructor
    · intro program found
      obtain ⟨k, chosen, rfl⟩ := (find_program_some image exeData cmds program).mp found
      exact ⟨startable.named k chosen, startable.fits k chosen⟩
    · intro some
      obtain ⟨k, chosen⟩ := startable.chosen some
      exact ⟨_, (find_program_some image exeData cmds _).mpr ⟨k, chosen, rfl⟩⟩
  · rintro ⟨found, chosen⟩
    have program := fun k (here : Chosen image exeData cmds.bytes k) =>
      found _ ((find_program_some image exeData cmds _).mpr ⟨k, here, rfl⟩)
    exact {
      named := fun k here => (program k here).1
      fits := fun k here => (program k here).2
      chosen := fun some => by
        obtain ⟨_, again⟩ := chosen some
        obtain ⟨k, here, _⟩ := (find_program_some image exeData cmds _).mp again
        exact ⟨k, here⟩ }

theorem startable_distinct (image : Image) (exeData : Bytes) (paging : Tables) (word : List UInt8)
    (nonempty : word ≠ []) (distinct : FileSystem.DistinctNames image)
    (whole : ∀ k, Chosen image exeData word k →
      WholeHeader image (dentryInode image k) ∧ fitsPage image ⟨dentryInode image k, 0⟩ paging = true) :
    Startable image exeData paging word where
  named := fun k here =>
    ⟨k, here.first.inside, here.first.named, here.regular,
      (elf_file_iff image _ _ exeData (whole k here).1).mpr ⟨here.magicSeen, rfl⟩⟩
  fits := fun k here => (whole k here).2
  chosen := by
    rintro ⟨entry, k, inside, named, regular, elf⟩
    refine ⟨k, ⟨inside, named, fun earlier below same => ?_⟩, regular,
      ((elf_file_iff image _ entry exeData elf.whole).mp elf).1⟩
    have again := distinct earlier (by omega) k inside (by rw [named]; exact nonempty) (same.trans named.symm)
    omega

theorem has_free_slot (m : Machine) : m.hasFree ↔ freeSlot m.pcbState ≠ none := by
  rw [Ne, free_slot_none, Machine.hasFree]
  simp

theorem not_halted (p : Slot) (m next : Machine) (note : Note) (other : note ≠ .halted p)
    (history : next.history = m.history ∨ next.history = note :: m.history) : ¬ Halted p m next := by
  rintro ⟨since, grown⟩
  have length := congrArg List.length grown
  rw [List.length_append, List.length_cons] at length
  rcases history with same | noted
  · rw [same] at length
    omega
  · rw [noted, List.length_cons] at length
    have empty : since = [] := List.eq_nil_of_length_eq_zero (by omega)
    rw [noted, empty] at grown
    exact other (List.cons.inj grown).1

theorem not_started (p : Slot) (m next : Machine) (refused : Refused m next) (entry : Nat) : ¬ Started p m next entry := by
  rintro ⟨j, _, _, started⟩
  rcases refused.2 with same | noted
  · exact absurd (same.symm.trans started).symm (List.cons_ne_self _ _)
  · cases (List.cons.inj (noted.symm.trans started)).1

theorem never_started (p : Slot) (m next : Machine) (elsewhere : ∀ j, next.control ≠ .user j) :
    ¬ ∃ entry, Started p m next entry := by
  rintro ⟨entry, j, _, control, _⟩
  exact elsewhere j control

theorem refused_answers (image : Image) (p : Slot) (word : List UInt8) (m next : Machine) (refused : Refused m next) :
    Answers image p word m next ↔ ¬ ((∃ entry, Names image word entry) ∧ m.hasFree) := by
  have never : ¬ ∃ entry, Started p m next entry := fun some => some.elim (not_started p m next refused)
  constructor
  · intro answers both
    exact never (answers.starts.mpr both)
  · intro nothing
    exact {
      starts := iff_of_false never nothing
      entries := fun entry started => absurd started (not_started p m next refused entry)
      halts := fun halted => absurd halted (not_halted p m next .refused Note.noConfusion refused.2)
      returns := fun _ => Or.inr refused }

theorem astray_answers (image : Image) (p : Slot) (word : List UInt8) (m next : Machine) (running : m.control = .user p)
    (elsewhere : ∀ j, next.control ≠ .user j) (alive : ¬ Halted p m next) : ¬ Answers image p word m next := by
  intro answers
  cases answers.returns (never_started p m next elsewhere) with
  | inl halted => exact alive halted
  | inr refused => exact elsewhere p (refused.1.trans running)

theorem started_answers (image : Image) (p : Slot) (word : List UInt8) (m next : Machine) (address : Nat)
    (started : Started p m next address) : Answers image p word m next ↔ Names image word address := by
  constructor
  · intro answers
    exact answers.entries address started
  · intro named
    obtain ⟨j, vacant, control, noted⟩ := started
    exact {
      starts := iff_of_true ⟨address, j, vacant, control, noted⟩ ⟨⟨address, named⟩, j, vacant⟩
      entries := by
        rintro entry ⟨_, _, _, history⟩
        have same := (List.cons.inj (history.symm.trans noted)).1
        simp only [Note.started.injEq] at same
        rw [same.2.2]
        exact named
      halts := fun halted => absurd halted (not_halted p m next _ Note.noConfusion (Or.inr noted))
      returns := fun none => absurd ⟨address, j, vacant, control, noted⟩ none }

theorem launch_answers (image : Image) (exeData : Bytes) (command : CString) (p q : Slot) (m : Machine)
    (running : m.control = .user p) :
    Answers image p (firstWord command).bytes m (m.launch image exeData .syscall (some p) q command).2 ↔
      (m.hasFree → Startable image exeData m.paging (firstWord command).bytes) := by
  rw [startable_iff, Machine.launch]
  cases found : findProgram image exeData (firstWord command) with
  | none =>
      refine (refused_answers image p _ m m ⟨rfl, Or.inl rfl⟩).trans ?_
      constructor
      · intro nothing free
        exact ⟨fun program same => (by cases same), fun some => absurd ⟨some, free⟩ nothing⟩
      · rintro startable ⟨some, free⟩
        obtain ⟨program, again⟩ := (startable free).2 some
        cases again
  | some program =>
      cases free : freeSlot m.pcbState with
      | none =>
          have full : ¬ m.hasFree := fun some => (has_free_slot m).mp some free
          have refused : Refused m (m.note .refused) := ⟨rfl, Or.inr rfl⟩
          exact iff_of_true ((refused_answers image p _ m _ refused).mpr fun both => full both.2) fun some => absurd some full
      | some j =>
          have vacant := free_slot_free m.pcbState j free
          by_cases fits : fitsPage image program m.paging = true
          · have started : Started p m (m.start .syscall (some p) q j (arguments command) program.entryAddress)
                program.entryAddress := ⟨j, vacant, rfl, rfl⟩
            simp only [if_pos fits]
            rw [started_answers image p _ m _ program.entryAddress started]
            constructor
            · intro named _
              refine ⟨fun again same => ?_, fun _ => ⟨program, rfl⟩⟩
              cases same
              exact ⟨named, fits⟩
            · intro all
              exact ((all ⟨j, vacant⟩).1 program rfl).1
          · -- the loader faults
            simp only [if_neg fits]
            refine iff_of_false ?_ fun all => fits ((all ⟨j, vacant⟩).1 program rfl).2
            exact astray_answers image p _ m _ running (fun _ => Control.noConfusion)
              (not_halted p m _ _ Note.noConfusion (Or.inr rfl))

theorem quit_answers (image : Image) (exeData : Bytes) (p q : Slot) (word : List UInt8) (m halted : Machine)
    (done : m.halt image exeData 0 p q = some halted) :
    Answers image p word m halted ↔ word = quitCommand.bytes ∧ ¬ ((∃ entry, Names image word entry) ∧ m.hasFree) := by
  obtain ⟨since, grown⟩ := (later_halt image exeData 0 p q p m halted done).history
  have ended : Halted p m halted := ⟨since, grown.symm⟩
  have fresh : ∀ entry, ¬ Started p m halted entry := by
    rintro entry ⟨j, _, _, started⟩
    rw [started] at grown
    have length := congrArg List.length grown
    simp only [Machine.note, List.length_append, List.length_cons] at length
    have empty : since = [] := List.eq_nil_of_length_eq_zero (by omega)
    rw [empty] at grown
    cases (List.cons.inj grown).1
  have never : ¬ ∃ entry, Started p m halted entry := fun some => some.elim fresh
  constructor
  · intro answers
    exact ⟨answers.halts ended, fun both => never (answers.starts.mpr both)⟩
  · rintro ⟨quit, nothing⟩
    exact {
      starts := iff_of_false never nothing
      entries := fun entry started => absurd started (fresh entry)
      halts := fun _ => quit
      returns := fun _ => Or.inl ended }

def quitterCommand : CString := ⟨[113, 117, 105, 116, 120], by simp⟩

theorem quitter_halts :
    shellBoot.control = .user firstSlot ∧
      ¬ Answers shellImage firstSlot (firstWord quitterCommand).bytes shellBoot
        (shellBoot.execute shellImage (fun _ => 0) (some quitterCommand) firstSlot firstSlot) := by
  refine ⟨by decide +kernel, fun answers => ?_⟩
  have halted : (shellBoot.halt shellImage (fun _ => 0) 0 firstSlot firstSlot).isSome = true := by decide +kernel
  obtain ⟨next, done⟩ := Option.isSome_iff_exists.mp halted
  have fits : overruns quitterCommand = false := by decide +kernel
  have word : ¬ (firstWord quitterCommand).bytes = [] := by decide +kernel
  have quit : isQuit quitterCommand = true := by decide +kernel
  rw [Machine.execute] at answers
  simp only [fits, quit, done, if_neg word, Bool.false_eq_true, if_false, if_true] at answers
  have same := ((quit_answers shellImage (fun _ => 0) firstSlot firstSlot _ shellBoot next done).mp answers).1
  revert same
  decide +kernel

theorem execute_answers_exact (image : Image) (exeData : Bytes) (command : CString) (p q : Slot) (m : Machine)
    (running : m.control = .user p) (nonempty : 1 ≤ (firstWord command).bytes.length)
    (short : (firstWord command).bytes.length ≤ 31) :
    Answers image p (firstWord command).bytes m (m.execute image exeData (some command) p q) ↔
      Understood image exeData command q m := by
  have word : ¬ (firstWord command).bytes = [] := by
    intro empty
    rw [empty] at nonempty
    cases nonempty
  rw [Understood, Machine.execute]
  by_cases long : 128 ≤ (arguments command).length
  · have tooLong : overruns command = true := by simp [overruns, word, long]
    rw [if_pos tooLong]
    refine iff_of_false ?_ fun understood => absurd understood.1 (Nat.not_lt.mpr long)
    exact astray_answers image p _ m _ running (fun _ => Control.noConfusion)
      (not_halted p m _ .refused Note.noConfusion (Or.inl rfl))
  · have fits : ¬ overruns command = true := by
      have below : ¬ 32 ≤ (firstWord command).bytes.length := by omega
      simp [overruns, below, long]
    rw [if_neg fits, if_neg word, and_iff_right (Nat.lt_of_not_le long)]
    by_cases quit : isQuit command = true
    · rw [if_pos quit]
      cases done : m.halt image exeData 0 p q with
      | none =>
          have unused := (halt_none_iff image exeData 0 p q m).mp done
          have failed : ¬ (isQuit command = true ∧ m.pcbState (m.pcbs q).pid = true) := by simp [unused]
          rw [if_neg failed]
          exact launch_answers image exeData command p q m running
      | some halted =>
          have inUse : m.pcbState (m.pcbs q).pid = true := by
            have used := mt (halt_none_iff image exeData 0 p q m).mpr (by simp [done])
            simpa using used
          rw [if_pos ⟨quit, inUse⟩]
          exact quit_answers image exeData p q _ m halted done
    · rw [if_neg quit, if_neg (fun both => quit both.1)]
      exact launch_answers image exeData command p q m running

def wholeShell : Image := FileSystem.setLength 28 shellImage

theorem execute_answers_exact_shell :
    Answers wholeShell firstSlot (firstWord shellCommand).bytes shellBoot
      (shellBoot.execute wholeShell (fun _ => 0) (some shellCommand) firstSlot firstSlot) := by
  have quit : isQuit shellCommand = false := by decide +kernel
  have only : ∀ j < numMaxDentries, entryName wholeShell j ≠ [] → j = 0 := by decide +kernel
  have inode : dentryInode wholeShell 0 = 0 := by decide +kernel
  refine (execute_answers_exact wholeShell (fun _ => 0) shellCommand firstSlot firstSlot shellBoot (by decide +kernel)
    (by decide +kernel) (by decide +kernel)).mpr ⟨by decide +kernel, ?_⟩
  rw [if_neg (by simp [quit])]
  intro _
  refine startable_distinct wholeShell _ _ _ (by decide +kernel) ?_ ?_
  · intro j insideJ k insideK named same
    rw [only j insideJ (same ▸ named), only k insideK named]
  · intro k chosen
    have named : entryName wholeShell k ≠ [] := by
      rw [chosen.first.named]
      decide +kernel
    rw [only k chosen.first.inside named, inode]
    exact ⟨⟨by decide +kernel, by decide +kernel, by decide +kernel⟩, by decide +kernel⟩

end SimpleKernel.Process
