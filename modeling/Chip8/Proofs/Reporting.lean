import Chip8.Proofs.Finding
import Chip8.Proofs.Trials

/-!
# Reports of steps

A session that reports announces every step before it tries it. The announcement reads the
word at the program counter by itself and looks it up in the plain set, whatever set the
machine has. So two readers have to agree, the one of the reports and the one of the step.

On the address and the word they always do: the announcement reads the memory of the very
machine that makes the step, however the program has changed it before. On the mnemonic they
agree for all instructions of the plain set. The two instructions that only the extended set
has are shown as calls of host routines, although the machine switches its screen.
-/

namespace Chip8

namespace Session

variable {limits : Limits} {start session trial : Session} {before : List Session}

/-- The line of a report that shows a mnemonic. -/
def lineOf (address : Nat) (word : Word) (mnemonic : String) : String :=
  Hex.padded 3 address ++ ": " ++ Hex.padded 4 word.toNat ++ "  " ++ mnemonic

/-- The line tells which mnemonic it shows. -/
theorem lineOf_inj {address : Nat} {word : Word} {shown other : String} :
    lineOf address word shown = lineOf address word other ↔ shown = other := by
  constructor
  · intro same
    apply String.toList_inj.mp
    have texts := congrArg String.toList same
    simp only [lineOf, String.toList_append] at texts
    exact List.append_cancel_left texts
  · exact congrArg _

/-- Where a word can be fetched, an announcement shows it. -/
theorem announce_reports {word : Word} (fetched : session.machine.fetch.result = .ok word) :
    session.announce.reports =
      session.reports.push (report session.machine.registers.pc.toNat word) := by
  have shown : (shownWord session.machine).result = .ok word := by
    by_cases outside : session.machine.registers.pc % 2 = 1 ∨
        session.machine.memory.size ≤ session.machine.registers.pc.toNat + 1
    · rw [Machine.fetch_result, if_pos outside] at fetched
      cases fetched
    · have bound := Nat.lt_of_not_le (not_or.mp outside).2
      simp only [Machine.fetch, outside, if_false] at fetched
      simp only [shownWord, bound, if_true]
      exact fetched
  rw [announce, shown]

/-- A step adds to the reports at most that a word is skipped. -/
theorem step_reports (session : Session) (skipsUnknown : Bool) :
    session.reports.toList <+: (session.step skipsUnknown).reports.toList := by
  unfold step
  dsimp only
  split
  · exact List.prefix_rfl
  · exact List.prefix_rfl
  · unfold fail
    split
    · rw [Array.toList_push]
      exact List.prefix_append ..
    · exact List.prefix_rfl

/-- To close a frame reports nothing. -/
theorem closeFrame_reports (limits : Limits) (session : Session) :
    (session.closeFrame limits).reports = session.reports := by
  unfold closeFrame
  split
  · rfl
  · dsimp only
    split
    · rfl
    · split <;> rfl

/-- The report of each step whose word can be fetched stays where it was made. -/
theorem Course.reported (course : Course limits start before session)
    (reports : limits.reports = true) (member : trial ∈ before) {word : Word}
    (fetched : trial.machine.fetch.result = .ok word) :
    trial.reports.toList ++ [report trial.machine.registers.pc.toNat word] <+:
      session.reports.toList := by
  induction course with
  | begun => cases member
  | limited _ _ _ inductionHypothesis => exact inductionHypothesis member
  | closed _ _ inductionHypothesis =>
    rw [closeFrame_reports]
    exact inductionHypothesis member
  | @tried before session _ _ inductionHypothesis =>
    have ready : session.ready limits = session.announce := by
      rw [Session.ready, if_pos reports]
    rw [ready]
    have stepped := step_reports session.announce limits.skipsUnknown
    rcases List.mem_append.mp member with earlier | newest
    · have announced : session.reports.toList <+: session.announce.reports.toList := by
        unfold announce
        dsimp only
        split
        · rw [Array.toList_push]
          exact List.prefix_append ..
        · exact List.prefix_rfl
      exact (inductionHypothesis earlier).trans (announced.trans stepped)
    · obtain rfl := List.mem_singleton.mp newest
      rwa [announce_reports fetched, Array.toList_push] at stepped

/-- So it does from the beginning of a session. -/
theorem play_line (reports : limits.reports = true) {machine : Machine} {perFrame rounds : Nat}
    (member : trial ∈ (begin machine).trials limits perFrame rounds) {word : Word}
    (fetched : trial.machine.fetch.result = .ok word) :
    trial.reports.toList ++ [report trial.machine.registers.pc.toNat word] <+:
      ((begin machine).play limits perFrame rounds).reports.toList :=
  (course_play limits machine perFrame rounds).reported reports member fetched

end Session

/-- The plain set gives a word the mnemonic of its operation, unless it does not have the
operation. -/
theorem disassemble_eq_mnemonic_iff {extended : Bool} {word : Word} {operation : Operation}
    (known : Operation.ofWord? extended word = some operation) :
    disassemble false word = Instruction.mnemonic ⟨operation, word⟩ ↔
      operation.isExtended = false := by
  by_cases low : word = 0x00FE
  · subst low
    cases extended with
    | false =>
      obtain rfl : .sys = operation := Option.some.inj known
      decide
    | true =>
      obtain rfl : .lowResolution = operation := Option.some.inj known
      decide
  by_cases high : word = 0x00FF
  · subst high
    cases extended with
    | false =>
      obtain rfl : .sys = operation := Option.some.inj known
      decide
    | true =>
      obtain rfl : .highResolution = operation := Option.some.inj known
      decide
  -- Every other word means the same in both sets.
  have meant : Operation.ofWord? false word = some operation := by
    rw [← known]
    apply Operation.ofWord_eq_of_ne
    · exact fun number => low (UInt16.toNat_inj.mp number)
    · exact fun number => high (UInt16.toNat_inj.mp number)
  have plain : operation.isExtended = false := by
    apply Bool.eq_false_iff.mpr
    intro isExtended
    cases Operation.extended_of_ofWord meant isExtended
  simp only [disassemble, meant, plain]

namespace Session

/-- The line made before a step tells the truth: it shows the address of the step, the word that
the step fetches, and the mnemonic of the instruction that it carries out. -/
def Truthful (session trial : Session) (next : Machine) : Prop :=
  ∃ word instruction, trial.machine.fetch.result = .ok word ∧ next.last = some instruction ∧
    trial.reports.toList ++
        [lineOf trial.machine.registers.pc.toNat word instruction.mnemonic] <+:
      session.reports.toList

/-- What the report of a complete step shows: the address and the word of the step, and what
the plain set makes of the word. -/
structure Reported (session trial : Session) (next : Machine) (word : Word)
    (instruction : Instruction) : Prop where
  fetched : trial.machine.fetch.result = .ok word
  carriedOut : next.last = some instruction
  line : trial.reports.toList ++
      [lineOf trial.machine.registers.pc.toNat word (disassemble false word)] <+:
    session.reports.toList
  /-- This is the truth unless only the extended set has the instruction. -/
  truthful : session.Truthful trial next ↔ instruction.operation.isExtended = false

/-- A complete step keeps the instruction that it has fetched and decoded. -/
theorem last_of_completes {machine next : Machine} (completes : machine.Completes .step next) :
    ∃ word operation, machine.fetch.result = .ok word ∧
      Operation.ofWord? machine.dialect.extendedDisplay word = some operation ∧
      next.last = some ⟨operation, word⟩ := by
  cases completes with
  | step stepped =>
    obtain ⟨word, operation, fetched, known, found, after, _, ended⟩ :=
      Machine.step_eq_ok.mp stepped
    obtain rfl : (after.conclude ⟨operation, word⟩ found).2 = next := congrArg Prod.snd ended
    refine ⟨word, operation, fetched, known, ?_⟩
    have noted : (after.note ⟨operation, word⟩ found).last = some ⟨operation, word⟩ := by
      cases found <;> rfl
    unfold Machine.conclude
    split
    · rw [Machine.settle, Machine.adjustBeeper_eq]
      exact noted
    · exact noted

/-- Of two lines in one place of the reports there is only one. -/
theorem line_unique {earlier reports : List String} {line other : String}
    (here : earlier ++ [line] <+: reports) (there : earlier ++ [other] <+: reports) :
    line = other := by
  have same : earlier ++ [line] = earlier ++ [other] := by
    apply (List.prefix_of_prefix_length_le here there _).eq_of_length
    all_goals simp
  exact List.singleton_inj.mp (List.append_cancel_left same)

/-- A session that reports has a report of every step it completes. -/
theorem play_reported (reports : limits.reports = true) (machine : Machine)
    (perFrame rounds : Nat) (trial : Session)
    (member : trial ∈ (begin machine).trials limits perFrame rounds) (next : Machine)
    (completes : trial.machine.Completes .step next) :
    ∃ word instruction,
      ((begin machine).play limits perFrame rounds).Reported trial next word instruction := by
  obtain ⟨word, operation, fetched, known, last⟩ := last_of_completes completes
  have line := play_line reports member fetched
  refine ⟨word, ⟨operation, word⟩, fetched, last, line, ?_⟩
  rw [← disassemble_eq_mnemonic_iff known]
  constructor
  · rintro ⟨read, kept, again, keeps, shown⟩
    obtain rfl : word = read := Except.ok.inj (fetched.symm.trans again)
    obtain rfl : ⟨operation, word⟩ = kept := Option.some.inj (last.symm.trans keeps)
    exact lineOf_inj.mp (line_unique line shown)
  · intro same
    refine ⟨word, ⟨operation, word⟩, fetched, last, ?_⟩
    rw [← same]
    exact line

/-- A program that asks for the larger screen, and then goes on in place. -/
def highProgram : List UInt8 := [0x00, 0xFF, 0x12, 0x02]

/-- The machine that has it, in a dialect. -/
def highMachine (dialect : Dialect) : Machine :=
  (Machine.ofRate 700 dialect 0 .mute).serveOne (.load highProgram none)

/-- In every dialect it starts with the first word of the program. -/
theorem highMachine_starts (dialect : Dialect) :
    (highMachine dialect).fetch.result = .ok 0x00FF ∧ (highMachine dialect).dialect = dialect := by
  have area : Memory.programStart ≤ Memory.standard.size := by decide +kernel
  have fits : highProgram.length ≤ Memory.standard.capacity := by decide +kernel
  obtain ⟨beeper, loaded⟩ :=
    @Machine.serveOne_load_eq (.ofRate 700 dialect 0 .mute) highProgram fits none
  rw [highMachine, loaded]
  exact ⟨Machine.fetch_installed rfl area fits 0 rfl rfl (by decide), rfl⟩

/-- One step, which is reported. -/
def reportedStep : Limits := ⟨none, some 1, [], false, true, fun _ => false⟩

/-- On a machine of the plain set the program calls a host routine, and so says the report. -/
theorem play_reported_of_highProgram :
    reportedStep.reports = true ∧
    begin (highMachine .chip8) ∈ (begin (highMachine .chip8)).trials reportedStep 12 3 ∧
    ∃ next, (highMachine .chip8).Completes .step next ∧ ∃ word instruction,
      ((begin (highMachine .chip8)).play reportedStep 12 3).Reported
        (begin (highMachine .chip8)) next word instruction := by
  obtain ⟨fetched, dialect⟩ := highMachine_starts .chip8
  have member : begin (highMachine .chip8) ∈
      (begin (highMachine .chip8)).trials reportedStep 12 3 :=
    begin_mem_trials (highMachine .chip8) rfl rfl 11 2
  generalize highMachine .chip8 = machine at *
  have finds : machine.Finds 0x00FF .sys := ⟨fetched, by rw [dialect]; rfl⟩
  have completes := Machine.Completes.step (finds.step rfl) (by nofun)
  exact ⟨rfl, member, _, completes,
    play_reported rfl machine 12 3 (begin machine) member _ completes⟩

/-- On a machine of the extended set the screen is switched, and the report is not the truth. -/
theorem not_truthful_of_highProgram :
    ¬∀ trial ∈ (begin (highMachine .schip)).trials reportedStep 12 3,
      ∀ next, trial.machine.Completes .step next →
        ((begin (highMachine .schip)).play reportedStep 12 3).Truthful trial next := by
  intro truthful
  obtain ⟨fetched, dialect⟩ := highMachine_starts .schip
  have member : begin (highMachine .schip) ∈
      (begin (highMachine .schip)).trials reportedStep 12 3 :=
    begin_mem_trials (highMachine .schip) rfl rfl 11 2
  generalize highMachine .schip = machine at *
  have extended : Operation.ofWord? machine.dialect.extendedDisplay 0x00FF =
      some .highResolution := by
    rw [dialect]
    rfl
  obtain ⟨next, completes⟩ : ∃ next, machine.Completes .step next :=
    ⟨_, .step (Machine.Finds.step ⟨fetched, extended⟩ rfl) (by nofun)⟩
  obtain ⟨word, instruction, again, last, shown⟩ := truthful _ member _ completes
  obtain rfl : 0x00FF = word := Except.ok.inj (fetched.symm.trans again)
  obtain ⟨read, operation, still, known, kept⟩ := last_of_completes completes
  obtain rfl : 0x00FF = read := Except.ok.inj (fetched.symm.trans still)
  obtain rfl : .highResolution = operation := Option.some.inj (extended.symm.trans known)
  obtain rfl : ⟨.highResolution, 0x00FF⟩ = instruction := Option.some.inj (kept.symm.trans last)
  have same := lineOf_inj.mp (line_unique (play_line rfl member fetched) shown)
  revert same
  decide

end Session

end Chip8
