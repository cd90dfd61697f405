import Chip8.Proofs.Delivering
import Chip8.Proofs.Performing

/-!
# Mishaps

Three things may go wrong without a mistake in the command line: the program file cannot be
read, the program makes the machine fail, the dump cannot be written. A runner that handles
them ends with a code and a message each time, and throws nothing of the kind.

The first two are caught where they can happen. The dump is written outside of everything that
catches, after the session and before its judgement. So mishaps are handled exactly as long as
no session returns whose dump has no place to go, and no path of a program has a null character.
-/

namespace Chip8.Runner

variable {arguments : List String} {environment : Environment} {disk : Disk}
  {reading : Nat → Number} {rounds : Nat} {options : Options} {plan : Plan}

/-- What is thrown is about a file, or is a failure of the machine. -/
def Thrown.IsMishap : Thrown → Prop
  | .stop reason => reason.IsAboutFile
  | .refused (.noProgram refusal) => refusal.IsLoadError
  | .refused (.tooLarge _) | .refused (.stopped (.fault _)) => True
  | _ => False

/-- The run ends with a code that is not zero, and says something after what it had said. -/
def Explained (before : List String) (result : Except Stop (EStateM.Result Thrown Desk Nat)) :
    Prop :=
  ∃ code desk further, result = .ok (.ok code desk) ∧ code ≠ 0 ∧ further ≠ [] ∧
    desk.messages = before ++ further

/-- Every mishap is handled. -/
structure Handles (arguments : List String) (environment : Environment) (disk : Disk)
    (reading : Nat → Number) : Prop where
  declines : ∀ rounds stop, perform rounds arguments environment disk reading = .error stop →
    ¬stop.IsAboutFile
  contains : ∀ rounds thrown desk,
    perform rounds arguments environment disk reading = .ok (.error thrown desk) →
      ¬thrown.IsMishap
  unreadable : ∀ rounds options plan, Plans arguments environment options plan →
    disk.LacksProgram plan.rom → Explained [] (perform rounds arguments environment disk reading)
  halted : ∀ rounds job limits perFrame session fault,
    Plays arguments environment disk reading rounds job limits perFrame session →
      session.fault? = some fault →
        Explained session.reports.toList (perform rounds arguments environment disk reading)
  undumped : ∀ rounds job limits perFrame session breakdown,
    Plays arguments environment disk reading rounds job limits perFrame session →
      session.Returns → handOver job.options job.plan session.machine disk = .error breakdown →
        Explained session.reports.toList (perform rounds arguments environment disk reading)

/-- The dump can be put where it is asked for: a file that is named can be written. -/
def Options.CanDump (options : Options) (disk : Disk) : Prop :=
  ∀ entry ∈ options.dump, ∃ name, entry = some name ∧ (Disk.Path.ofText name).isPlain = true ∧
    ∀ content, ∃ written, disk.write (.ofText name) content = .ok written

/-- Whether a file can be written does not depend on what is written. -/
theorem write_succeeds {path : Disk.Path} {content : List UInt8} {after : Disk}
    (written : disk.write path content = .ok after) (other : List UInt8) :
    ∃ after, disk.write path other = .ok after := by
  obtain ⟨place, chain, located, target, _⟩ := Disk.write_eq_ok.mp written
  exact ⟨_, Disk.write_eq_ok.mpr ⟨place, chain, located, target, rfl⟩⟩

/-- A dump that has a place to go is put there, printed or written. -/
theorem place_isOk_iff {output : Output} {piece : Output.Piece} :
    (∃ given, place disk output options.dump piece = .ok given) ↔ options.CanDump disk := by
  constructor
  · rintro ⟨⟨printed, after⟩, placed⟩ entry asked
    have given : options.dump = some entry := asked
    rcases place_eq_ok.mp placed with ⟨unnamed, _⟩ | ⟨name, named, plain, _, wrote⟩
    · cases unnamed.symm.trans given
    · cases named.symm.trans given
      exact ⟨name, rfl, plain, write_succeeds wrote⟩
  · intro can
    cases given : options.dump with
    | none => exact ⟨_, rfl⟩
    | some entry =>
      obtain ⟨name, rfl, plain, writes⟩ := can entry given
      obtain ⟨written, wrote⟩ := writes (fileContent piece)
      rw [← given]
      exact ⟨_, place_eq_ok.mpr (.inr ⟨name, given, plain, rfl, wrote⟩)⟩

/-- What a session leaves is handed over exactly if the dump has a place to go. -/
theorem handOver_isOk_iff {machine : Machine} (size : machine.memory.size = 0x1000)
    (within : ∀ range ∈ plan.dumpRanges, range.Within) :
    (∃ given, handOver options plan machine disk = .ok given) ↔ options.CanDump disk := by
  have inside := AddressRange.merge_within within
  rw [handOver]
  cases asked : options.dumpForm with
  | none =>
    refine ⟨fun _ => ?_, fun _ => ⟨_, rfl⟩⟩
    cases given : options.dump with
    | none =>
      rw [Options.CanDump, given]
      intro entry impossible
      cases impossible
    | some entry =>
      -- To name a file is to ask for a table at least.
      unfold Options.dumpForm at asked
      cases form : options.dumpFormat <;> simp [form, given] at asked
  | table =>
    rw [dump, HexDump.text_of_within size inside]
    exact place_isOk_iff
  | bytes =>
    rw [dump, HexDump.bytes_of_within size inside]
    exact place_isOk_iff

/-- A session that meets with a fault is judged by it, and the fault is explained. -/
theorem verdict_of_fault {session : Session} {fault : Fault} {code : Nat} {lines : List String}
    (failed : session.fault? = some fault) (judged : verdict session = (.exit code, unlines lines)) :
    code = 2 ∧ lines ≠ [] := by
  rw [verdict, Session.fault_eq_some.mp failed] at judged
  obtain ⟨coded, explained⟩ := Prod.mk.inj judged
  cases coded
  refine ⟨rfl, ?_⟩
  rintro rfl
  have empty := congrArg String.toList explained
  simp [unlines, String.join] at empty

/-- A program file that is refused is explained, except for a path with a null character. -/
theorem Plans.explained_iff (plans : Plans arguments environment options plan)
    {refusal : Rom.Refusal} (found : Rom.read disk plan.rom 0xE00 = .error refusal)
    (reading : Nat → Number) (rounds : Nat) :
    Explained [] (perform rounds arguments environment disk reading) ↔
      plan.rom.isPlain = true := by
  rw [plans.perform_of_refused found, ← (Rom.finding_of_read found).isLoadError_iff]
  constructor
  · rintro ⟨code, desk, further, same, _⟩ rfl
    cases same
  · intro loadError
    rw [if_neg loadError]
    exact ⟨1, _, _, rfl, nofun, List.cons_ne_nil _ _, rfl⟩

/-- Where mishaps are handled, no path of a program has a null character. -/
theorem Handles.isPlain (handles : Handles arguments environment disk reading)
    (plans : Plans arguments environment options plan) : plan.rom.isPlain = true := by
  cases found : Rom.read disk plan.rom 0xE00 with
  | error refusal =>
    have lacks := (Rom.finding_of_read found).lacksProgram
    have explained := handles.unreadable 0 options plan plans lacks
    exact (plans.explained_iff found reading 0).mp explained
  | ok rom => exact (Rom.finding_of_read found).holds.1.1

section Plays

variable {job : Job} {limits : Session.Limits} {perFrame : Nat} {session : Session}

/-- What cannot be handed over is thrown out of the run. -/
theorem Plays.perform_of_failed
    (plays : Plays arguments environment disk reading rounds job limits perFrame session)
    (returns : session.Returns) {breakdown : Breakdown}
    (failed : handOver job.options job.plan session.machine disk = .error breakdown) :
    ∃ desk, perform rounds arguments environment disk reading =
      .ok (.error (.stop (.broken breakdown)) desk) := by
  rcases plays.perform_cases with
    ⟨going, _⟩ | ⟨_, other, desk, same, done⟩ | ⟨_, code, lines, output, written, handed, _⟩
  · obtain ⟨ending, ends, _⟩ := returns
    cases going.symm.trans ends
  · cases same.symm.trans failed
    exact ⟨desk, done⟩
  · cases failed.symm.trans handed

/-- Where mishaps are handled, the dump has a place to go after every session that returns. -/
theorem Handles.canDump (handles : Handles arguments environment disk reading)
    (plays : Plays arguments environment disk reading rounds job limits perFrame session)
    (returns : session.Returns) : job.options.CanDump disk := by
  have within := (checked_of_plan plays.plans.planned).ranges
  rw [← handOver_isOk_iff plays.wellFormed.memorySize within]
  cases handed : handOver job.options job.plan session.machine disk with
  | ok given => exact ⟨given, rfl⟩
  | error breakdown =>
    obtain ⟨code, _, further, done, _⟩ :=
      handles.undumped rounds job limits perFrame session breakdown plays returns handed
    obtain ⟨desk, threw⟩ := plays.perform_of_failed returns handed
    cases threw.symm.trans done

/-- A dump with a place to go is handed over. -/
theorem Plays.handOver_ne_error
    (plays : Plays arguments environment disk reading rounds job limits perFrame session)
    (can : job.options.CanDump disk) (breakdown : Breakdown) :
    handOver job.options job.plan session.machine disk ≠ .error breakdown := by
  have within := (checked_of_plan plays.plans.planned).ranges
  obtain ⟨given, handed⟩ := (handOver_isOk_iff plays.wellFormed.memorySize within).mpr can
  rw [handed]
  nofun

end Plays

/-- Mishaps are handled exactly if the path of the program has no null character, and the dump
has a place to go whenever a session returns. -/
theorem handles_iff (arguments : List String) (environment : Environment) (disk : Disk)
    (reading : Nat → Number) :
    Handles arguments environment disk reading ↔
      (∀ options plan, Plans arguments environment options plan → plan.rom.isPlain = true) ∧
      ∀ rounds job limits perFrame session,
        Plays arguments environment disk reading rounds job limits perFrame session →
          session.Returns → job.options.CanDump disk := by
  constructor
  · intro handles
    exact ⟨fun _ _ plans => handles.isPlain plans, fun _ _ _ _ _ plays => handles.canDump plays⟩
  rintro ⟨plain, writable⟩
  constructor
  case declines =>
    intro rounds stop declined
    have performed := performed_perform arguments environment disk reading rounds
    rw [declined] at performed
    cases performed with
    | declined _ apart => exact apart
  case contains =>
    intro rounds thrown desk threw
    have performed := performed_perform arguments environment disk reading rounds
    rw [threw] at performed
    cases performed with
    | nowhere => exact fun mishap => mishap rfl
    | untold _ _ _ lack => exact lack.apart
    | unfinished => exact id
    | undumped plays returns failed =>
      exact absurd failed (plays.handOver_ne_error (writable _ _ _ _ _ plays returns) _)
  case unreadable =>
    intro rounds options plan plans lacks
    cases found : Rom.read disk plan.rom 0xE00 with
    | error refusal => exact (plans.explained_iff found reading rounds).mpr (plain _ _ plans)
    | ok rom => exact absurd lacks (Rom.finding_of_read found).holds.2
  case halted =>
    intro rounds job limits perFrame session fault plays failed
    rcases plays.perform_cases with
      ⟨going, _⟩ | ⟨returns, breakdown, _, lost, _⟩ |
        ⟨_, code, lines, output, written, _, judged, done⟩
    · cases going.symm.trans (Session.fault_eq_some.mp failed)
    · exact absurd lost (plays.handOver_ne_error (writable _ _ _ _ _ plays returns) breakdown)
    · obtain ⟨rfl, said⟩ := verdict_of_fault failed judged
      exact ⟨2, _, lines, done, nofun, said, rfl⟩
  case undumped =>
    intro rounds job limits perFrame session breakdown plays returns lost
    exact absurd lost (plays.handOver_ne_error (writable _ _ _ _ _ plays returns) breakdown)

/-- A command line that runs a loop for one frame, and asks for a dump in a folder that is not
there. -/
def strayDump : List String :=
  ["--rom", "loop.ch8", "--hz", "120", "--frames", "1", "--dump", "no/x.txt"]

/-- After the frame the dump has nowhere to go, and that is thrown out of the run. -/
theorem not_handles_strayDump :
    ¬Handles strayDump (.ofVariable none) Machine.programDisk fun _ => .whole 0 := by
  intro handles
  let options : Options :=
    { Options.standard with
      rom := some (some "loop.ch8")
      rate := some 120
      frames := some 1
      dump := some (some "no/x.txt") }
  let plan : Plan := ⟨⟨0, ["loop.ch8"]⟩, 120, [], [], [], .chip8, 0⟩
  have plans : Plans strayDump (.ofVariable none) options plan := ⟨rfl, rfl⟩
  have held : Machine.programDisk.Holds plan.rom [0x12, 0x00] := ⟨by decide +kernel, rfl⟩
  have program : ¬Machine.programDisk.LacksProgram plan.rom := by
    rw [held.lacksProgram_iff]
    decide
  have begins := plans.begins program (by decide : plan.rate = (2 * 60 : Nat)) (by decide)
    (by decide +kernel) rfl rfl rfl fun _ => .whole 0
  obtain ⟨session, plays, returns⟩ := begins.plays_of_limited (.inl rfl)
  obtain ⟨name, same, _, writes⟩ := handles.canDump plays returns _ rfl
  cases same
  obtain ⟨written, wrote⟩ := writes []
  cases wrote

end Chip8.Runner
