import Chip8.CommandLine
import Chip8.Ending
import Chip8.HexDump
import Chip8.Output
import Chip8.Session
import Chip8.Session.Deadline
import Chip8.Snapshot

/-!
# The headless runner

The runner loads a program, runs it for a session, and prints what is asked
for: the instructions as they are attempted, the screen and the registers at the
end, and a dump of memory. Its exit code tells how the session ended.

Options are checked before the program file is read. The first mistake is
reported and nothing is run. An option that is given without a value is not
checked; the runner breaks down where the value is needed.
-/

namespace Chip8.Runner

/-- What the options of the runner are about. -/
inductive Key where
  | help
  | rom
  | frames
  | steps
  | rate
  | preset
  | override
  | breakpoint
  | heldKey
  | onUnknown
  | seed
  | trace
  | dump
  | dumpRange
  | dumpFormat
  | showDisplay
  | seconds
deriving DecidableEq, Repr

/-- The options in the order of their definition. -/
def grammar : CommandLine.Grammar Key where
  flags := [
    ⟨.help, ["-h", "--help"], false⟩, ⟨.rom, ["--rom"], true⟩, ⟨.frames, ["--frames"], true⟩,
    ⟨.steps, ["--steps"], true⟩, ⟨.rate, ["--hz"], true⟩, ⟨.preset, ["--quirks"], true⟩,
    ⟨.override, ["--quirk"], true⟩, ⟨.breakpoint, ["--break-pc"], true⟩,
    ⟨.heldKey, ["--key"], true⟩, ⟨.onUnknown, ["--on-unknown"], true⟩,
    ⟨.seed, ["--seed"], true⟩, ⟨.trace, ["--trace"], false⟩, ⟨.dump, ["--dump"], true⟩,
    ⟨.dumpRange, ["--dump-range"], true⟩, ⟨.dumpFormat, ["--dump-format"], true⟩,
    ⟨.showDisplay, ["--show-display"], false⟩, ⟨.seconds, ["--seconds"], true⟩]
  takesPlain := false

/-- The forms of a memory dump. -/
inductive DumpFormat where
  | table
  | bytes
  | none
deriving DecidableEq, Repr

/-- The words for the forms of a dump. -/
def dumpFormats : List (String × DumpFormat) := [("hex", .table), ("bin", .bytes), ("none", .none)]

/-- The words for what becomes of words without meaning: whether they are skipped. -/
def policies : List (String × Bool) := [("halt", false), ("skip", true)]

/-- The value of an option, or none if it is given without one. -/
abbrev Entry (α : Type) : Type := Option α

/-- The options as given. Repeatable ones are in the order in which they are given. -/
structure Options where
  rom : Option (Entry String)
  frames : Entry Int
  steps : Option (Entry Int)
  rate : Entry Int
  preset : Entry String
  overrides : List (Entry String)
  breakpoints : List (Entry String)
  heldKeys : List (Entry String)
  skipsUnknown : Bool
  seed : Option (Entry Int)
  trace : Bool
  dump : Option (Entry String)
  dumpRanges : List (Entry String)
  dumpFormat : DumpFormat
  showDisplay : Bool
  seconds : Option (Entry Number)
deriving Repr

/-- What holds where nothing is given. -/
def Options.standard : Options where
  rom := none
  frames := some 600
  steps := none
  rate := some 700
  preset := some "chip8"
  overrides := []
  breakpoints := []
  heldKeys := []
  skipsUnknown := false
  seed := none
  trace := false
  dump := none
  dumpRanges := []
  dumpFormat := .none
  showDisplay := false
  seconds := none

/-- Why nothing is run. -/
inductive Stop where
  | help
  | usage (message : String)
  | refused (refusal : Rom.Refusal)
  | broken (breakdown : Breakdown)
deriving DecidableEq, Repr

/-- Refuse the command line for a mistake in its form. -/
def Stop.ofMisuse (misuse : CommandLine.Misuse) : Stop := .usage misuse.message

/-- Read the value of an option as one of some words with meanings. -/
def readWord {α : Type} (words : List (String × α)) (label typed : String) :
    Except CommandLine.Misuse α :=
  match words.lookup typed with
  | some meaning => .ok meaning
  | none => .error (.notChoice label typed (words.map Prod.fst))

/-- Apply an option with its value. -/
def Options.give (options : Options) (key : Key) (label value : String) :
    Except CommandLine.Misuse Options :=
  match key with
  | .rom => .ok { options with rom := some value }
  | .frames => (CommandLine.readInteger label value).map ({ options with frames := · })
  | .steps => (CommandLine.readInteger label value).map ({ options with steps := some · })
  | .rate => (CommandLine.readInteger label value).map ({ options with rate := · })
  | .preset =>
    (CommandLine.readChoice Dialect.presetNames label value).map ({ options with preset := · })
  | .override => .ok { options with overrides := options.overrides ++ [some value] }
  | .breakpoint => .ok { options with breakpoints := options.breakpoints ++ [some value] }
  | .heldKey => .ok { options with heldKeys := options.heldKeys ++ [some value] }
  | .onUnknown => (readWord policies label value).map ({ options with skipsUnknown := · })
  | .seed => (CommandLine.readInteger label value).map ({ options with seed := some · })
  | .dump => .ok { options with dump := some value }
  | .dumpRange => .ok { options with dumpRanges := options.dumpRanges ++ [some value] }
  | .dumpFormat => (readWord dumpFormats label value).map ({ options with dumpFormat := · })
  | .seconds =>
    (CommandLine.readReal label value).map fun real =>
      { options with seconds := some (Number.ofReal real) }
  | .help | .trace | .showDisplay => .ok options

/-- Apply an option that is given without a value. It halts at words without
meaning, and dumps a table. -/
def Options.giveBare (options : Options) : Key → Options
  | .rom => { options with rom := some none }
  | .frames => { options with frames := none }
  | .steps => { options with steps := some none }
  | .rate => { options with rate := none }
  | .preset => { options with preset := none }
  | .override => { options with overrides := options.overrides ++ [none] }
  | .breakpoint => { options with breakpoints := options.breakpoints ++ [none] }
  | .heldKey => { options with heldKeys := options.heldKeys ++ [none] }
  | .onUnknown => { options with skipsUnknown := false }
  | .seed => { options with seed := some none }
  | .dump => { options with dump := some none }
  | .dumpRange => { options with dumpRanges := options.dumpRanges ++ [none] }
  | .dumpFormat => { options with dumpFormat := .table }
  | .seconds => { options with seconds := some none }
  | .help | .trace | .showDisplay => options

/-- Apply one setting. -/
def Options.change (options : Options) : CommandLine.Setting Key → Except Stop Options
  | .flag flag =>
    match flag.key with
    | .help => .error .help
    | .trace => .ok { options with trace := true }
    | .showDisplay => .ok { options with showDisplay := true }
    | _ => .ok options
  | .option flag (some value) => (options.give flag.key flag.label value).mapError .ofMisuse
  | .option flag none => .ok (options.giveBare flag.key)
  | .plain _ => .ok options

/-- Read the options. -/
def Options.read (arguments : List String) : Except Stop Options :=
  (grammar.read arguments).apply .ofMisuse Options.change .standard

/-- What a command line finds beside its files: perhaps the path of a program, and the random
source of each seed. A run without a seed has a source as well. -/
structure Environment where
  program : Option String
  source : Option Int → RandomSource

/-- The environment that a variable makes, with the generator of seeds. Without a seed it
starts from zero. -/
def Environment.ofVariable (program : Option String) : Environment :=
  ⟨program, fun seed => .ofSeed (seed.getD 0)⟩

instance : Coe (Option String) Environment := ⟨.ofVariable⟩

/-- What a session is run on, checked. -/
structure Plan where
  rom : Disk.Path
  rate : Int
  breakpoints : List Int
  heldKeys : List Int
  dumpRanges : List AddressRange
  dialect : Dialect
  random : RandomSource

/-- Break down if a value is missing. -/
def need {α : Type} (breakdown : Breakdown) : Entry α → Except Stop α
  | some value => .ok value
  | none => .error (.broken breakdown)

/-- Break down if a value is given without being there. -/
def needIfGiven {α : Type} : Option (Entry α) → Except Stop (Option α)
  | some entry => (need .valueExpected entry).map some
  | none => .ok none

/-- Refuse a typed value, and say why it is wrong. -/
def wrong (what shown reason : String) : Stop :=
  .usage ("invalid " ++ what ++ " '" ++ shown ++ "': " ++ reason)

/-- Read each of some texts, or say which one is wrong and why. -/
def readEach {α : Type} (what : String) (read : String → Except AddressRange.Misuse α)
    (bare : Stop) : List (Entry String) → Except Stop (List α)
  | [] => .ok []
  | none :: _ => .error bare
  | some typed :: rest =>
    match read typed with
    | .ok value => (readEach what read bare rest).map (value :: ·)
    | .error misuse => .error (wrong what typed misuse.message)

/-- The number of the last key. -/
def lastKey : Int := 0xF

/-- The dialect of a preset with some switches set. -/
def readDialect (preset : Entry String) (overrides : List (Entry String)) :
    Except Stop Dialect := do
  let name ← need .textExpected preset
  let dialect ←
    (Dialect.resolve name ((overrides.takeWhile Option.isSome).filterMap id)).mapError
      fun misuse => .usage misuse.message
  if overrides.contains none then throw (.broken .textExpected)
  pure dialect

/-- Check the options beyond their form. -/
def Options.plan (options : Options) (environment : Environment) : Except Stop Plan := do
  let given ← needIfGiven options.rom
  let some rom := Rom.choosePath given environment.program
    | throw (.usage "no ROM given (use --rom or set CHIP8EMU_ROM)")
  let rate ← need .valueExpected options.rate
  if rate ≤ 0 then throw (.usage "--hz must be positive")
  let breakpoints ←
    readEach "breakpoint address" AddressRange.readAddress (.broken .textExpected)
      options.breakpoints
  let heldKeys ←
    readEach "key" (AddressRange.readHex lastKey) (.broken .textExpected) options.heldKeys
  let dumpRanges ←
    readEach "dump range" AddressRange.ofText
      (wrong "dump range" "[]" "expected START:END, got []") options.dumpRanges
  let dialect ← readDialect options.preset options.overrides
  let seed ← needIfGiven options.seed
  pure ⟨rom, rate, breakpoints, heldKeys, dumpRanges, dialect, environment.source seed⟩

/-- What the runner leaves behind. -/
structure Report where
  ending : Ending
  output : List Output.Piece
  errors : String
  disk : Disk
deriving DecidableEq, Repr

/-- Hold keys of the machine down. -/
def hold (machine : Machine) (keys : List Int) : Machine :=
  keys.foldl (fun held key => (held.setKey key true).toOption.getD held) machine

/-- Lines of output. -/
def unlines (lines : List String) : String := String.join (lines.map (· ++ "\n"))

/-- Print the screen and the registers of a machine. -/
def picture (machine : Machine) : Output :=
  (machine.screen.plainText :: (Snapshot.ofMachine machine).lines).foldl Output.print .empty

/-- The form of the dump. Naming a file for it asks for a table. -/
def Options.dumpForm (options : Options) : DumpFormat :=
  if options.dumpFormat = .none && options.dump.isSome then .table else options.dumpFormat

/-- The dump of a memory in a form. The ranges lie within a standard memory. -/
def dump (memory : Memory) (ranges : List AddressRange) : DumpFormat → Option Output.Piece
  | .table => (HexDump.text memory ranges).toOption.map .text
  | .bytes => (HexDump.bytes memory ranges).toOption.map .bytes
  | .none => none

/-- Print a dump. -/
def printDump (output : Output) : Output.Piece → Output
  | .text text => output.print text
  | .bytes bytes => output.put bytes

/-- The content of the file for a dump. -/
def fileContent : Output.Piece → List UInt8
  | .text text => Output.utf8 (text ++ "\n")
  | .bytes bytes => bytes

/-- Write a dump to a file, or print it if no file is named. -/
def place (disk : Disk) (output : Output) (target : Option (Entry String))
    (piece : Output.Piece) : Except Breakdown (Output × Disk) :=
  match target with
  | none => .ok (printDump output piece, disk)
  | some none => .error .valueExpected
  | some (some name) =>
    let path := Disk.Path.ofText name
    if !path.isPlain then .error .noPath
    else
      match disk.write path (fileContent piece) with
      | .ok written => .ok (output, written)
      | .error failure => .error (.disk failure)

/-- The exit code of a session, and the line that explains it. -/
def verdict (session : Session) : Ending × String :=
  match session.ending, session.waiting with
  | some (.number misuse), _ => (.broken (.number misuse), "")
  | some (.fault fault), _ => (.exit 2, "Execution halted: " ++ fault.message ++ "\n")
  | some .breakpoint, _ => (.exit 0, "")
  | _, true => (.exit 3, "Execution stopped: waiting for a key\n")
  | some .timeUp, false => (.exit 0, "Execution stopped: time limit reached\n")
  | _, false => (.exit 0, "")

/-- Print and write what is asked for after a session. A session that has broken
off leaves nothing but its reports. -/
def conclude (options : Options) (plan : Plan) (disk : Disk) (session : Session) : Report :=
  let machine := session.machine
  let reports := unlines session.reports.toList
  let (ending, line) := verdict session
  if session.misuse?.isSome then ⟨ending, [], reports, disk⟩
  else
    let shown := if options.showDisplay then picture machine else .empty
    match dump machine.memory (AddressRange.merge plan.dumpRanges) options.dumpForm with
    | none => ⟨ending, shown.pieces, reports ++ line, disk⟩
    | some piece =>
      match place disk shown options.dump piece with
      | .ok (printed, written) => ⟨ending, printed.pieces, reports ++ line, written⟩
      | .error breakdown => ⟨.broken breakdown, shown.pieces, reports, disk⟩

/-- The name of the program in its messages. -/
def programName : String := "chip8-debug-runner"

/-- The report of a command line for which nothing is run. -/
def decline (disk : Disk) : Stop → Report
  | .help => ⟨.exit 0, [], "", disk⟩
  | .usage message => ⟨.exit 2, [], programName ++ ": error: " ++ message ++ "\n", disk⟩
  | .refused refusal => ⟨.exit 1, [], "Failed to load ROM: " ++ refusal.message ++ "\n", disk⟩
  | .broken breakdown => ⟨.broken breakdown, [], "", disk⟩

/-- A loaded machine, with its keys held, and what to do with it. -/
structure Job where
  options : Options
  plan : Plan
  frames : Int
  machine : Machine

/-- Stop because of a program file. -/
def Stop.ofRefusal : Rom.Refusal → Stop
  | .noPath => .broken .noPath
  | refusal => .refused refusal

/-- Check a command line and load its program. An environment may name the
program. -/
def prepare (arguments : List String) (environment : Environment) (disk : Disk) :
    Except Stop Job := do
  let options ← Options.read arguments
  let plan ← options.plan environment
  let machine := Machine.ofRate plan.rate plan.dialect plan.random .mute
  let (_, loaded) ← (machine.loadFile disk plan.rom none).mapError .ofRefusal
  let frames ← need .valueExpected options.frames
  pure ⟨options, plan, frames, hold loaded plan.heldKeys⟩

/-- Stop because of a number. -/
def Stop.ofNumber (misuse : Number.Misuse) : Stop := .broken (.number misuse)

/-- The limits of the session, by the readings of a watch. A frame limit below
one is no limit. The length of a frame is checked before the time is. -/
def Job.limits (job : Job) (reading : Nat → Number) : Except Stop Session.Limits := do
  let _ ← job.machine.clock.stepsPerFrame.mapError .ofNumber
  let seconds ← needIfGiven job.options.seconds
  let deadline ← (Session.deadline seconds (reading 0)).mapError .ofNumber
  let steps ← needIfGiven job.options.steps
  pure
    { frames := if 0 < job.frames then some job.frames else none
      steps := steps
      breakpoints := job.plan.breakpoints
      skipsUnknown := job.options.skipsUnknown
      reports := job.options.trace
      timeUp := fun frames => Session.timeUp deadline (reading frames) }

/-- Run a command line on a disk, by the readings of a watch. -/
def run (arguments : List String) (environment : Environment) (disk : Disk)
    (reading : Nat → Number) : Report :=
  let outcome := do
    let job ← prepare arguments environment disk
    let limits ← job.limits reading
    pure (conclude job.options job.plan disk (.run limits job.machine))
  match outcome with
  | .ok report => report
  | .error stop => decline disk stop

end Chip8.Runner
