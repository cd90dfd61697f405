import Chip8.CommandLine
import Chip8.Ending
import Chip8.Window

/-!
# The emulator

The emulator loads a program and plays it in a window. Options are checked
before the program file is read, and the file before a window is opened. An
option that is given without a value is not checked; the emulator breaks down
where the value is needed.
-/

namespace Chip8.Emulator

/-- What the options of the emulator are about. -/
inductive Key where
  | help
  | scale
  | rate
  | preset
  | audio
deriving DecidableEq, Repr

/-- The options in the order of their definition. The plain value is the path of
the program. -/
def grammar : CommandLine.Grammar Key where
  flags := [
    ⟨.help, ["-h", "--help"], false⟩, ⟨.scale, ["--scale"], true⟩, ⟨.rate, ["--hz"], true⟩,
    ⟨.preset, ["--quirks"], true⟩, ⟨.audio, ["--audio"], false⟩]
  takesPlain := true

/-- The options as given. A scale, a rate or a preset may be given without a value. -/
structure Options where
  rom : Option String
  scale : Option Int
  rate : Option Int
  preset : Option String
  audio : Bool
deriving DecidableEq, Repr

/-- What holds where nothing is given. -/
def Options.standard : Options where
  rom := none
  scale := some 10
  rate := some 700
  preset := some "chip8"
  audio := false

/-- Why no window is opened. -/
inductive Stop where
  | help
  | usage (message : String)
  | refused (refusal : Rom.Refusal)
  | noToolkit
  | broken (breakdown : Breakdown)
deriving DecidableEq, Repr

/-- Refuse the command line for a mistake in its form. -/
def Stop.ofMisuse (misuse : CommandLine.Misuse) : Stop := .usage misuse.message

/-- The ending and the message that a stop leads to. -/
def Stop.verdict : Stop → Ending × String
  | help => (.exit 0, "")
  | usage message => (.exit 2, "chip8emu: error: " ++ message ++ "\n")
  | refused refusal => (.exit 1, "Failed to load ROM: " ++ refusal.message ++ "\n")
  | noToolkit => (.exit 1, "pygame is required for the emulator window\n")
  | broken breakdown => (.broken breakdown, "")

/-- Stop because of a program file. -/
def Stop.ofRefusal : Rom.Refusal → Stop
  | .noPath => broken .noPath
  | refusal => refused refusal

/-- Apply an option with its value. -/
def Options.give (options : Options) (key : Key) (label value : String) :
    Except CommandLine.Misuse Options :=
  match key with
  | .scale => (CommandLine.readInteger label value).map ({ options with scale := · })
  | .rate => (CommandLine.readInteger label value).map ({ options with rate := · })
  | .preset =>
    (CommandLine.readChoice Dialect.presetNames label value).map ({ options with preset := · })
  | .help | .audio => .ok options

/-- Apply an option that is given without a value. -/
def Options.giveBare (options : Options) : Key → Options
  | .scale => { options with scale := none }
  | .rate => { options with rate := none }
  | .preset => { options with preset := none }
  | .help | .audio => options

/-- Apply one setting. -/
def Options.change (options : Options) : CommandLine.Setting Key → Except Stop Options
  | .flag flag =>
    match flag.key with
    | .help => .error .help
    | .audio => .ok { options with audio := true }
    | _ => .ok options
  | .option flag (some value) => (options.give flag.key flag.label value).mapError .ofMisuse
  | .option flag none => .ok (options.giveBare flag.key)
  | .plain value => .ok { options with rom := some value }

/-- Read the options. -/
def Options.read (arguments : List String) : Except Stop Options :=
  (grammar.read arguments).apply .ofMisuse Options.change .standard

/-- What the host offers: files, perhaps the path of a program in the
environment, perhaps a window toolkit, a sound device, and a random source. -/
structure Host where
  disk : Disk
  environment : Option String
  toolkit : Bool
  device : SoundDevice
  random : RandomSource := 0

/-- Break down if a value is missing. -/
def need {α : Type} (breakdown : Breakdown) : Option α → Except Stop α
  | some value => .ok value
  | none => .error (.broken breakdown)

/-- Check the options and the program file, and open the window. -/
def Options.launch (options : Options) (host : Host) : Except Stop Window := do
  let scale ← need .valueExpected options.scale
  if scale ≤ 0 then throw (.usage "--scale must be positive")
  let rate ← need .valueExpected options.rate
  if rate ≤ 0 then throw (.usage "--hz must be positive")
  let some path := Rom.choosePath options.rom host.environment
    | throw (.usage "no ROM given (pass a path or set CHIP8EMU_ROM)")
  let preset ← need .textExpected options.preset
  let dialect ← (Dialect.ofPreset? preset).mapError fun misuse => .usage misuse.message
  let machine :=
    Machine.ofRate rate dialect host.random (.silent .standard host.device options.audio)
  let (rom, loaded) ← (machine.loadFile host.disk path none).mapError .ofRefusal
  if !host.toolkit then throw .noToolkit
  pure (.create loaded rom.name scale.toNat)

/-- What the emulator leaves behind. -/
structure Report where
  ending : Ending
  output : String
  errors : String
  requests : List Window.Request
deriving DecidableEq, Repr

/-- Lines of output, from the latest to the earliest. -/
def unlines (latestFirst : List String) : String :=
  String.join (latestFirst.reverse.map (· ++ "\n"))

/-- What a window leaves behind. -/
def report (window : Window) (ending : Ending) : Report :=
  ⟨ending, unlines window.notices, unlines window.errors, window.requests.reverse⟩

/-- Close a window, unless it broke. The exit code tells whether a frame has failed. -/
def conclude (window : Window) : Report :=
  match window.broken with
  | some misuse => report window (.broken (.number misuse))
  | none => report window.close (.exit (if window.failed then 2 else 0))

/-- Run a command line, with the events that the host will report turn by turn. -/
def run (arguments : List String) (host : Host) (script : List (List Window.Event)) : Report :=
  match Options.read arguments >>= (·.launch host) with
  | .ok window => conclude (window.play script)
  | .error stop => ⟨stop.verdict.1, "", stop.verdict.2, []⟩

end Chip8.Emulator
