import Chip8.Runner

/-!
# The command line

The headless runner on the files, the environment and the time of the host. The
program file is read before the session, and a dump is written after it; in
between nothing but the watch of the host is consulted.
-/

namespace Chip8.Main

/-- The disk as far as a command line needs it: its working directory, the
directories that its paths go through, and its program file, if it can be read. -/
def supply (arguments : List String) (environment : Option String) (home : Disk) : IO Disk := do
  match Runner.Options.read arguments with
  | .error _ => return home
  | .ok options =>
    let passed :=
      match options.dump with
      | some (some target) => home.makeWay (home.chainOf (.ofText target))
      | _ => home
    match Rom.choosePath (options.rom.bind id) environment with
    | none => return passed
    | some path =>
      try
        let content ← IO.FS.readBinFile path.text
        return passed.add path (.file content.toList)
      catch _ => return passed

/-- Milliseconds as an amount of seconds. -/
def seconds (milliseconds : Nat) : Number := .ofRat ((milliseconds : Rat) / 1000)

/-- Play a session frame by frame, with a look at the watch before each of them. -/
partial def play (job : Runner.Job) (steps started : Nat) (session : Session) :
    IO (Except Runner.Stop Session) := do
  if session.ending.isSome then return .ok session
  let now ← IO.monoMsNow
  let reading := fun count => if count = 0 then Number.whole 0 else seconds (now - started)
  match job.limits reading with
  | .ok limits => play job steps started (session.play limits steps 1)
  | .error stop => return .error stop

/-- Run a job from its start. -/
def perform (job : Runner.Job) : IO (Except Runner.Stop Session) := do
  match job.machine.clock.stepsPerFrame with
  | .ok steps => play job steps (← IO.monoMsNow) (.begin job.machine)
  | .error misuse => return .error (.ofNumber misuse)

/-- Print the output, write the changed files, and give the exit code. -/
def deliver (report : Runner.Report) (before : Disk) : IO UInt32 := do
  let stdout ← IO.getStdout
  for piece in report.output do
    stdout.write (ByteArray.mk piece.content.toArray)
  stdout.flush
  IO.eprint report.errors
  for (chain, content) in report.disk.changedSince before do
    IO.FS.writeBinFile ("/" ++ "/".intercalate chain) (ByteArray.mk content.toArray)
  match report.ending with
  | .exit code => return UInt32.ofNat code
  | .broken breakdown =>
    IO.eprintln breakdown.message
    return 1

/-- Run a command line. -/
def run (arguments : List String) : IO UInt32 := do
  let program ← IO.getEnv Rom.variableName
  let home := Disk.bare (Disk.Path.ofText (← IO.currentDir).toString).components
  let disk ← supply arguments program home
  match Runner.prepare arguments program disk with
  | .error stop => deliver (Runner.decline disk stop) disk
  | .ok job =>
    match ← perform job with
    | .ok session => deliver (Runner.conclude job.options job.plan disk session) disk
    | .error stop => deliver (Runner.decline disk stop) disk

end Chip8.Main

def main (arguments : List String) : IO UInt32 := Chip8.Main.run arguments
