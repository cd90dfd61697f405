import Chip8.Machine.Run

/-!
# Sessions

A session runs a machine without a window, frame by frame, until one of its
limits is reached, a breakpoint is met, time is up, or a fault occurs. Words
without meaning can be skipped instead. On request every attempted instruction
is reported before it is carried out. Where the length of a frame or the time of
the machine cannot be told, the session breaks off.

A breakpoint never stops the first step, so that a session can be continued
from where it was stopped.
-/

namespace Chip8

/-- What ends a session, and what it reports. -/
structure Session.Limits where
  frames : Option Int
  steps : Option Int
  /-- Addresses, of which only the lower twelve bits count. -/
  breakpoints : List Int
  /-- Move over a word without meaning instead of stopping. -/
  skipsUnknown : Bool
  /-- Report every attempt. -/
  reports : Bool
  /-- Whether time is up after a number of frames. -/
  timeUp : Nat → Bool

/-- Why a session has ended. -/
inductive Session.Ending where
  | frameLimit
  | stepLimit
  | breakpoint
  | timeUp
  | fault (fault : Fault)
  | number (misuse : Number.Misuse)
deriving DecidableEq, Repr

/-- How far a session has come. -/
structure Session where
  machine : Machine
  accesses : Array Access
  reports : Array String
  /-- Attempts that did not end the session. -/
  steps : Nat
  /-- Complete frames. -/
  frames : Nat
  /-- Words without meaning that were moved over. -/
  skipped : Nat
  /-- Whether the last step waits for a key. -/
  waiting : Bool
  ending : Option Session.Ending

namespace Session

def begin (machine : Machine) : Session := ⟨machine, #[], #[], 0, 0, 0, false, none⟩

/-- Addresses that can be told apart by breakpoints. -/
def addressSpace : Nat := 0x1000

/-- Whether a breakpoint is set at an address. -/
def Limits.breaksAt (limits : Limits) (address : Nat) : Bool :=
  limits.breakpoints.any fun breakpoint => breakpoint % addressSpace == address

/-- Whether a count has reached its limit, if it has one. -/
def reached (limit : Option Int) (count : Nat) : Bool :=
  match limit with
  | some limit => limit ≤ count
  | none => false

/-- The word at the program counter as a report shows it, zero outside of memory. -/
def shownWord (machine : Machine) : Traced Word :=
  let pc := machine.registers.pc.toNat
  if pc + 1 < machine.memory.size then machine.memory.readWord pc else pure 0

/-- The report of an attempt. -/
def report (address : Nat) (word : Word) : String :=
  Hex.padded 3 address ++ ": " ++ Hex.padded 4 word.toNat ++ "  " ++ disassemble false word

/-- Report the attempt that comes next. -/
def announce (session : Session) : Session :=
  let shown := shownWord session.machine
  match shown.result with
  | .ok word =>
    { session with
      accesses := session.accesses ++ shown.accesses
      reports := session.reports.push (report session.machine.registers.pc.toNat word) }
  | .error _ => { session with accesses := session.accesses ++ shown.accesses }

def finish (session : Session) (ending : Ending) : Session :=
  { session with ending := some ending }

/-- What becomes of a session when a step fails. Only a word without meaning can
be skipped. -/
def fail (session : Session) (skipsUnknown : Bool) (fault : Fault) : Session :=
  match fault, skipsUnknown with
  | .unknownOpcode .., true =>
    { session with
      machine := session.machine.skip
      reports := session.reports.push ("skipping " ++ fault.message)
      steps := session.steps + 1
      skipped := session.skipped + 1
      waiting := false }
  | _, _ => session.finish (.fault fault)

/-- Attempt the next instruction. -/
def step (session : Session) (skipsUnknown : Bool) : Session :=
  let traced := session.machine.step
  let seen := { session with accesses := session.accesses ++ traced.accesses }
  match traced.result with
  | .ok (.untimed misuse, machine) => { seen with machine }.finish (.number misuse)
  | .ok (progress, machine) =>
    { seen with machine, steps := session.steps + 1, waiting := progress == .waiting }
  | .error fault => seen.fail skipsUnknown fault

/-- Check limit and breakpoints, and attempt the next instruction. -/
def attempt (limits : Limits) (session : Session) : Session :=
  if reached limits.steps session.steps then session.finish .stepLimit
  else if session.steps != 0 && limits.breaksAt session.machine.registers.pc.toNat then
    session.finish .breakpoint
  else (if limits.reports then session.announce else session).step limits.skipsUnknown

/-- A number of attempts, or fewer if the session ends. -/
def attempts (limits : Limits) : Nat → Session → Session
  | 0, session => session
  | count + 1, session =>
    if session.ending.isSome then session
    else attempts limits count (session.attempt limits)

/-- The tick after the steps of a frame. Then time may be up. -/
def closeFrame (limits : Limits) (session : Session) : Session :=
  if session.ending.isSome then session
  else
    let ticked := { session with machine := session.machine.tick }
    match session.machine.lostTime? with
    | some misuse => ticked.finish (.number misuse)
    | none =>
      let closed := { ticked with frames := session.frames + 1 }
      if limits.timeUp closed.frames then closed.finish .timeUp else closed

/-- One frame of the given number of steps. -/
def frame (limits : Limits) (stepsPerFrame : Nat) (session : Session) : Session :=
  (session.attempts limits stepsPerFrame).closeFrame limits

/-- At most `fuel` frames. The limit of frames is checked before each of them. -/
def play (limits : Limits) (stepsPerFrame : Nat) : Nat → Session → Session
  | 0, session => session
  | fuel + 1, session =>
    if session.ending.isSome then session
    else if reached limits.frames session.frames then session.finish .frameLimit
    else play limits stepsPerFrame fuel (session.frame limits stepsPerFrame)

/-- Frames of a session without a limit. -/
def patience : Nat := Nat.pow 10 15

/-- Frames within which a limited session ends. Every frame has a step, so that
a limit of steps bounds the frames as well. -/
def Limits.fuel (limits : Limits) : Nat :=
  match limits.frames, limits.steps with
  | some frames, _ => frames.toNat + 1
  | none, some steps => steps.toNat + 2
  | none, none => patience

/-- Run a machine until its session ends. -/
def run (limits : Limits) (machine : Machine) : Session :=
  match machine.clock.stepsPerFrame with
  | .ok steps => (begin machine).play limits steps limits.fuel
  | .error misuse => (begin machine).finish (.number misuse)

/-- The fault that ended the session. -/
def fault? (session : Session) : Option Fault :=
  match session.ending with
  | some (.fault fault) => some fault
  | _ => none

/-- Why the session has broken off. -/
def misuse? (session : Session) : Option Number.Misuse :=
  match session.ending with
  | some (.number misuse) => some misuse
  | _ => none

end Session

end Chip8
