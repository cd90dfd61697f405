import Chip8.Machine

/-!
# Snapshots

The registers of a machine as people read them: sixteen bytes in two lines, the
special registers and timers in a third, and the return addresses, if there are
any, in a fourth.
-/

namespace Chip8

/-- The values shown. -/
structure Snapshot where
  v : List Int
  index : Int
  pc : Int
  /-- Return addresses, the oldest first. -/
  stack : List Int
  delay : Int
  sound : Int
deriving DecidableEq, Repr

namespace Snapshot

/-- The registers and timers of a machine. -/
def ofMachine (machine : Machine) : Snapshot where
  v := machine.registers.v.toList.map fun value => value.toNat
  index := machine.registers.index.toNat
  pc := machine.registers.pc.toNat
  stack := machine.registers.stack.oldestFirst.map fun address => address.toNat
  delay := machine.timers.delay.toNat
  sound := machine.timers.sound.toNat

/-- Registers with consecutive numbers in one line. -/
def registerLine (first : Nat) (values : List Int) : String :=
  " ".intercalate (values.zipIdx.map fun (value, offset) =>
    "V" ++ Hex.padded 1 (first + offset) ++ "=" ++ Hex.paddedInt 2 value)

/-- The special registers and the timers. -/
def specialLine (snapshot : Snapshot) : String :=
  "PC=" ++ Hex.paddedInt 4 snapshot.pc ++ " I=" ++ Hex.paddedInt 4 snapshot.index ++
    " SP=" ++ Hex.padded 1 snapshot.stack.length ++ " DT=" ++ Hex.paddedInt 2 snapshot.delay ++
    " ST=" ++ Hex.paddedInt 2 snapshot.sound

/-- The return addresses. -/
def stackLine (stack : List Int) : String :=
  "STACK " ++ " ".intercalate (stack.map (Hex.paddedInt 3))

/-- The lines of a snapshot. -/
def lines (snapshot : Snapshot) : List String :=
  [registerLine 0 (snapshot.v.take 8), registerLine 8 (snapshot.v.drop 8), snapshot.specialLine] ++
    (if snapshot.stack.isEmpty then [] else [stackLine snapshot.stack])

end Snapshot

end Chip8
