import Chip8.Machine
import Chip8.Registers.Arithmetic

/-!
# Carrying out an instruction

Every operation does what can fail first and changes the machine after that, so
that a fault finds the machine as it was. An operation ends by moving to the
next instruction, unless it jumps; waiting for a key changes nothing.
-/

namespace Chip8

/-- How an instruction ended. -/
inductive Progress where
  | executed
  /-- No key is down; the instruction will be attempted again. -/
  | waiting
  /-- The instruction is complete, but the time cannot be told and the beeper is
  not adjusted. -/
  | untimed (misuse : Number.Misuse)
deriving DecidableEq, Repr

namespace Machine

/-- An instruction is complete, with these registers. -/
def complete (machine : Machine) (registers : Registers) : Traced (Progress × Machine) :=
  pure (.executed, { machine with registers })

/-- Whether the key of a register's number is down. No key has a number above
fifteen. -/
def keyDown (machine : Machine) (x : Fin 16) : Bool :=
  let number := machine.registers.get x
  number < 16 && machine.keypad.isPressed (Fin.ofNat 16 number.toNat)

/-- The index after a block of registers was stored or loaded. -/
def passBlock (machine : Machine) (x : Fin 16) : Registers :=
  if machine.dialect.storeLoadIncrementsIndex then machine.registers.moveIndex (x.val + 1)
  else machine.registers

/-- Rows of two bytes, the high byte first. -/
def wideRows : List UInt8 → List Int
  | high :: low :: rest => (256 * high.toNat + low.toNat : Int) :: wideRows rest
  | _ => []

/-- Whether a sprite without height stands for the wide sprite of the larger screen. -/
def drawsWide (machine : Machine) (height : Fin 16) : Bool :=
  height = 0 && machine.dialect.extendedDisplay && machine.screen.extended

/-- The sprite at the index: as many bytes as it is high, or sixteen rows of two
bytes. -/
def sprite (machine : Machine) (height : Fin 16) : Except Fault Sprite :=
  if machine.drawsWide height then
    (machine.memory.readBlock machine.registers.index.toNat 32).map fun bytes =>
      ⟨16, wideRows bytes⟩
  else
    (machine.memory.readBlock machine.registers.index.toNat height.val).map fun bytes =>
      ⟨8, bytes.map fun row => (row.toNat : Int)⟩

def clipping (dialect : Dialect) : Clipping :=
  ⟨dialect.clipSpritesVertically, dialect.clipSpritesHorizontally⟩

/-- The decimal digits of a byte, hundreds first. -/
def decimalDigits (value : UInt8) : List UInt8 := [value / 100, value / 10 % 10, value % 10]

/-- Carry out one operation with the operands of its word. -/
def carryOut (machine : Machine) (word : Word) (operation : Operation) :
    Traced (Progress × Machine) :=
  let registers := machine.registers
  let dialect := machine.dialect
  let x := word.x
  let y := word.y
  match operation with
  | .clear => { machine with screen := machine.screen.clear }.complete registers.advance
  | .ret => do
    let (address, stack) ← .ofExcept registers.stack.pop
    machine.complete ({ registers with stack }.jump address)
  | .lowResolution =>
    { machine with screen := machine.screen.setExtended false }.complete registers.advance
  | .highResolution =>
    { machine with screen := machine.screen.setExtended true }.complete registers.advance
  | .sys => machine.complete registers.advance
  | .jump => machine.complete (registers.jump word.nnn)
  | .call => do
    let stack ← .ofExcept (registers.stack.push (registers.pc + 2))
    machine.complete ({ registers with stack }.jump word.nnn)
  | .skipIfByte => machine.complete (registers.skipIf (registers.get x == word.nn))
  | .skipUnlessByte => machine.complete (registers.skipIf (registers.get x != word.nn))
  | .skipIfEqual => machine.complete (registers.skipIf (registers.get x == registers.get y))
  | .loadByte => machine.complete (registers.set x word.nn).advance
  | .addByte => machine.complete (registers.set x (registers.get x + word.nn)).advance
  | .copy => machine.complete (registers.set x (registers.get y)).advance
  | .or =>
    machine.complete
      (registers.combine x (registers.get x ||| registers.get y) dialect.logicResetsVf).advance
  | .and =>
    machine.complete
      (registers.combine x (registers.get x &&& registers.get y) dialect.logicResetsVf).advance
  | .xor =>
    machine.complete
      (registers.combine x (registers.get x ^^^ registers.get y) dialect.logicResetsVf).advance
  | .add => machine.complete (registers.add x y).advance
  | .subtract => machine.complete (registers.subtract x y).advance
  | .shiftRight =>
    machine.complete (registers.shiftRight x (if dialect.shiftUsesVy then y else x)).advance
  | .subtractFrom => machine.complete (registers.subtractFrom x y).advance
  | .shiftLeft =>
    machine.complete (registers.shiftLeft x (if dialect.shiftUsesVy then y else x)).advance
  | .skipUnlessEqual => machine.complete (registers.skipIf (registers.get x != registers.get y))
  | .loadIndex => machine.complete (registers.setIndex word.nnn).advance
  | .jumpOffset =>
    let offset := registers.get (if dialect.jumpWithOffsetUsesVx then x else 0)
    machine.complete (registers.jump (word.nnn + UInt16.ofNat offset.toNat))
  | .random =>
    let (drawn, random) := machine.random.draw
    { machine with random }.complete (registers.set x (drawn &&& word.nn)).advance
  | .draw => do
    let sprite ← .ofExcept (machine.sprite word.n)
    let (screen, collided) := machine.screen.draw
      (registers.get x).toNat (registers.get y).toNat sprite (clipping dialect)
    { machine with screen }.complete (registers.setFlag collided).advance
  | .skipIfKey => machine.complete (registers.skipIf (machine.keyDown x))
  | .skipUnlessKey => machine.complete (registers.skipIf (!machine.keyDown x))
  | .readDelay => machine.complete (registers.set x machine.timers.delay).advance
  | .awaitKey =>
    match machine.keypad.firstPressed? with
    | some key => machine.complete (registers.set x (UInt8.ofNat key.val)).advance
    | none => pure (.waiting, machine)
  | .setDelay =>
    { machine with timers := { machine.timers with delay := registers.get x } }.complete
      registers.advance
  | .setSound =>
    { machine with timers := { machine.timers with sound := registers.get x } }.complete
      registers.advance
  | .addIndex => machine.complete (registers.moveIndex (registers.get x).toNat).advance
  | .loadGlyph =>
    let address := Memory.glyphAddress (registers.get x).toNat
    machine.complete (registers.setIndex (UInt16.ofNat address)).advance
  | .storeDecimal => do
    let memory ← machine.memory.writeBlock registers.index.toNat (decimalDigits (registers.get x))
    { machine with memory }.complete registers.advance
  | .store => do
    let memory ← machine.memory.writeBlock registers.index.toNat (registers.upTo x)
    { machine with memory }.complete (machine.passBlock x).advance
  | .load => do
    let bytes ← .ofExcept (machine.memory.readBlock registers.index.toNat (x.val + 1))
    machine.complete ((machine.passBlock x).loadFrom 0 bytes).advance

/-- Read the word at the program counter. Instructions stand at even addresses,
and both bytes have to be there. -/
def fetch (machine : Machine) : Traced Word :=
  let pc := machine.registers.pc
  if pc % 2 = 1 ∨ machine.memory.size ≤ pc.toNat + 1 then .fail (.invalidFetch pc)
  else machine.memory.readWord pc.toNat

/-- A core that sits in no machine has nothing to fetch from. -/
structure Detached where
deriving DecidableEq, Repr

def Detached.message (_ : Detached) : String := "hardware is not attached to Chip8CPU"

/-- Fetch for a core that may sit in no machine. -/
def fetchFor : Option Machine → Except Detached (Traced Word)
  | some machine => .ok machine.fetch
  | none => .error {}

/-- Keep an attempted instruction, and count it if it is complete. -/
def note (machine : Machine) (instruction : Instruction) : Progress → Machine
  | .executed | .untimed _ =>
    { machine with last := some instruction, executed := machine.executed + 1 }
  | .waiting => { machine with last := some instruction }

/-- Adjust the beeper after a complete instruction. -/
def settle (machine : Machine) : Progress × Machine :=
  ((machine.lostTime?.map Progress.untimed).getD .executed, machine.adjustBeeper)

/-- Fetch, decode and carry out the next instruction. The beeper is adjusted
when the instruction has set the sound timer. -/
def step (machine : Machine) : Traced (Progress × Machine) := do
  let word ← machine.fetch
  let instruction ← .ofExcept
    (Instruction.decode machine.dialect.extendedDisplay machine.registers.pc.toNat word)
  let (progress, after) ← machine.carryOut word instruction.operation
  let noted := after.note instruction progress
  pure (if instruction.operation = .setSound then noted.settle else (progress, noted))

end Machine

end Chip8
