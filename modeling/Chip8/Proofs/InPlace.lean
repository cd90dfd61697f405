import Chip8.Proofs.Grid
import Chip8.Proofs.Storage

/-!
# Instructions in place

The parts of a machine are written one after the other, byte by byte and pixel by
pixel, and what was written before a break stays written. Here every operation is
spelled out as such a sequence of writes, with each check where it is made and with
every way to break off: faults, a screen without pixels, a register that does not
exist, a time that cannot be told.

On a screen that is a grid with an area the sequences come to the same as the pure
step: a fault is always found before the first write, and of the other breaks only
the lost time is left, which is noticed when everything is written.
-/

namespace Chip8

/-- Why a computation broke off. -/
inductive Break where
  | fault (fault : Fault)
  | number (misuse : Number.Misuse)
  | screen (misuse : Screen.Misuse)
  /-- No register has the number. -/
  | register (number : Nat)
deriving DecidableEq, Repr

/-- A computation that writes to a machine as it goes. -/
abbrev InPlace := EStateM Break Machine

namespace InPlace

variable {α : Type}

/-- Take a result, or break off at its fault. -/
def taking (result : Except Fault α) : InPlace α :=
  match result with
  | .ok value => pure value
  | .error fault => throw (.fault fault)

def changeRegisters (change : Registers → Registers) : InPlace Unit :=
  modify fun machine => { machine with registers := change machine.registers }

def setRegister (x : Fin 16) (value : UInt8) : InPlace Unit := changeRegisters (·.set x value)

def setFlag (on : Bool) : InPlace Unit := changeRegisters (·.setFlag on)

def setIndex (value : UInt16) : InPlace Unit := changeRegisters (·.setIndex value)

/-- Complete an operation by moving the program counter. -/
def moving (change : Registers → Registers) : InPlace Progress := do
  changeRegisters change
  pure .executed

def jump (address : UInt16) : InPlace Progress := moving (·.jump address)

def advance : InPlace Progress := moving (·.advance)

def skipIf (condition : Bool) : InPlace Progress := moving (·.skipIf condition)

def changeTimers (change : Timers → Timers) : InPlace Unit :=
  modify fun machine => { machine with timers := change machine.timers }

def changeScreen (change : Screen → Screen) : InPlace Unit :=
  modify fun machine => { machine with screen := change machine.screen }

/-- Write a register of any number. -/
def setNumbered (number : Nat) (value : UInt8) : InPlace Unit :=
  if named : number < 16 then setRegister ⟨number, named⟩ value else throw (.register number)

/-- Write consecutive registers. -/
def loadFrom (first : Nat) : List UInt8 → InPlace Unit
  | [] => pure ()
  | value :: rest => do
    setNumbered first value
    loadFrom (first + 1) rest

/-- Take the top address off the stack. -/
def popStack : InPlace UInt16 := do
  let stack := (← get).registers.stack
  match stack.entries with
  | [] => throw (.fault .stackUnderflow)
  | address :: rest => do
    changeRegisters fun registers => { registers with stack := { stack with entries := rest } }
    pure address

/-- Put an address on top of the stack. -/
def pushStack (address : UInt16) : InPlace Unit := do
  let stack := (← get).registers.stack
  if stack.capacity ≤ stack.depth then throw (.fault (.stackOverflow (stack.depth + 1)))
  changeRegisters fun registers =>
    { registers with stack := { stack with entries := address :: stack.entries } }

/-- Break off unless the address can be written. -/
def checkWritable (address : Int) : InPlace Unit := do
  unless (← get).memory.writable address do throw (.fault (.memoryAccess address true))

/-- Write one byte of memory. -/
def writeByte (address : Int) (value : UInt8) : InPlace Unit := do
  checkWritable address
  modify fun machine =>
    { machine with
      memory := { machine.memory with
        bytes := machine.memory.bytes.setIfInBounds address.toNat value } }

/-- Write consecutive bytes of memory. -/
def writeBytes (address : Int) : List UInt8 → InPlace Unit
  | [] => pure ()
  | value :: rest => do
    writeByte address value
    writeBytes (address + 1) rest

/-- Write a block of memory after a look at its two ends. -/
def writeBlock (address : Int) (values : List UInt8) : InPlace Unit := do
  unless values.isEmpty do
    checkWritable address
    checkWritable (address + values.length - 1)
    writeBytes address values

/-- Draw the remaining bits of a sprite's row. The first bit that is cut off ends the row. -/
def drawBits (x : Int) (sprite : Sprite) (clipped : Bool) (row : Int) (y : Nat) :
    List Nat → Bool → InPlace Bool
  | [], collided => pure collided
  | column :: rest, collided => do
    if sprite.bit row column then
      let screen := (← get).screen
      match Screen.place screen.width.toNat x clipped column with
      | none => pure collided
      | some landed =>
        match screen.rows[y]?.bind (fun pixels => pixels[landed]?) with
        | none => throw (.screen .noPixel)
        | some wasLit => do
          changeScreen (·.flip landed y)
          drawBits x sprite clipped row y rest (collided || wasLit)
    else drawBits x sprite clipped row y rest collided

/-- Draw the remaining rows of a sprite. The first row that is cut off ends the sprite. -/
def drawRows (x y : Int) (sprite : Sprite) (clipping : Clipping) :
    List Int → Nat → Bool → InPlace Bool
  | [], _, collided => pure collided
  | row :: rest, distance, collided => do
    let screen := (← get).screen
    match Screen.place screen.height.toNat y clipping.vertically distance with
    | none => pure collided
    | some landed =>
      if landed < screen.rows.size then
        let collided ← drawBits x sprite clipping.horizontally row landed
          (List.range sprite.width) collided
        drawRows x y sprite clipping rest (distance + 1) collided
      else throw (.screen .noPixel)

/-- Draw a sprite, and tell whether a lit pixel went dark. -/
def draw (x y : Int) (sprite : Sprite) (clipping : Clipping) : InPlace Bool := do
  let screen := (← get).screen
  if screen.width = 0 ∨ screen.height = 0 then throw (.screen .noArea)
  drawRows x y sprite clipping sprite.rows 0 false

/-- Give the screen its size, then darken it. -/
def resize (width height : Int) : InPlace Unit := do
  changeScreen fun screen => { screen with width := width, height := height }
  changeScreen (·.clear)

/-- Carry out one operation with the operands of its word, write by write. -/
def carryOut (word : Word) (operation : Operation) : InPlace Progress := do
  let machine ← get
  let registers := machine.registers
  let x := word.x
  let y := word.y
  match operation with
  | .clear =>
    changeScreen (·.clear)
    advance
  | .ret =>
    let address ← popStack
    jump address
  | .lowResolution =>
    resize Screen.standardWidth Screen.standardHeight
    advance
  | .highResolution =>
    resize Screen.extendedWidth Screen.extendedHeight
    advance
  | .sys => advance
  | .jump => jump word.nnn
  | .call =>
    pushStack (registers.pc + 2)
    jump word.nnn
  | .skipIfByte => skipIf (registers.get x == word.nn)
  | .skipUnlessByte => skipIf (registers.get x != word.nn)
  | .skipIfEqual => skipIf (registers.get x == registers.get y)
  | .loadByte =>
    setRegister x word.nn
    advance
  | .addByte =>
    setRegister x (registers.get x + word.nn)
    advance
  | .copy =>
    setRegister x (registers.get y)
    advance
  | .or => logic x (registers.get x ||| registers.get y)
  | .and => logic x (registers.get x &&& registers.get y)
  | .xor => logic x (registers.get x ^^^ registers.get y)
  | .add =>
    let left := registers.get x
    let right := registers.get y
    store x (left + right) (255 < left.toNat + right.toNat)
  | .subtract =>
    let left := registers.get x
    let right := registers.get y
    store x (left - right) (right ≤ left)
  | .shiftRight =>
    let value := registers.get (if machine.dialect.shiftUsesVy then y else x)
    store x (value / 2) (value % 2 = 1)
  | .subtractFrom =>
    let left := registers.get x
    let right := registers.get y
    store x (right - left) (left ≤ right)
  | .shiftLeft =>
    let value := registers.get (if machine.dialect.shiftUsesVy then y else x)
    store x (value + value) (128 ≤ value)
  | .skipUnlessEqual => skipIf (registers.get x != registers.get y)
  | .loadIndex =>
    setIndex word.nnn
    advance
  | .jumpOffset =>
    let offset := registers.get (if machine.dialect.jumpWithOffsetUsesVx then x else 0)
    jump (word.nnn + UInt16.ofNat offset.toNat)
  | .random =>
    modify fun machine => { machine with random := machine.random.draw.2 }
    setRegister x (machine.random.draw.1 &&& word.nn)
    advance
  | .draw =>
    let sprite ← taking (machine.sprite word.n)
    let collided ← draw (registers.get x).toNat (registers.get y).toNat sprite
      (Machine.clipping machine.dialect)
    setFlag collided
    advance
  | .skipIfKey => skipIf (machine.keyDown x)
  | .skipUnlessKey => skipIf (!machine.keyDown x)
  | .readDelay =>
    setRegister x machine.timers.delay
    advance
  | .awaitKey =>
    match machine.keypad.firstPressed? with
    | some key =>
      setRegister x (UInt8.ofNat key.val)
      advance
    | none => pure .waiting
  | .setDelay =>
    changeTimers ({ · with delay := registers.get x })
    advance
  | .setSound =>
    changeTimers ({ · with sound := registers.get x })
    advance
  | .addIndex =>
    changeRegisters (·.moveIndex (registers.get x).toNat)
    advance
  | .loadGlyph =>
    setIndex (UInt16.ofNat (Memory.glyphAddress (registers.get x).toNat))
    advance
  | .storeDecimal =>
    writeBlock registers.index.toNat (Machine.decimalDigits (registers.get x))
    advance
  | .store =>
    writeBlock registers.index.toNat (registers.upTo x)
    passBlock x
    advance
  | .load =>
    let bytes ← taking (machine.memory.readBlock registers.index.toNat (x.val + 1))
    loadFrom 0 bytes
    passBlock x
    advance
where
  /-- Store a combination of bits, and lower the flag if the dialect asks for it. -/
  logic (x : Fin 16) (value : UInt8) : InPlace Progress := do
    setRegister x value
    if (← get).dialect.logicResetsVf then setFlag false
    advance
  /-- Store a result, then the flag that goes with it. -/
  store (x : Fin 16) (value : UInt8) (flagged : Bool) : InPlace Progress := do
    setRegister x value
    setFlag flagged
    advance
  /-- Move the index over a block where the dialect asks for it. -/
  passBlock (x : Fin 16) : InPlace Unit := do
    if (← get).dialect.storeLoadIncrementsIndex then
      changeRegisters (·.moveIndex (x.val + 1))

/-- Switch the beeper to what status and sound timer ask for, or break off because the
time cannot be told. -/
def adjustBeeper : InPlace Unit := do
  let machine ← get
  match machine.clock.seconds with
  | .ok now =>
    let active := machine.isRunning && machine.timers.soundActive
    modify fun machine => { machine with beeper := machine.beeper.setActive now active }
  | .error misuse => throw (.number misuse)

/-- Keep an attempted instruction, count it if it is complete, and adjust the beeper if
it has set the sound timer. -/
def conclude (instruction : Instruction) (progress : Progress) : InPlace Progress := do
  modify fun machine => { machine with last := some instruction }
  if progress = .waiting then return progress
  modify fun machine => { machine with executed := machine.executed + 1 }
  if instruction.operation = .setSound then adjustBeeper
  return progress

/-- Fetch, decode and carry out the next instruction, write by write. -/
def step : InPlace Progress := do
  let machine ← get
  let word ← taking machine.fetch.result
  let instruction ← taking
    (Instruction.decode machine.dialect.extendedDisplay machine.registers.pc.toNat word)
  let progress ← carryOut word instruction.operation
  conclude instruction progress

variable {ε σ β : Type} {state after : σ}

/-- After a part that went through, the rest goes on from what it left. -/
theorem run_bind_of_ok {first : EStateM ε σ α} {next : α → EStateM ε σ β} {value : α}
    (went : first.run state = .ok value after) :
    (first >>= next).run state = (next value).run after := by
  change EStateM.bind first next state = _
  rw [EStateM.bind, show first state = _ from went]
  rfl

/-- To read the state changes nothing. -/
theorem run_get_bind (next : σ → EStateM ε σ α) :
    ((get : EStateM ε σ σ) >>= next).run state = (next state).run state := rfl

/-- A part that broke off breaks off the whole. -/
theorem run_bind_of_error {first : EStateM ε σ α} {next : α → EStateM ε σ β}
    {reason : ε} (broke : first.run state = .error reason after) :
    (first >>= next).run state = .error reason after := by
  change EStateM.bind first next state = _
  rw [EStateM.bind, show first state = _ from broke]

end InPlace

end Chip8
