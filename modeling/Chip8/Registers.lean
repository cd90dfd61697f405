import Chip8.CallStack
import Chip8.Instruction.Word
import Chip8.Memory

/-!
# Registers

Sixteen byte registers, the index register, the program counter and the call
stack. Register F doubles as the flag of the instructions that report a carry,
a borrow or a collision. Every stored number is reduced to its register's
width.
-/

namespace Chip8

/-- The register file. -/
structure Registers where
  v : Vector UInt8 16
  index : UInt16
  pc : UInt16
  stack : CallStack
deriving DecidableEq, Repr

namespace Registers

/-- The number of the flag register. -/
def flag : Fin 16 := 0xF

/-- Cleared registers around a stack, with the program counter at the start of
the program area. -/
def cleared (stack : CallStack) : Registers :=
  ⟨Vector.replicate 16 0, 0, UInt16.ofNat Memory.programStart, stack⟩

def initial : Registers := cleared CallStack.empty

def get (registers : Registers) (x : Fin 16) : UInt8 := registers.v.get x

/-- The file has a register for every digit. -/
theorem number_lt (x : Fin 16) : x.val < 16 := x.isLt

def set (registers : Registers) (x : Fin 16) (value : UInt8) : Registers :=
  { registers with v := registers.v.set x value (number_lt x) }

/-- Raise or lower the flag. -/
def setFlag (registers : Registers) (on : Bool) : Registers :=
  registers.set flag (if on then 1 else 0)

def setIndex (registers : Registers) (value : UInt16) : Registers :=
  { registers with index := value }

def jump (registers : Registers) (address : UInt16) : Registers :=
  { registers with pc := address }

/-- Move over instructions, each of two bytes; a negative count moves back. The
program counter wraps around at its width. -/
def advanceBy (registers : Registers) (count : Int) : Registers :=
  registers.jump (UInt16.ofInt (registers.pc.toNat + 2 * count))

/-- Move to the next instruction. -/
def advance (registers : Registers) : Registers := registers.jump (registers.pc + 2)

/-- Move over the next instruction as well when the condition holds. -/
def skipIf (registers : Registers) (condition : Bool) : Registers :=
  registers.jump (registers.pc + (if condition then 4 else 2))

/-- Return to the start of the program with everything cleared. -/
def reset (registers : Registers) : Registers := cleared registers.stack.clear

/-- The register that a signed number names. Numbers below zero count back from
the end of the file. -/
def number? (x : Int) : Option (Fin 16) :=
  if 0 ≤ x ∧ x < 16 then some (Fin.ofNat 16 x.toNat)
  else if -16 ≤ x ∧ x < 0 then some (Fin.ofNat 16 (x + 16).toNat)
  else none

/-- A register reads back what was set. -/
@[simp]
theorem get_set (registers : Registers) (x : Fin 16) (value : UInt8) :
    (registers.set x value).get x = value := by
  exact Vector.getElem_set_self (number_lt x)

/-- Setting a register leaves the others alone. -/
theorem get_set_of_ne (registers : Registers) {x y : Fin 16} (apart : x ≠ y) (value : UInt8) :
    (registers.set x value).get y = registers.get y := by
  have numbers : x.val ≠ y.val := fun same => apart (Fin.ext same)
  exact Vector.getElem_set_ne (number_lt x) (number_lt y) numbers

/-- Moving the program counter changes no register. -/
@[simp]
theorem get_jump (registers : Registers) (address : UInt16) (x : Fin 16) :
    (registers.jump address).get x = registers.get x := rfl

end Registers

end Chip8
