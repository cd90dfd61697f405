import Chip8.Proofs.Effects

/-!
# Carries and borrows

Five operations leave more than a byte. Their exact results are told in whole numbers, from the
two registers as they were before the step: result and flag together lose nothing. A sum has its
carry in the flag, a difference is raised by what is borrowed, and a shift keeps the bit that
falls out.

The flag is written last, and the operands are read first. So the flag tells what it should
even where it is an operand itself, or where the result was meant for it; then the result is
lost. The addition of a byte reports nothing, and does not touch the flag unless it adds to it.
-/

namespace Chip8

namespace Registers

/-- A result stays, unless its report takes its place. -/
theorem get_store {x : Fin 16} (registers : Registers) (apart : x ≠ flag) (value : UInt8)
    (flagged : Bool) : (registers.store x value flagged).get x = value := by
  rw [store, setFlag, get_set_of_ne _ (Ne.symm apart), get_set]

end Registers

/-- The operations of arithmetic that report in the flag. -/
inductive Arithmetic where
  | add
  | subtract
  | subtractFrom
  | shiftRight
  | shiftLeft
deriving DecidableEq, Repr

/-- The numbers that arithmetic starts from: those of the two registers, and the one of them
that a shift takes. -/
structure Operands where
  left : Nat
  right : Nat
  shifted : Nat
deriving DecidableEq, Repr

namespace Arithmetic

def operation : Arithmetic → Operation
  | add => .add
  | subtract => .subtract
  | subtractFrom => .subtractFrom
  | shiftRight => .shiftRight
  | shiftLeft => .shiftLeft

/-- When the flag is raised: for a carry, where nothing is borrowed, or for the bit that falls
out. -/
def raises (operands : Operands) : Arithmetic → Bool
  | add => 255 < operands.left + operands.right
  | subtract => operands.right ≤ operands.left
  | subtractFrom => operands.left ≤ operands.right
  | shiftRight => operands.shifted.testBit 0
  | shiftLeft => operands.shifted.testBit 7

/-- The byte that is stored, as a number. -/
def result (operands : Operands) : Arithmetic → Nat
  | add => (operands.left + operands.right) % 256
  | subtract => (256 - operands.right + operands.left) % 256
  | subtractFrom => (256 - operands.left + operands.right) % 256
  | shiftRight => operands.shifted / 2
  | shiftLeft => (operands.shifted + operands.shifted) % 256

/-- What result and flag make up together. -/
def Balances (operands : Operands) (result flag : Int) : Arithmetic → Prop
  | add => 256 * flag + result = operands.left + operands.right
  | subtract => result + 256 * flag = operands.left - operands.right + 256
  | subtractFrom => result + 256 * flag = operands.right - operands.left + 256
  | shiftRight => 2 * result + flag = operands.shifted
  | shiftLeft => 256 * flag + result = 2 * operands.shifted

/-- Operands of a byte each lose nothing. -/
theorem balances (kind : Arithmetic) (operands : Operands) (left : operands.left < 256)
    (right : operands.right < 256) (shifted : operands.shifted < 256) :
    kind.Balances operands (kind.result operands) (if kind.raises operands then 1 else 0) := by
  obtain ⟨a, b, s⟩ := operands
  dsimp only at left right shifted
  -- The flag decides whether the byte was wrapped around.
  cases kind
  case add =>
    by_cases carries : 255 < a + b <;> simp [Balances, result, raises, carries] <;> omega
  case subtract =>
    by_cases covered : b ≤ a <;> simp [Balances, result, raises, covered] <;> omega
  case subtractFrom =>
    by_cases covered : a ≤ b <;> simp [Balances, result, raises, covered] <;> omega
  case shiftRight =>
    by_cases odd : s % 2 = 1 <;> simp [Balances, result, raises, odd] <;> omega
  case shiftLeft =>
    by_cases high : s / 128 % 2 = 1 <;>
      simp [Balances, result, raises, Nat.testBit_eq_decide_div_mod_eq, high] <;> omega

end Arithmetic

namespace Machine

variable {machine : Machine} {word : Word}

/-- The operands of a word of arithmetic. -/
def operands (machine : Machine) (word : Word) : Operands where
  left := (machine.registers.get word.x).toNat
  right := (machine.registers.get word.y).toNat
  shifted :=
    if machine.dialect.shiftUsesVy then (machine.registers.get word.y).toNat
    else (machine.registers.get word.x).toNat

/-- What arithmetic with a report has made of the registers. -/
structure Computes (machine : Machine) (word : Word) (kind : Arithmetic) (next : Machine) :
    Prop where
  flag : next.registers.get Registers.flag = if kind.raises (machine.operands word) then 1 else 0
  balance : word.x ≠ Registers.flag →
    kind.Balances (machine.operands word) (next.registers.get word.x).toNat
      (next.registers.get Registers.flag).toNat
  others : ∀ register, register ≠ word.x → register ≠ Registers.flag →
    next.registers.get register = machine.registers.get register

/-- What the addition of a byte has made of the registers. -/
structure AddsByte (machine : Machine) (word : Word) (next : Machine) : Prop where
  sum : (next.registers.get word.x).toNat =
    ((machine.registers.get word.x).toNat + word.nn.toNat) % 256
  others : ∀ register, register ≠ word.x →
    next.registers.get register = machine.registers.get register

/-- The register that a shift takes holds the number that is shifted. -/
theorem operands_shifted (machine : Machine) (word : Word) :
    (machine.operands word).shifted =
      (machine.registers.get (if machine.dialect.shiftUsesVy then word.y else word.x)).toNat := by
  unfold operands
  dsimp only
  split <;> rfl

/-- The operands are bytes. -/
theorem operands_lt (machine : Machine) (word : Word) :
    (machine.operands word).left < 256 ∧ (machine.operands word).right < 256 ∧
      (machine.operands word).shifted < 256 := by
  rw [operands_shifted]
  exact ⟨UInt8.toNat_lt _, UInt8.toNat_lt _, UInt8.toNat_lt _⟩

/-- The report of arithmetic is told by its operands. -/
theorem report_operation (machine : Machine) (word : Word) (kind : Arithmetic) :
    machine.report word kind.operation = some (kind.raises (machine.operands word)) := by
  cases kind
  case add => rfl
  case subtract | subtractFrom =>
    exact congrArg some (decide_eq_decide.mpr UInt8.le_iff_toNat_le)
  case shiftRight =>
    simp only [Arithmetic.operation, report, Arithmetic.raises, operands_shifted,
      Nat.testBit_zero, ← UInt8.toNat_inj, UInt8.toNat_mod]
    rfl
  case shiftLeft =>
    have small := UInt8.toNat_lt
      (machine.registers.get (if machine.dialect.shiftUsesVy then word.y else word.x))
    simp only [Arithmetic.operation, report, Arithmetic.raises, operands_shifted,
      Nat.testBit_eq_decide_div_mod_eq, UInt8.le_iff_toNat_le]
    refine congrArg some (decide_eq_decide.mpr ?_)
    change 128 ≤ _ ↔ _ / 128 % 2 = 1
    omega

/-- Arithmetic stores its result and its report. -/
theorem carryOut_operation (machine : Machine) (word : Word) (kind : Arithmetic) :
    ∃ value flagged,
      machine.carryOut word kind.operation =
        machine.complete (machine.registers.store word.x value flagged).advance ∧
      value.toNat = kind.result (machine.operands word) := by
  cases kind
  case add => exact ⟨_, _, rfl, UInt8.toNat_add ..⟩
  case subtract | subtractFrom => exact ⟨_, _, rfl, UInt8.toNat_sub ..⟩
  case shiftRight =>
    refine ⟨_, _, rfl, ?_⟩
    rw [UInt8.toNat_div, Arithmetic.result, operands_shifted]
    rfl
  case shiftLeft =>
    refine ⟨_, _, rfl, ?_⟩
    rw [UInt8.toNat_add, Arithmetic.result, operands_shifted]

/-- Arithmetic with a report is complete, and tells the exact result in two registers. -/
theorem Finds.computes {kind : Arithmetic} (finds : machine.Finds word kind.operation) :
    ∃ next, machine.step.result = .ok (.executed, next) ∧ machine.Computes word kind next := by
  obtain ⟨value, flagged, carries, stored⟩ := carryOut_operation machine word kind
  let after : Machine :=
    { machine with registers := (machine.registers.store word.x value flagged).advance }
  have carried : (machine.carryOut word kind.operation).result = .ok (.executed, after) := by
    rw [carries]
    rfl
  have unsettled : kind.operation ≠ .setSound := by cases kind <;> decide
  have stepped : machine.step.result =
      .ok (.executed, after.note ⟨kind.operation, word⟩ .executed) := by
    rw [finds.step carried, conclude, if_neg unsettled]
  have flag := flag_of_carryOut carried (report_operation machine word kind)
  refine ⟨_, stepped, ?_⟩
  constructor
  case flag => exact flag
  case balance =>
    intro apart
    have result : after.registers.get word.x = value :=
      Registers.get_store machine.registers apart value flagged
    have report : ((after.registers.get Registers.flag).toNat : Int) =
        if kind.raises (machine.operands word) then 1 else 0 := by
      rw [flag]
      split <;> rfl
    obtain ⟨left, right, shifted⟩ := operands_lt machine word
    change kind.Balances _ (after.registers.get word.x).toNat
      (after.registers.get Registers.flag).toNat
    rw [result, stored, report]
    exact kind.balances _ left right shifted
  case others =>
    intro register notResult notFlag
    refine Classical.byContradiction fun changed => ?_
    rcases Registers.eq_of_store_ne changed with same | same
    · exact notResult same
    · exact notFlag same

/-- The addition of a byte is complete, and reports nothing. -/
theorem Finds.addsByte (finds : machine.Finds word .addByte) :
    ∃ next, machine.step.result = .ok (.executed, next) ∧ machine.AddsByte word next := by
  refine ⟨_, finds.step rfl, ?_⟩
  constructor
  case sum =>
    change ((machine.registers.set word.x _).get word.x).toNat = _
    rw [Registers.get_set, UInt8.toNat_add]
  case others =>
    intro register apart
    exact Registers.get_set_of_ne _ (Ne.symm apart) _

/-- On every machine and for all registers, be they one or the flag: arithmetic leaves in the
flag what it has to report, tells the exact result with it where the result is not lost, and
changes no other register. The addition of a byte wraps around, and changes its register only. -/
theorem arithmetic_exact (machine : Machine) (word : Word) :
    (∀ kind : Arithmetic, machine.Finds word kind.operation →
      ∃ next, machine.step.result = .ok (.executed, next) ∧ machine.Computes word kind next) ∧
    (machine.Finds word .addByte →
      ∃ next, machine.step.result = .ok (.executed, next) ∧ machine.AddsByte word next) :=
  ⟨fun _ finds => finds.computes, fun finds => finds.addsByte⟩

/-- A program that doubles a number beyond a byte, and adds a byte to what is left of it. -/
def sumProgram : List UInt8 := [0x60, 0xC8, 0x80, 0x04, 0x70, 0xFF]

/-- The flag holds the carry of the sum, and is not lowered by the addition of the byte. -/
theorem arithmetic_exact_of_sumProgram :
    let machine := (ofRate 700 .chip8 0 .mute).serveAll [.load sumProgram none, .step]
    ∃ sum last, machine.Finds 0x8004 .add ∧ machine.step.result = .ok (.executed, sum) ∧
      sum.registers.get 0 = 0x90 ∧ sum.registers.get Registers.flag = 1 ∧
      sum.Finds 0x70FF .addByte ∧ sum.step.result = .ok (.executed, last) ∧
      last.registers.get 0 = 0x8F ∧ last.registers.get Registers.flag = 1 := by
  obtain ⟨standing, _⟩ := @stands_of_load sumProgram (by decide +kernel)
  have loading : Finds _ 0x60C8 .loadByte := standing.finds rfl (by decide) rfl
  obtain ⟨machine, loaded, stands, full⟩ := standing.loadByte loading (by decide)
  have reached :
      (ofRate 700 .chip8 0 .mute).serveAll [.load sumProgram none, .step] = machine := by
    rw [serveAll_cons, serveAll_cons, serveAll_nil, serveOne_step]
    exact afterStep_of_ok loaded
  rw [reached]
  have operands : machine.operands 0x8004 = ⟨200, 200, 200⟩ := by
    change machine.registers.get 0 = 200 at full
    have left : machine.registers.get (Word.x 0x8004) = 200 := full
    have right : machine.registers.get (Word.y 0x8004) = 200 := full
    rw [Machine.operands, left, right, stands.dialect]
    rfl
  have adding : machine.Finds 0x8004 .add := stands.finds rfl (by decide) rfl
  obtain ⟨sum, summed, computes⟩ := (arithmetic_exact machine 0x8004).1 .add adding
  have raised : sum.registers.get Registers.flag = 1 := by
    rw [computes.flag, operands]
    rfl
  have low : sum.registers.get 0 = 0x90 := by
    have balance := computes.balance (by decide)
    rw [raised, operands] at balance
    change 256 * 1 + ((sum.registers.get 0).toNat : Int) = 200 + 200 at balance
    apply UInt8.toNat_inj.mp
    change (sum.registers.get 0).toNat = 144
    omega
  have further : sum.Stands sumProgram 4 := by
    have known := adding.step rfl
    cases known.symm.trans summed
    exact { stands with pc := stands.behind (by decide) }
  have addingByte : sum.Finds 0x70FF .addByte := further.finds rfl (by decide) rfl
  obtain ⟨last, added, addsByte⟩ := (arithmetic_exact sum 0x70FF).2 addingByte
  refine ⟨sum, last, adding, summed, low, raised, addingByte, added, ?_, ?_⟩
  · have total : (last.registers.get 0).toNat = ((sum.registers.get 0).toNat + 255) % 256 :=
      addsByte.sum
    rw [low] at total
    exact UInt8.toNat_inj.mp total
  · exact (addsByte.others _ (by decide)).trans raised

end Machine

end Chip8
