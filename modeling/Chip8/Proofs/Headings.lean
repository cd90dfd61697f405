import Chip8.Proofs.Faults
import Chip8.Proofs.Finding
import Chip8.Proofs.Moments

/-!
# Headings

Where an instruction leads can be told in plain numbers: to its address, to the address with
an offset, to the address on top of the stack, or a small distance on. The program counter
and the stack keep sixteen bits of such a number. No bit is ever lost.

A step is made at an even address below the last one only. So the return addresses that
calls put on the stack are even, and none is beyond the end of memory, where the last call
has its own; and neither these nor an address of twelve bits with a byte added lead far. The
bounds of program counter and stack carry each other, from step to step and from moment to
moment.
-/

namespace Chip8

namespace Machine

variable {machine next : Machine} {word : Word} {operation : Operation} {progress : Progress}

/-- How far an operation moves that does not jump: over itself, over the next instruction as
well, or not at all while it waits. -/
def distance (machine : Machine) (word : Word) : Operation → Nat
  | .skipIfByte => if machine.registers.get word.x = word.nn then 4 else 2
  | .skipUnlessByte => if machine.registers.get word.x = word.nn then 2 else 4
  | .skipIfEqual => if machine.registers.get word.x = machine.registers.get word.y then 4 else 2
  | .skipUnlessEqual => if machine.registers.get word.x = machine.registers.get word.y then 2 else 4
  | .skipIfKey => if machine.keyDown word.x then 4 else 2
  | .skipUnlessKey => if machine.keyDown word.x then 2 else 4
  | .awaitKey => if machine.keypad.firstPressed?.isSome then 2 else 0
  | _ => 2

/-- Where an operation leads, as a number without a width. -/
def heading (machine : Machine) (word : Word) : Operation → Nat
  | .ret => (machine.registers.stack.entries.headD 0).toNat
  | .jump | .call => word.nnn.toNat
  | .jumpOffset =>
    word.nnn.toNat +
      (machine.registers.get (if machine.dialect.jumpWithOffsetUsesVx then word.x else 0)).toNat
  | operation => machine.registers.pc.toNat + machine.distance word operation

theorem distance_le (machine : Machine) (word : Word) (operation : Operation) :
    machine.distance word operation ≤ 4 := by
  cases operation
  case skipIfByte | skipUnlessByte | skipIfEqual | skipUnlessEqual | skipIfKey | skipUnlessKey |
      awaitKey =>
    simp only [distance]
    split <;> decide
  all_goals exact Nat.le_of_ble_eq_true rfl

/-- What is carried out leads where it is heading, but for the width of the program counter. -/
theorem pc_of_carryOut
    (carried : (machine.carryOut word operation).result = .ok (progress, next)) :
    next.registers.pc = UInt16.ofNat (machine.heading word operation) := by
  have onward (count : Nat) : UInt16.ofNat (machine.registers.pc.toNat + count) =
      machine.registers.pc + UInt16.ofNat count := by
    rw [UInt16.ofNat_add, UInt16.ofNat_toNat]
  cases operation
  case ret =>
    obtain ⟨⟨address, stack⟩, popped, complete⟩ := Traced.result_bind_eq_ok.mp carried
    cases complete
    have entries := (CallStack.pop_eq_ok.mp popped).1
    simp only [heading, entries, List.headD_cons, UInt16.ofNat_toNat]
    rfl
  case call =>
    obtain ⟨stack, pushed, complete⟩ := Traced.result_bind_eq_ok.mp carried
    cases complete
    exact UInt16.ofNat_toNat.symm
  case jump =>
    cases carried
    exact UInt16.ofNat_toNat.symm
  case jumpOffset =>
    cases carried
    simp only [heading, UInt16.ofNat_add, UInt16.ofNat_toNat]
    rfl
  case draw | storeDecimal =>
    obtain ⟨found, known, complete⟩ := Traced.result_bind_eq_ok.mp carried
    cases complete
    exact (onward 2).symm
  case store =>
    obtain ⟨memory, written, complete⟩ := Traced.result_bind_eq_ok.mp carried
    cases complete
    refine Eq.trans ?_ (onward 2).symm
    exact congrArg (· + 2) (passBlock_keeps ..).2.1
  case load =>
    obtain ⟨bytes, read, complete⟩ := Traced.result_bind_eq_ok.mp carried
    cases complete
    refine Eq.trans ?_ (onward 2).symm
    obtain ⟨_, loaded, _⟩ := (machine.passBlock word.x).loadFrom_keeps 0 bytes
    exact congrArg (· + 2) (loaded.trans (passBlock_keeps ..).2.1)
  case or | and | xor =>
    cases carried
    refine Eq.trans ?_ (onward 2).symm
    exact congrArg (· + 2) (Registers.combine_keeps ..).2.1
  case awaitKey =>
    simp only [carryOut] at carried
    cases pressed : machine.keypad.firstPressed? with
    | some key =>
      rw [pressed] at carried
      cases carried
      simp only [heading, distance, pressed]
      exact (onward 2).symm
    | none =>
      rw [pressed] at carried
      cases carried
      simp only [heading, distance, pressed]
      exact UInt16.ofNat_toNat.symm
  case skipIfByte | skipUnlessByte | skipIfEqual | skipUnlessEqual | skipIfKey | skipUnlessKey =>
    cases carried
    simp only [heading, distance, onward, Registers.skipIf, Registers.jump]
    split <;> simp_all
  all_goals
    cases carried
    exact (onward 2).symm

/-- A return address is even, and none is beyond the end of memory. -/
def IsReturn (address : UInt16) : Prop :=
  address.toNat % 2 = 0 ∧ 2 ≤ address.toNat ∧ address.toNat ≤ 0x1000

/-- The bounds of program counter and stack, of a machine whose parts have their sizes. -/
structure OnCourse (machine : Machine) : Prop where
  formed : machine.WellFormed
  pc : machine.registers.pc.toNat ≤ 0x10FE
  returns : ∀ address ∈ machine.registers.stack.entries, IsReturn address

/-- From where a step can be made no operation leads beyond the bound. -/
theorem OnCourse.heading_le (course : machine.OnCourse) (placed : ¬machine.Misplaced) (word : Word)
    (operation : Operation) : machine.heading word operation ≤ 0x10FE := by
  have low : machine.registers.pc.toNat < 0xFFF := Nat.lt_of_not_le (not_or.mp placed).2
  have address : word.nnn.toNat < 0x1000 := by
    rw [Word.nnn, UInt16.toNat_ofNat']
    omega
  have onward := machine.distance_le word operation
  cases operation
  case ret =>
    have returns := course.returns
    change (machine.registers.stack.entries.headD 0).toNat ≤ 0x10FE
    cases entries : machine.registers.stack.entries with
    | nil => exact Nat.zero_le _
    | cons top below =>
      rw [entries] at returns
      have bound := (returns top List.mem_cons_self).2.2
      exact Nat.le_trans bound (by decide)
  case jump | call =>
    simp only [heading]
    omega
  case jumpOffset =>
    simp only [heading]
    have offset := UInt8.toNat_lt
      (machine.registers.get (if machine.dialect.jumpWithOffsetUsesVx then word.x else 0))
    omega
  all_goals
    simp only [heading]
    omega

/-- The program counter loses no bit of where a step leads. -/
theorem OnCourse.leads (course : machine.OnCourse) (finds : machine.Finds word operation)
    (stepped : machine.step.result = .ok (progress, next)) :
    next.registers.pc.toNat = machine.heading word operation := by
  obtain ⟨found, after, carried, registers⟩ := finds.carried stepped
  have bound := course.heading_le (course.formed.placed_of_fetch finds.1).1 word operation
  rw [registers, pc_of_carryOut carried]
  exact UInt16.toNat_ofNat_of_lt' (Nat.lt_of_le_of_lt bound (by decide))

/-- The stack loses no bit of the address behind a call, which is a return address. -/
theorem behind_of_placed (placed : ¬machine.Misplaced) :
    (machine.registers.pc + 2).toNat = machine.registers.pc.toNat + 2 ∧
      IsReturn (machine.registers.pc + 2) := by
  obtain ⟨even, low⟩ := not_or.mp placed
  have exact : (machine.registers.pc + 2).toNat = machine.registers.pc.toNat + 2 := by
    rw [UInt16.toNat_add]
    change (machine.registers.pc.toNat + 2) % 65536 = _
    omega
  refine ⟨exact, ?_⟩
  rw [IsReturn, exact]
  omega

/-- A step keeps a machine on course, be it complete or not. -/
theorem OnCourse.afterStep (course : machine.OnCourse) : machine.afterStep.OnCourse := by
  cases result : machine.step.result with
  | error fault =>
    have still : machine.afterStep = machine := by simp only [Machine.afterStep, result]
    rw [still]
    exact course
  | ok ended =>
    obtain ⟨progress, next⟩ := ended
    obtain ⟨word, operation, fetched, known, _⟩ := step_eq_ok.mp result
    have finds : machine.Finds word operation := ⟨fetched, known⟩
    obtain ⟨placed, _⟩ := course.formed.placed_of_fetch fetched
    have leads := course.leads finds result
    have formed := course.formed.afterStep
    rw [afterStep_of_ok result] at formed ⊢
    refine ⟨formed, leads ▸ course.heading_le placed word operation, ?_⟩
    have returns := course.returns
    by_cases isCall : operation = .call
    · subst isCall
      rw [finds.pushed result]
      intro address member
      rcases List.mem_cons.mp member with rfl | below
      · exact (behind_of_placed placed).2
      · exact returns address below
    by_cases isReturn : operation = .ret
    · subst isReturn
      rw [finds.popped result] at returns
      exact fun address member => returns address (List.mem_cons_of_mem _ member)
    · rw [finds.stack_stays isCall isReturn result]
      exact returns

/-- What leaves the registers alone keeps a machine on course. -/
theorem OnCourse.of_same (course : machine.OnCourse) (formed : next.WellFormed)
    (registers : next.registers = machine.registers) : next.OnCourse :=
  ⟨formed, registers ▸ course.pc, registers ▸ course.returns⟩

/-- With cleared registers and an empty stack a machine is on course. -/
theorem onCourse_of_cleared (formed : next.WellFormed) {stack : CallStack}
    (registers : next.registers = .cleared stack) (empty : stack.entries = []) :
    next.OnCourse := by
  refine ⟨formed, ?_, ?_⟩
  · rw [registers]
    change Memory.programStart ≤ 0x10FE
    decide
  · intro address member
    rw [registers] at member
    change address ∈ stack.entries at member
    rw [empty] at member
    cases member

theorem OnCourse.tick (course : machine.OnCourse) : machine.tick.OnCourse := by
  refine course.of_same course.formed.tick ?_
  rw [Machine.tick, adjustBeeper_eq]

/-- Moving over a word without meaning is a step without an operation. -/
theorem OnCourse.skip (course : machine.OnCourse) {address : Int}
    (failed : machine.step.result = .error (.unknownOpcode word address)) :
    machine.skip.registers.pc.toNat = machine.registers.pc.toNat + 2 ∧ machine.skip.OnCourse := by
  have placed : ¬machine.Misplaced := by
    cases course.formed.meets_of_step failed with
    | meaningless placed _ => exact placed
  obtain ⟨onward, _, _, bound⟩ := behind_of_placed placed
  refine ⟨onward, { course.formed with }, ?_, course.returns⟩
  exact Nat.le_trans bound (by decide)

/-- Moves keep a machine on course. -/
theorem OnCourse.follow (course : machine.OnCourse) (moves : List Move) :
    ((Run.begin machine).follow moves).machine.OnCourse :=
  Run.follow_keeps OnCourse (fun _ => afterStep) (fun _ => tick) course moves

/-- So does a request other than to move over an instruction. -/
theorem OnCourse.serveOne (course : machine.OnCourse) {request : Request}
    (direct : request ≠ .skip) : (machine.serveOne request).OnCourse := by
  have formed := course.formed.serveOne request
  rcases machine.serveOne_registers direct with same | cleared | moved
  · exact course.of_same formed same
  · exact onCourse_of_cleared formed cleared rfl
  · rw [moved]
    apply OnCourse.follow
    apply course.of_same (course.formed.outset request)
    rw [outset_eq]

/-- At every moment a machine is on course. -/
theorem Moment.onCourse (moment : machine.Moment) : machine.OnCourse := by
  induction moment with
  | built built =>
    have registers := congrArg Machine.registers built.parts
    exact onCourse_of_cleared built.wellFormed registers rfl
  | served _ request direct inductionHypothesis => exact inductionHypothesis.serveOne direct
  | underWay _ request _ inductionHypothesis =>
    apply OnCourse.follow
    apply inductionHypothesis.of_same (inductionHypothesis.formed.outset request)
    rw [outset_eq]
  | session _ limits _ rounds _ inductionHypothesis =>
    have ofSkip (machine : Machine) (word : Word) (address : Int) (course : machine.OnCourse)
        (failed : machine.step.result = .error (.unknownOpcode word address)) :
        machine.skip.OnCourse := (course.skip failed).2
    rw [Session.attempts_eq_follow]
    have ofStep (machine : Machine) : machine.OnCourse → machine.afterStep.OnCourse :=
      OnCourse.afterStep
    have ofTick (machine : Machine) : machine.OnCourse → machine.tick.OnCourse := OnCourse.tick
    apply Session.follow_keeps OnCourse ofStep ofTick ofSkip
    apply Session.play_keeps OnCourse ofStep ofTick ofSkip
    exact inductionHypothesis

/-- No address is cut off: program counter and stack hold the numbers they are meant to hold,
within their bounds. -/
structure Straight (machine : Machine) : Prop where
  pc : machine.registers.pc.toNat ≤ 0x10FE
  returns : ∀ address ∈ machine.registers.stack.entries, IsReturn address
  /-- A step leads where its operation is heading. -/
  leads : ∀ word operation progress next, machine.Finds word operation →
    machine.step.result = .ok (progress, next) →
      next.registers.pc.toNat = machine.heading word operation
  /-- A call keeps the address behind it. -/
  pushes : ∀ word progress next, machine.Finds word .call →
    machine.step.result = .ok (progress, next) →
      ∃ top, top.toNat = machine.registers.pc.toNat + 2 ∧
        next.registers.stack.entries = top :: machine.registers.stack.entries
  /-- A return leads to an even address, and what stands there can be fetched, unless it is the
  end of memory. -/
  returned : ∀ word progress next, machine.Finds word .ret →
    machine.step.result = .ok (progress, next) →
      next.registers.pc.toNat % 2 = 0 ∧
        ((∃ fault, next.fetch.result = .error fault) ↔ next.registers.pc = 0x1000)
  /-- A word without meaning is moved over. -/
  skips : ∀ word address, machine.step.result = .error (.unknownOpcode word address) →
    machine.skip.registers.pc.toNat = machine.registers.pc.toNat + 2

/-- A machine on course can fetch what stands at a return address, but for the last. -/
theorem OnCourse.fetch_fails_iff (course : machine.OnCourse)
    (isReturn : IsReturn machine.registers.pc) :
    (∃ fault, machine.fetch.result = .error fault) ↔ machine.registers.pc = 0x1000 := by
  obtain ⟨even, _, bound⟩ := isReturn
  obtain ⟨failing, reading⟩ := course.formed.fetch_eq
  rw [← UInt16.toNat_inj]
  change _ ↔ machine.registers.pc.toNat = 0x1000
  constructor
  · rintro ⟨fault, failed⟩
    by_cases apart : machine.Misplaced
    · rcases apart with odd | beyond
      · omega
      · omega
    · cases failed.symm.trans (reading apart)
  · intro last
    have apart : machine.Misplaced := .inr (by omega)
    exact ⟨_, failing apart⟩

/-- At every moment, in the course of any use but a direct request to move over an
instruction, no address is cut off. -/
theorem Moment.straight (moment : machine.Moment) : machine.Straight := by
  have course := moment.onCourse
  constructor
  case pc => exact course.pc
  case returns => exact course.returns
  case leads => exact fun _ _ _ _ finds stepped => course.leads finds stepped
  case pushes =>
    intro word progress next finds stepped
    obtain ⟨placed, _⟩ := course.formed.placed_of_fetch finds.1
    refine ⟨_, (behind_of_placed placed).1, ?_⟩
    rw [finds.pushed stepped]
  case returned =>
    intro word progress next finds stepped
    have isReturn : IsReturn next.registers.pc := by
      apply course.returns
      rw [finds.popped stepped]
      exact List.mem_cons_self
    have further : next.OnCourse := afterStep_of_ok stepped ▸ course.afterStep
    exact ⟨isReturn.1, further.fetch_fails_iff isReturn⟩
  case skips => exact fun _ _ failed => (course.skip failed).1

/-- A program that jumps to the last address of twelve bits, with the largest byte as its
offset. -/
def farProgram : List UInt8 := [0x60, 0xFF, 0xBF, 0xFF]

/-- Its two steps lead as far as one can. -/
theorem Stands.pc_of_farProgram (stands : machine.Stands farProgram 0) :
    machine.afterStep.afterStep.registers.pc.toNat = 0x10FE := by
  have first : machine.Finds 0x60FF .loadByte := stands.finds rfl (by decide) rfl
  obtain ⟨armed, loaded, further, offset⟩ := stands.loadByte first (by decide)
  have second : armed.Finds 0xBFFF .jumpOffset := further.finds rfl (by decide) rfl
  have plain : armed.dialect.jumpWithOffsetUsesVx = false := by
    rw [further.dialect]
    rfl
  change armed.registers.get 0 = 0xFF at offset
  rw [afterStep_of_ok loaded, afterStep_of_ok (second.step rfl)]
  simp only [plain, Bool.false_eq_true, if_false, offset]
  rfl

/-- The bound of the program counter is reached. -/
theorem straight_of_farProgram :
    let machine := (ofRate 700 .chip8 0 .mute).serveAll [.load farProgram none, .step, .step]
    machine.Straight ∧ machine.registers.pc.toNat = 0x10FE := by
  intro machine
  have built : (ofRate 700 .chip8 0 .mute).IsBuilt := isBuilt_mute (by decide) .chip8 0
  have moment : machine.Moment := (Moment.built built).serveAll (by decide)
  have twoSteps (start : Machine) (request : Request) :
      start.serveAll [request, .step, .step] = (start.serveOne request).afterStep.afterStep := by
    rw [← serveOne_step, ← serveOne_step]
    rfl
  obtain ⟨stands, _⟩ := @stands_of_load farProgram (by decide +kernel)
  refine ⟨moment.straight, ?_⟩
  rw [← stands.pc_of_farProgram, ← twoSteps]

end Machine

end Chip8
