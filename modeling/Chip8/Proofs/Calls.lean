import Chip8.Proofs.Headings

/-!
# Calls and returns

A call puts the address behind it on the stack, a return takes the top address off and goes
there, and nothing else that happens while a program runs touches the stack: no other
instruction, no tick, and no key.

Below a depth that the stack never falls under, its entries are therefore out of reach. When
it is first back at the depth it had before a call, what lies on it is what lay there before,
and the address that was taken off last is the one that the call left, whatever was called in
between, and whatever was written over in memory. A call is so matched with its return by
depth alone, as a bracket is.
-/

namespace Chip8

namespace Machine

variable {machine next first before last : Machine} {passed : List Machine} {word : Word}
  {progress : Progress} {floor : Nat}

/-- How many return addresses there are. -/
def depth (machine : Machine) : Nat := machine.registers.stack.depth

/-- What may happen to a running program: a step that does not fail, a tick, or a key that the
host presses or releases. -/
inductive Advances (machine : Machine) : Machine → Prop where
  | step {progress : Progress} {next : Machine}
      (stepped : machine.step.result = .ok (progress, next)) : Advances machine next
  | tick : Advances machine machine.tick
  | key (number : Int) (pressed : Bool) :
      Advances machine (machine.serveOne (.setKey number pressed))

/-- Any number of these one after the other, with the machines they happen to. -/
inductive AdvancesAll : Machine → List Machine → Machine → Prop where
  | nil (machine : Machine) : AdvancesAll machine [] machine
  | cons {machine next last : Machine} {rest : List Machine} (first : machine.Advances next)
      (further : AdvancesAll next rest last) : AdvancesAll machine (machine :: rest) last

/-- What becomes of the stack. -/
inductive Shift (machine next : Machine) : Prop where
  | stays (stack : next.registers.stack = machine.registers.stack)
  | pushed
      (stack : next.registers.stack =
        ⟨machine.registers.stack.capacity,
          (machine.registers.pc + 2) :: machine.registers.stack.entries⟩)
  | popped {word : Word} (finds : machine.Finds word .ret)
      (stepped : machine.step.result = .ok (.executed, next))
      (stack : machine.registers.stack =
        ⟨next.registers.stack.capacity, next.registers.pc :: next.registers.stack.entries⟩)

/-- A return that succeeds is complete. -/
theorem Finds.return_executed (finds : machine.Finds word .ret)
    (stepped : machine.step.result = .ok (progress, next)) : progress = .executed := by
  obtain ⟨found, after, carried, _⟩ := finds.carried stepped
  have complete : found = .executed := by
    rcases carryOut_progress carried with executed | ⟨_, impossible, _⟩
    · exact executed
    · cases impossible
  have ended := step_eq_ok.mpr ⟨word, .ret, finds.1, finds.2, found, after, carried, rfl⟩
  rw [complete] at ended
  cases stepped.symm.trans ended
  rfl

/-- Whatever happens, the stack stays, or a call or a return shifts it. -/
theorem Advances.shift (advances : machine.Advances next) : machine.Shift next := by
  cases advances with
  | tick =>
    apply Shift.stays
    rw [Machine.tick, adjustBeeper_eq]
  | key number pressed =>
    apply Shift.stays
    rw [serveOne_setKey]
    split <;> rfl
  | step stepped =>
    obtain ⟨word, operation, fetched, known, _⟩ := step_eq_ok.mp stepped
    have finds : machine.Finds word operation := ⟨fetched, known⟩
    by_cases isCall : operation = .call
    · subst isCall
      exact .pushed (finds.pushed stepped)
    by_cases isReturn : operation = .ret
    · subst isReturn
      obtain rfl := finds.return_executed stepped
      exact .popped finds stepped (finds.popped stepped)
    · exact .stays (finds.stack_stays isCall isReturn stepped)

/-- One address at most is taken off, and the stack keeps its capacity. -/
theorem Shift.depth_le (shift : machine.Shift next) :
    machine.depth ≤ next.depth + 1 ∧
      next.registers.stack.capacity = machine.registers.stack.capacity := by
  cases shift with
  | stays stack =>
    rw [depth, depth, stack]
    exact ⟨Nat.le_succ _, rfl⟩
  | pushed stack =>
    rw [depth, depth, stack]
    exact ⟨Nat.le_trans (Nat.le_succ _) (Nat.le_succ _), rfl⟩
  | popped _ _ stack =>
    rw [depth, depth, stack]
    exact ⟨Nat.le_refl _, rfl⟩

/-- Where the stack is not lower than a floor, before and after, what is below the floor is
kept. -/
theorem Shift.bottom (shift : machine.Shift next) (deep : floor ≤ machine.depth)
    (stillDeep : floor ≤ next.depth) :
    next.registers.stack.oldestFirst.take floor =
      machine.registers.stack.oldestFirst.take floor := by
  have length (other : Machine) : other.registers.stack.oldestFirst.length = other.depth :=
    List.length_reverse
  cases shift with
  | stays stack => rw [stack]
  | pushed stack =>
    have grown : next.registers.stack.oldestFirst =
        machine.registers.stack.oldestFirst ++ [machine.registers.pc + 2] := by
      rw [stack]
      exact List.reverse_cons
    rw [grown, List.take_append_of_le_length (by rw [length]; exact deep)]
  | popped _ _ stack =>
    have grown : machine.registers.stack.oldestFirst =
        next.registers.stack.oldestFirst ++ [next.registers.pc] := by
      rw [stack]
      exact List.reverse_cons
    rw [grown, List.take_append_of_le_length (by rw [length]; exact stillDeep)]

/-- What advances passes its start, or ends there. -/
theorem AdvancesAll.start_mem (advances : machine.AdvancesAll passed last) :
    machine ∈ passed ++ [last] := by
  cases advances with
  | nil => exact List.mem_cons_self
  | cons => exact List.mem_cons_self

/-- While the stack is never lower than a floor, what is below the floor is kept. -/
theorem AdvancesAll.bottom (advances : machine.AdvancesAll passed last)
    (deep : ∀ between ∈ passed ++ [last], floor ≤ between.depth) :
    last.registers.stack.oldestFirst.take floor =
      machine.registers.stack.oldestFirst.take floor := by
  induction advances with
  | nil => rfl
  | cons first further inductionHypothesis =>
    have deepBehind := fun between member => deep between (List.mem_cons_of_mem _ member)
    rw [inductionHypothesis deepBehind]
    exact first.shift.bottom (deep _ List.mem_cons_self) (deepBehind _ further.start_mem)

/-- The stack keeps its capacity. -/
theorem AdvancesAll.capacity (advances : machine.AdvancesAll passed last) :
    last.registers.stack.capacity = machine.registers.stack.capacity := by
  induction advances with
  | nil => rfl
  | cons first _ inductionHypothesis => exact inductionHypothesis.trans first.shift.depth_le.2

/-- A stack that is higher than a depth stays so while it does not come to that depth: it
sinks by one address at a time. -/
theorem AdvancesAll.above (advances : machine.AdvancesAll passed last)
    (start : floor < machine.depth) (apart : ∀ between ∈ passed ++ [last], between.depth ≠ floor) :
    ∀ between ∈ passed ++ [last], floor < between.depth := by
  induction advances with
  | nil =>
    intro between member
    exact List.eq_of_mem_singleton member ▸ start
  | cons first further inductionHypothesis =>
    have apartBehind := fun between member => apart between (List.mem_cons_of_mem _ member)
    have sinks := first.shift.depth_le.1
    have apartNext := apartBehind _ further.start_mem
    intro between member
    rcases List.mem_cons.mp member with rfl | behind
    · exact start
    · exact inductionHypothesis (by omega) apartBehind between behind

/-- What takes a stack for the first time below the height it started with is a return, and it
takes off what lay on top at the start. -/
theorem AdvancesAll.popped (advances : machine.AdvancesAll passed before)
    (start : machine.depth = floor + 1)
    (apart : ∀ between ∈ passed ++ [before], between.depth ≠ floor)
    (lastAdvance : before.Advances last) (back : last.depth = floor) :
    (∃ word, before.Finds word .ret ∧ before.step.result = .ok (.executed, last)) ∧
      machine.registers.stack =
        ⟨last.registers.stack.capacity, last.registers.pc :: last.registers.stack.entries⟩ := by
  have above := advances.above (by omega) apart
  have kept := advances.bottom above
  have higher := above before (List.mem_append_right _ List.mem_cons_self)
  cases lastAdvance.shift with
  | stays stack =>
    rw [depth, stack] at back
    exact absurd back (Nat.ne_of_gt higher)
  | pushed stack =>
    rw [depth, stack] at back
    have grown : before.depth + 1 = floor := back
    omega
  | popped finds returned stack =>
    have height : before.depth = floor + 1 := by
      rw [depth, stack, ← back]
      rfl
    have whole (other : Machine) (measured : other.depth = floor + 1) :
        other.registers.stack.oldestFirst.take (floor + 1) = other.registers.stack.oldestFirst := by
      rw [← measured]
      exact List.take_of_length_le (Nat.le_of_eq List.length_reverse)
    have entries : before.registers.stack.entries = machine.registers.stack.entries := by
      rw [Nat.succ_eq_add_one, whole before height, whole machine start] at kept
      exact List.reverse_inj.mp kept
    refine ⟨⟨_, finds, returned⟩, ?_⟩
    rw [← stack]
    exact (CallStack.mk.injEq ..).mpr ⟨advances.capacity.symm, entries.symm⟩

/-- The return that matches a call: what happens last, to the machine before, leads behind the
call, with the stack that the call found. -/
structure Matched (machine before last : Machine) : Prop where
  returned : ∃ word, before.Finds word .ret ∧ before.step.result = .ok (.executed, last)
  behind : last.registers.pc.toNat = machine.registers.pc.toNat + 2
  stack : last.registers.stack = machine.registers.stack

/-- From any moment on, while the stack is never lower than a floor, what is below the floor
is kept. And if a call is made first, what brings the stack back to its depth for the first
time is the return that matches the call. -/
theorem Moment.calls_matched (moment : machine.Moment) :
    (∀ passed last floor, machine.AdvancesAll passed last →
      (∀ between ∈ passed ++ [last], floor ≤ between.depth) →
        last.registers.stack.oldestFirst.take floor =
          machine.registers.stack.oldestFirst.take floor) ∧
    ∀ word progress first passed before last, machine.Finds word .call →
      machine.step.result = .ok (progress, first) → first.AdvancesAll passed before →
      (∀ between ∈ passed ++ [before], between.depth ≠ machine.depth) → before.Advances last →
      last.depth = machine.depth → machine.Matched before last := by
  refine ⟨fun _ _ _ advances deep => advances.bottom deep, ?_⟩
  intro word progress first passed before last finds stepped advances apart lastAdvance back
  have called := finds.pushed stepped
  have deeper : first.depth = machine.depth + 1 := by
    rw [depth, called]
    rfl
  obtain ⟨returned, stack⟩ := advances.popped deeper apart lastAdvance back
  rw [called] at stack
  obtain ⟨capacity, entries⟩ := CallStack.mk.inj stack
  obtain ⟨top, rest⟩ := List.cons.inj entries
  obtain ⟨placed, _⟩ := moment.onCourse.formed.placed_of_fetch finds.1
  refine ⟨returned, ?_, ?_⟩
  · rw [← top]
    exact (behind_of_placed placed).1
  · exact (CallStack.mk.injEq ..).mpr ⟨capacity.symm, rest.symm⟩

/-- A program that makes a call, within which it makes another. -/
def nestedProgram : List UInt8 := [0x22, 0x06, 0x12, 0x02, 0x00, 0xEE, 0x22, 0x04, 0x00, 0xEE]

/-- With a tick in between, both calls are made, and both return. The second return matches the
first call. -/
theorem calls_matched_of_nestedProgram :
    let machine := (ofRate 700 .chip8 0 .mute).serveOne (.load nestedProgram none)
    ∃ first passed before last, machine.step.result = .ok (.executed, first) ∧
      first.AdvancesAll passed before ∧ before.Advances last ∧
      (passed ++ [before, last]).map depth = [1, 2, 2, 1, 0] ∧
      last.registers.pc.toNat = 0x202 ∧ machine.Matched before last := by
  intro machine
  have built : (ofRate 700 .chip8 0 .mute).IsBuilt := isBuilt_mute (by decide) .chip8 0
  have moment : machine.Moment := (Moment.built built).served _ nofun
  obtain ⟨stands, cleared⟩ : machine.Stands nestedProgram 0 ∧ machine.registers = .initial :=
    stands_of_load (by decide +kernel)
  clear_value machine
  have empty : machine.registers.stack = .empty := congrArg Registers.stack cleared
  -- Both calls are made, the inner one from within the outer one.
  have outer : machine.Finds 0x2206 .call := stands.finds rfl (by decide) rfl
  obtain ⟨first, outerStep, standsFirst⟩ := stands.call outer (by rw [empty]; decide) 6 rfl
  have firstStack := outer.pushed outerStep
  have firstEntries : first.registers.stack.entries = [machine.registers.pc + 2] := by
    rw [firstStack, empty]
    rfl
  have inner : first.Finds 0x2204 .call := standsFirst.finds rfl (by decide) rfl
  have room : first.registers.stack.depth < first.registers.stack.capacity := by
    rw [firstStack, empty]
    exact Nat.le_of_ble_eq_true rfl
  obtain ⟨second, innerStep, standsSecond⟩ := standsFirst.call inner room 4 rfl
  have secondEntries : second.registers.stack.entries =
      [first.registers.pc + 2, machine.registers.pc + 2] := by
    rw [inner.pushed innerStep, firstEntries]
  -- After a tick both return.
  have tickedEntries : second.tick.registers.stack.entries =
      [first.registers.pc + 2, machine.registers.pc + 2] := by
    rw [Machine.tick, adjustBeeper_eq]
    exact secondEntries
  have innerReturn : second.tick.Finds 0x00EE .ret := standsSecond.tick.finds rfl (by decide) rfl
  obtain ⟨before, innerBack, standsBefore⟩ :=
    standsSecond.tick.ret innerReturn tickedEntries 8 (standsFirst.behind (by decide))
  have beforeEntries : [machine.registers.pc + 2] = before.registers.stack.entries := by
    rw [innerReturn.popped innerBack] at tickedEntries
    exact (List.cons.inj tickedEntries).2.symm
  have outerReturn : before.Finds 0x00EE .ret := standsBefore.finds rfl (by decide) rfl
  obtain ⟨last, outerBack, standsLast⟩ :=
    standsBefore.ret outerReturn beforeEntries.symm 2 (stands.behind (by decide))
  have lastEntries : [] = last.registers.stack.entries := by
    rw [outerReturn.popped outerBack] at beforeEntries
    exact (List.cons.inj beforeEntries).2
  have advances : first.AdvancesAll [first, second, second.tick] before :=
    .cons (.step innerStep) (.cons .tick (.cons (.step innerBack) (.nil before)))
  have start : machine.depth = 0 := by
    rw [depth, empty]
    rfl
  have depths : first.depth = 1 ∧ second.depth = 2 ∧ second.tick.depth = 2 ∧ before.depth = 1 ∧
      last.depth = 0 := by
    simp [depth, CallStack.depth, firstEntries, secondEntries, tickedEntries, ← beforeEntries,
      ← lastEntries]
  have apart : ∀ between ∈ [first, second, second.tick] ++ [before],
      between.depth ≠ machine.depth := by
    simp [start, depths]
  have matched := moment.calls_matched.2 _ _ _ _ _ _ outer outerStep advances apart
    (.step outerBack) (depths.2.2.2.2.trans start.symm)
  exact ⟨first, _, before, last, outerStep, advances, .step outerBack, by simp [depths],
    standsLast.pc, matched⟩

end Machine

end Chip8
