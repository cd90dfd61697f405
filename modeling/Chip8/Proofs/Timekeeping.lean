import Chip8.Proofs.Slices
import Mathlib.Algebra.Ring.Int.Defs

/-!
# Timekeeping

Time comes to a clock in durations, long and short ones, and some in which no microsecond
passes. With whole rates every duration brings the difference of two floors of the running
total. The differences telescope: since the last reset the clock has handed out exactly the
floor of rate times elapsed time, however the time was cut.

A floor of the total is not a floor for each duration. The sixtieth of a second is 16667
whole microseconds, a third of one more than it is, and after 50000 sixtieths the surplus
makes a tick of its own. Of successive sixtieths each one brings one tick, but every
50000th brings two.
-/

namespace Chip8

namespace FrameClock

variable {clock last : FrameClock} {rate timerRate : Int} {duration : Number}
  {durations : List Number} {passed : List Int} {dues : List (Int × Int)}

/-- Let durations pass one after the other, with the steps and ticks that each one brings. -/
def advanceAll (clock : FrameClock) :
    List Number → Except Number.Misuse (List (Int × Int) × FrameClock)
  | [] => .ok ([], clock)
  | duration :: rest => do
    let (due, next) ← clock.advance duration
    let (dues, last) ← next.advanceAll rest
    pure (due :: dues, last)

/-- A clock of whole rates at a moment. -/
def whole (rate timerRate : Int) (elapsed : Nat) : FrameClock :=
  ⟨.whole rate, .whole timerRate, elapsed⟩

/-- The events of a whole rate between two moments. -/
def gained (rate : Int) (before after : Nat) : Int :=
  rate * after / Number.microseconds - rate * before / Number.microseconds

/-- From a moment on, events add up. -/
theorem gained_add (rate : Int) (first second third : Nat) :
    gained rate first second + gained rate second third = gained rate first third := by
  simp only [gained]
  omega

/-- A duration in which no microsecond passes brings nothing and changes nothing. -/
theorem advance_still {microseconds : Int} (rounds : duration.toMicroseconds = .ok microseconds)
    (still : microseconds ≤ 0) (clock : FrameClock) :
    clock.advance duration = .ok ((0, 0), clock) := by
  rw [advance, rounds]
  exact if_pos still

/-- A duration brings what is gained until it has passed. -/
theorem advance_whole_eq {microseconds : Int}
    (rounds : duration.toMicroseconds = .ok microseconds) (elapsed : Nat) :
    (whole rate timerRate elapsed).advance duration =
      .ok ((gained rate elapsed (elapsed + microseconds.toNat),
        gained timerRate elapsed (elapsed + microseconds.toNat)),
        whole rate timerRate (elapsed + microseconds.toNat)) := by
  by_cases still : microseconds ≤ 0
  · have nothing : microseconds.toNat = 0 := Int.toNat_eq_zero.mpr still
    rw [advance_still rounds still, nothing]
    simp [gained]
  · rw [advance_of_passed _ rounds (Int.not_le.mp still)]
    rfl

/-- What some calls of a clock of whole rates bring between two moments, in which each of
them has let so many microseconds pass. -/
structure Brings (rate timerRate : Int) (before after : Nat) (passed : List Int)
    (dues : List (Int × Int)) : Prop where
  calls : dues.length = passed.length
  time : (after : Int) = before + (passed.filter (0 < ·)).sum
  nonneg : ∀ due ∈ dues, 0 ≤ due.1 ∧ 0 ≤ due.2
  /-- A call in which no microsecond passes brings nothing. -/
  still : ∀ call ∈ passed.zip dues, call.1 ≤ 0 → call.2 = (0, 0)
  steps : (dues.map Prod.fst).sum = gained rate before after
  ticks : (dues.map Prod.snd).sum = gained timerRate before after

/-- One call more, before all others. -/
theorem Brings.cons {before after : Nat} {microseconds : Int} (someRate : 0 < rate)
    (someTimerRate : 0 < timerRate) (rounds : duration.toMicroseconds = .ok microseconds)
    (others : Brings rate timerRate (before + microseconds.toNat) after passed dues) :
    Brings rate timerRate before after (microseconds :: passed)
      ((gained rate before (before + microseconds.toNat),
        gained timerRate before (before + microseconds.toNat)) :: dues) where
  calls := congrArg Nat.succ others.calls
  time := by
    have time := others.time
    by_cases still : 0 < microseconds
    · simp only [List.filter_cons, still, decide_true, if_true, List.sum_cons]
      omega
    · simp only [List.filter_cons, still, decide_false, Bool.false_eq_true, if_false]
      omega
  nonneg := by
    intro due member
    rcases List.mem_cons.mp member with rfl | later
    · exact advance_nonneg someRate someTimerRate (advance_whole_eq rounds before)
    · exact others.nonneg due later
  still := by
    intro call member isStill
    rcases List.mem_cons.mp member with rfl | later
    · have nothing : microseconds.toNat = 0 := Int.toNat_eq_zero.mpr isStill
      simp [nothing, gained]
    · exact others.still call later isStill
  steps := by rw [List.map_cons, List.sum_cons, others.steps, gained_add]
  ticks := by rw [List.map_cons, List.sum_cons, others.ticks, gained_add]

/-- Durations that are microseconds can pass one after the other, and what they bring
telescopes. -/
theorem advanceAll_whole (someRate : 0 < rate) (someTimerRate : 0 < timerRate)
    (rounds : durations.mapM Number.toMicroseconds = .ok passed) (before : Nat) :
    ∃ dues after, (whole rate timerRate before).advanceAll durations =
      .ok (dues, whole rate timerRate after) ∧
        Brings rate timerRate before after passed dues := by
  induction durations generalizing passed before with
  | nil =>
    cases rounds
    refine ⟨[], before, rfl, rfl, by simp, by simp, by simp, ?_, ?_⟩
    · simp [gained]
    · simp [gained]
  | cons duration rest inductionHypothesis =>
    rw [List.mapM_cons] at rounds
    cases first : duration.toMicroseconds with
    | error misuse =>
      rw [first] at rounds
      cases rounds
    | ok microseconds =>
      cases others : rest.mapM Number.toMicroseconds with
      | error misuse =>
        rw [first, others] at rounds
        cases rounds
      | ok remaining =>
        rw [first, others] at rounds
        obtain rfl : microseconds :: remaining = passed := Except.ok.inj rounds
        obtain ⟨dues, after, advanced, brings⟩ :=
          inductionHypothesis others (before + microseconds.toNat)
        refine ⟨_, after, ?_, brings.cons someRate someTimerRate first⟩
        rw [advanceAll, advance_whole_eq first]
        simp only [bind, Except.bind, advanced]
        rfl

/-- Whatever durations pass on a clock of positive whole rates after a reset, it fails at
none of them, a duration without a microsecond is no call at all, and the steps and ticks
handed out until then are the floors of what the elapsed time comes to. The time is all
they depend on: another way to cut as much of it brings as many steps and ticks. -/
theorem advanceAll_of_reset (rated : clock.rate = .whole rate) (someRate : 0 < rate)
    (timed : clock.timerRate = .whole timerRate) (someTimerRate : 0 < timerRate)
    (rounds : durations.mapM Number.toMicroseconds = .ok passed) :
    (∀ duration microseconds, duration.toMicroseconds = .ok microseconds → microseconds ≤ 0 →
      ∀ before : FrameClock, before.advance duration = .ok ((0, 0), before)) ∧
    ∃ dues last, clock.reset.advanceAll durations = .ok (dues, last) ∧
      last = { clock with elapsed := last.elapsed } ∧
      (last.elapsed : Int) = (passed.filter (0 < ·)).sum ∧
      dues.length = passed.length ∧
      (∀ due ∈ dues, 0 ≤ due.1 ∧ 0 ≤ due.2) ∧
      (∀ call ∈ passed.zip dues, call.1 ≤ 0 → call.2 = (0, 0)) ∧
      (dues.map Prod.fst).sum = rate * last.elapsed / 1000000 ∧
      (dues.map Prod.snd).sum = timerRate * last.elapsed / 1000000 ∧
      ∀ others passedToo, others.mapM Number.toMicroseconds = .ok passedToo →
        (passedToo.filter (0 < ·)).sum = (passed.filter (0 < ·)).sum →
          ∃ duesToo, clock.reset.advanceAll others = .ok (duesToo, last) ∧
            (duesToo.map Prod.fst).sum = (dues.map Prod.fst).sum ∧
            (duesToo.map Prod.snd).sum = (dues.map Prod.snd).sum := by
  have start : clock.reset = whole rate timerRate 0 := by
    simp only [reset, rated, timed]
    rfl
  have fromZero (some : Int) (after : Nat) : gained some 0 after = some * after / 1000000 := by
    simp [gained, Number.microseconds]
  obtain ⟨dues, after, advanced, brings⟩ := advanceAll_whole someRate someTimerRate rounds 0
  rw [start]
  refine ⟨fun _ _ => advance_still, dues, whole rate timerRate after, advanced, ?_, ?_, ?_,
    brings.nonneg, brings.still, brings.steps.trans (fromZero rate after),
    brings.ticks.trans (fromZero timerRate after), ?_⟩
  · simp only [rated, timed]
    rfl
  · exact brings.time.trans (Int.zero_add _)
  · exact brings.calls
  · intro others passedToo roundsToo sameTime
    obtain ⟨duesToo, afterToo, advancedToo, bringsToo⟩ :=
      advanceAll_whole someRate someTimerRate roundsToo 0
    obtain rfl : afterToo = after := by
      have time := brings.time
      have timeToo := bringsToo.time
      omega
    exact ⟨duesToo, advancedToo, bringsToo.steps.trans brings.steps.symm,
      bringsToo.ticks.trans brings.ticks.symm⟩

/-- Durations above and below zero, and one in which no microsecond passes, on a fast and on
a slow clock. -/
theorem advanceAll_of_reset_mixed :
    let clock : FrameClock := ⟨.whole 700, .whole 60, 5⟩
    let durations := [.whole 1, .whole (-3), .whole 0, .whole 2]
    durations.mapM Number.toMicroseconds = .ok [1000000, -3000000, 0, 2000000] ∧
      ∃ dues last, clock.reset.advanceAll durations = .ok (dues, last) ∧
        last.elapsed = 3000000 ∧ (dues.map Prod.fst).sum = 2100 ∧
          (dues.map Prod.snd).sum = 180 := by
  intro clock durations
  have rounds : durations.mapM Number.toMicroseconds =
      .ok [1000000, -3000000, 0, 2000000] := rfl
  refine ⟨rounds, ?_⟩
  obtain ⟨_, dues, last, advanced, _, time, _, _, _, steps, ticks, _⟩ :=
    @advanceAll_of_reset clock 700 60 durations _ rfl (by decide) rfl (by decide) rounds
  have elapsed : (last.elapsed : Int) = 3000000 := time
  rw [elapsed] at steps ticks
  exact ⟨dues, last, advanced, by omega, steps, ticks⟩

/-- The sixtieth of a second as it is measured. -/
def sixtieth : Number := .ofRat (1 / 60)

/-- It is rounded up, by a third of a microsecond. -/
theorem sixtieth_rounds : sixtieth.toMicroseconds = .ok 16667 := by
  have known : sixtieth.toMicroseconds.toOption = some 16667 := by decide +kernel
  cases rounds : sixtieth.toMicroseconds with
  | error misuse =>
    rw [rounds] at known
    cases known
  | ok passed =>
    rw [rounds] at known
    exact congrArg Except.ok (Option.some.inj known)

/-- The ticks until a number of sixtieths has passed: one for each, and one more whenever
the surplus fills a tick. -/
theorem ticks_of_sixtieths (count : Nat) :
    (60 : Int) * ((count * 16667 : Nat) : Int) / 1000000 = count + count / 50000 := by
  omega

/-- The ticks of a single sixtieth after others. -/
theorem gained_sixtieth (count : Nat) :
    gained 60 (count * 16667) ((count + 1) * 16667) = if 50000 ∣ count + 1 then 2 else 1 := by
  have before := ticks_of_sixtieths count
  have after := ticks_of_sixtieths (count + 1)
  simp only [gained, Number.microseconds]
  split <;> omega

/-- Sixtieths that pass one after the other, on a clock on which some have passed. -/
theorem advances_sixtieths (rounds : duration.toMicroseconds = .ok 16667) (before count : Nat) :
    (whole rate 60 (before * 16667)).advances duration count =
      ((List.range' before count).map fun made =>
          (gained rate (made * 16667) ((made + 1) * 16667),
            if 50000 ∣ made + 1 then 2 else 1),
        whole rate 60 ((before + count) * 16667), none) := by
  induction count generalizing before with
  | zero => rfl
  | succ count inductionHypothesis =>
    have later : before * 16667 + (16667 : Int).toNat = (before + 1) * 16667 := by omega
    have total : before + 1 + count = before + (count + 1) := by omega
    rw [advances, advance_whole_eq rounds, later, gained_sixtieth]
    simp only [inductionHypothesis, List.range'_succ, List.map_cons, total]

/-- What the last of some sixtieths brings, when they pass after a reset. -/
theorem advances_sixtieths_newest (rounds : duration.toMicroseconds = .ok 16667) (before : Nat) :
    ∃ dues last, (whole rate 60 0).advances duration (before + 1) = (dues, last, none) ∧
      dues.length = before + 1 ∧
      dues.getLast? = some (gained rate (before * 16667) ((before + 1) * 16667),
        if 50000 ∣ before + 1 then 2 else 1) := by
  have advanced := @advances_sixtieths rate duration rounds 0 (before + 1)
  rw [Nat.zero_mul] at advanced
  refine ⟨_, _, advanced, ?_, ?_⟩
  · rw [List.length_map, List.length_range']
  · rw [List.range'_concat, List.map_append]
    simp

/-- On a fresh clock of sixty ticks a second, whatever its instruction rate, a sixtieth brings
one tick, unless it is the 50000th or a multiple of that. Then it brings two. -/
theorem sixtieth_brings_one_iff (made : ofRates? (.whole rate) (.whole 60) = .ok clock)
    (rounds : duration.toMicroseconds = .ok 16667) {count : Nat} (some : 1 ≤ count) :
    ∃ dues last steps ticks, clock.advances duration count = (dues, last, none) ∧
      dues.length = count ∧ dues.getLast? = Option.some (steps, ticks) ∧
      (ticks = 1 ↔ ¬50000 ∣ count) ∧ (50000 ∣ count → ticks = 2) := by
  obtain ⟨before, rfl⟩ := Nat.exists_eq_add_of_le' some
  have start : clock = whole rate 60 0 := by
    unfold ofRates? at made
    split at made
    · exact (Except.ok.inj made).symm
    · cases made
  rw [start]
  obtain ⟨dues, last, advanced, all, newest⟩ := advances_sixtieths_newest rounds before
  refine ⟨dues, last, _, _, advanced, all, newest, ?_, fun multiple => if_pos multiple⟩
  split <;> simp_all

/-- For two seconds every sixtieth brings one tick. -/
theorem sixtieth_brings_one_of_standard :
    let clock : FrameClock := ⟨.whole 700, .whole 60, 0⟩
    ∃ dues last steps, clock.advances sixtieth 120 = (dues, last, none) ∧
      dues.length = 120 ∧ dues.getLast? = some (steps, 1) := by
  intro clock
  obtain ⟨dues, last, steps, ticks, advanced, all, newest, one, _⟩ :=
    @sixtieth_brings_one_iff clock 700 sixtieth rfl sixtieth_rounds 120 (by decide)
  rw [one.mpr (by decide)] at newest
  exact ⟨dues, last, steps, advanced, all, newest⟩

/-- The 50000th sixtieth brings two ticks. -/
theorem sixtieth_brings_two :
    ∃ clock, ofRates? (.whole 1) (.whole 60) = .ok clock ∧
      sixtieth.toMicroseconds = .ok 16667 ∧
      ∃ dues last steps ticks, clock.advances sixtieth 50000 = (dues, last, none) ∧
        dues.length = 50000 ∧ dues.getLast? = some (steps, ticks) ∧ ticks = 2 ∧ ticks ≠ 1 := by
  obtain ⟨dues, last, advanced, all, newest⟩ :=
    @advances_sixtieths_newest 1 sixtieth sixtieth_rounds 49999
  exact ⟨whole 1 60 0, rfl, sixtieth_rounds, dues, last, _, _, advanced, all, newest, by decide,
    by decide⟩

end FrameClock

end Chip8
