import Chip8.Proofs.Audio
import Chip8.Proofs.Measuring
import Chip8.Proofs.Restarting
import Mathlib.Data.List.Induction

/-!
# Tones end after they begin

The changes of the beeper are dated by the clock, which goes on as time passes and is taken
back to zero by loading, by a reset, and by a new instruction rate. A request switches the
beeper at the time that the clock shows when the request is done: what takes the clock back
does so before the beeper is adjusted, and time passes before the moves that fill it.

So in the history of a beeper every change is dated at a moment that the clock has passed,
unless the clock was taken back since. No tone ends before it began, unless the clock was
taken back while the tone was on.
-/

namespace Chip8

/-- Requests that take the clock back to zero where they are granted. -/
def Request.restarts : Request → Bool
  | .load .. | .loadFile .. | .reset | .powerOn | .setRate _ => true
  | _ => false

namespace Machine

variable {before middle after machine start : Machine}

/-- Between two machines the beeper was asked for positions, at the time of the second. -/
def Rings (before after : Machine) : Prop :=
  ∃ calls : List (Number × Bool), after.beeper = before.beeper.setActiveAll calls ∧
    ∀ call ∈ calls, after.clock.seconds = .ok call.1

theorem Rings.of_same (beeper : after.beeper = before.beeper) : Rings before after :=
  ⟨[], beeper, nofun⟩

/-- To adjust the beeper is to ask it for a position, if the time can be told. -/
theorem Rings.adjusted (beeper : after.beeper = before.beeper) :
    Rings before after.adjustBeeper := by
  unfold adjustBeeper
  split
  case h_1 now told =>
    refine ⟨[(now, after.isRunning && after.timers.soundActive)], ?_, ?_⟩
    · rw [← beeper]
      rfl
    · intro call member
      rw [List.mem_singleton.mp member]
      exact told
  case h_2 => exact .of_same beeper

theorem Rings.trans (first : Rings before middle) (second : Rings middle after)
    (clock : after.clock = middle.clock) : Rings before after := by
  obtain ⟨calls, asked, dated⟩ := first
  obtain ⟨more, askedMore, datedMore⟩ := second
  refine ⟨calls ++ more, ?_, ?_⟩
  · rw [askedMore, asked, Beeper.setActiveAll_append]
  · intro call member
    rcases List.mem_append.mp member with here | there
    · rw [clock]
      exact dated call here
    · exact datedMore call there

/-- A step asks for a position after the sound timer was set, and else for none. -/
theorem rings_afterStep (machine : Machine) : Rings machine machine.afterStep := by
  rcases afterStep_cases machine with failed |
    ⟨word, operation, after, executed, last, _, _, left, ⟨_, ended⟩ | ⟨_, ended⟩⟩
  · exact .of_same (by rw [failed])
  all_goals
    have beeper : after.beeper = machine.beeper := by rw [left.host]
    rw [ended]
  · exact .of_same beeper
  · exact .adjusted beeper

theorem rings_tick (machine : Machine) : Rings machine machine.tick := .adjusted rfl

/-- A run asks for one position after the other, all at one time. -/
theorem rings_follow (run : Run) (moves : List Move) :
    Rings run.machine (run.follow moves).machine := by
  have kept := Run.follow_keeps
    (fun machine => machine.clock = run.machine.clock ∧ Rings run.machine machine)
    (fun machine ⟨clock, rings⟩ =>
      have still := (carries_afterStep machine).clock
      ⟨still.trans clock, rings.trans (rings_afterStep machine) still⟩)
    (fun machine ⟨clock, rings⟩ =>
      have still := (carries_tick machine).clock
      ⟨still.trans clock, rings.trans (rings_tick machine) still⟩)
    ⟨rfl, .of_same rfl⟩ moves
  exact kept.2

/-- A program is started at time zero. -/
theorem rings_start (machine : Machine) (memory : Memory) (dialect : Option Dialect) :
    Rings machine (machine.start memory dialect) := by
  let replaced : Machine := { machine with memory, dialect := dialect.getD machine.dialect }
  have first : Rings machine replaced.restarted.adjustBeeper := .adjusted rfl
  have second : Rings replaced.reset (replaced.reset.setStatus .running) := .adjusted rfl
  refine first.trans second ?_
  change ({ replaced.reset with status := .running } : Machine).adjustBeeper.clock = _
  rw [adjustBeeper_eq]
  rfl

/-- A request asks the beeper for positions at the time at which the request is done. -/
theorem rings_serveOne (machine : Machine) (request : Request) :
    Rings machine (machine.serveOne request) := by
  cases request
  case load image dialect =>
    rw [serveOne_load]
    split
    · exact .of_same rfl
    · exact rings_start ..
  case loadFile disk path dialect =>
    rw [serveOne_loadFile]
    split
    · exact rings_start ..
    · exact .of_same rfl
  case reset =>
    rw [serveOne_reset, reset_eq]
    exact .adjusted rfl
  case powerOn =>
    obtain ⟨calls, asked, dated⟩ : Rings machine machine.restarted.adjustBeeper := .adjusted rfl
    exact serveOne_powerOn machine ▸ ⟨calls, asked, dated⟩
  case powerOff | skip | clearDelay => exact .of_same rfl
  case pause => exact serveOne_pause machine ▸ .adjusted rfl
  case resume => exact serveOne_resume machine ▸ .adjusted rfl
  case setStatus code =>
    rw [serveOne_setStatus]
    split
    · exact .adjusted rfl
    · exact .of_same rfl
  case setRate rate =>
    rw [serveOne_setRate]
    split <;> exact .of_same rfl
  case step => exact serveOne_step machine ▸ rings_afterStep machine
  case tick => exact serveOne_tick machine ▸ rings_tick machine
  case runFrame =>
    rw [runFrame_eq_follow]
    exact rings_follow (Run.begin machine) _
  case emulate duration =>
    rw [emulate_eq_follow]
    have beeper : (machine.outset (.emulate duration)).beeper = machine.beeper := by
      rw [outset_eq]
    obtain ⟨calls, asked, dated⟩ := rings_follow (Run.begin (machine.outset (.emulate duration)))
      (machine.agenda (.emulate duration))
    exact ⟨calls, beeper ▸ asked, dated⟩
  case setKey key pressed =>
    rw [serveOne_setKey]
    split <;> exact .of_same rfl
  case clearSound => exact serveOne_clearSound machine ▸ .adjusted rfl

/-- The request is granted and takes the clock back to zero. -/
def Restarts (machine : Machine) (request : Request) : Prop :=
  request.restarts = true ∧ ∃ result, (machine.serve request).result = .ok result

/-- The clock is not taken back by any other request. -/
theorem elapsed_le_serveOne (machine : Machine) (request : Request) :
    machine.clock.elapsed ≤ (machine.serveOne request).clock.elapsed ∨
      machine.Restarts request := by
  have same {other : Machine} (clock : other.clock = machine.clock) :
      machine.clock.elapsed ≤ other.clock.elapsed ∨ machine.Restarts request :=
    .inl (Nat.le_of_eq (congrArg FrameClock.elapsed clock.symm))
  have adjusted {other : Machine} (clock : other.clock = machine.clock) :
      machine.clock.elapsed ≤ other.adjustBeeper.clock.elapsed ∨ machine.Restarts request := by
    refine same (Eq.trans ?_ clock)
    rw [adjustBeeper_eq]
  cases request
  case load image dialect =>
    by_cases larger : machine.memory.capacity < image.length
    · rw [serveOne_load, if_pos larger]
      exact same rfl
    · exact .inr ⟨rfl, .done, by rw [serve_load_of_fits (Nat.not_lt.mp larger)]; rfl⟩
  case loadFile disk path dialect =>
    rw [serveOne_loadFile]
    cases found : Rom.read disk path machine.memory.capacity with
    | ok rom => exact .inr ⟨rfl, .program rom, by rw [serve_loadFile_of_ok found]⟩
    | error refusal => exact same rfl
  case reset => exact .inr ⟨rfl, .done, by rw [serve_reset]; rfl⟩
  case powerOn =>
    have granted : machine.serve .powerOn = .done machine.powerOn := by
      have told : machine.powerOn.lostTime? = none := (reset_silent machine).1
      change Reply.adjusted machine.powerOn = _
      rw [Reply.adjusted, told]
    exact .inr ⟨rfl, .done, by rw [granted]; rfl⟩
  case powerOff | skip | clearDelay => exact same rfl
  case pause => exact serveOne_pause machine ▸ adjusted rfl
  case resume => exact serveOne_resume machine ▸ adjusted rfl
  case setStatus code =>
    rw [serveOne_setStatus]
    split
    · exact adjusted rfl
    · exact same rfl
  case setRate rate =>
    cases set : machine.clock.setRate? rate with
    | ok clock => exact .inr ⟨rfl, .done, by simp only [serve, setRate?, set]; rfl⟩
    | error misuse =>
      rw [serveOne_setRate, set]
      exact same rfl
  case step => exact serveOne_step machine ▸ same (carries_afterStep machine).clock
  case tick => exact serveOne_tick machine ▸ adjusted rfl
  case runFrame =>
    rw [runFrame_eq_follow]
    exact same (carries_follow (Run.begin machine) _).clock
  case emulate duration =>
    obtain ⟨passed, later⟩ := outset_clock machine (.emulate duration)
    have still := (carries_follow (Run.begin (machine.outset (.emulate duration)))
      (machine.agenda (.emulate duration))).clock
    rw [emulate_eq_follow, still]
    change _ ≤ (machine.outset (.emulate duration)).clock.elapsed ∨ _
    rw [later]
    exact .inl (Nat.le_add_right ..)
  case setKey key pressed =>
    rw [serveOne_setKey]
    split <;> exact same rfl
  case clearSound => exact serveOne_clearSound machine ▸ adjusted rfl

end Machine

/-- The clock has passed a moment that is told as this time. -/
def FrameClock.HasPassed (clock : FrameClock) (time : Number) : Prop :=
  ∃ moment : FrameClock, moment.elapsed ≤ clock.elapsed ∧ moment.seconds = .ok time

/-- A history, the latest change first, in which no change is dated before the one that it
follows, and at a time that the clock has passed. Of a history at which the clock was taken
back this is not known. -/
structure Dated (takenBack : List Beep → Prop) (clock : FrameClock) (history : List Beep) :
    Prop where
  ordered : ∀ later change earlier, later :: change :: earlier <:+ history →
    change.time.le later.time = true ∨ takenBack (change :: earlier)
  passed : ∀ last earlier, history = last :: earlier →
    clock.HasPassed last.time ∨ takenBack history

namespace Dated

variable {takenBack further : List Beep → Prop} {clock next : FrameClock} {history : List Beep}
  {time : Number}

/-- A history without changes is dated. -/
theorem nil : Dated takenBack clock [] := by
  refine ⟨fun later change earlier suffix => ?_, nofun⟩
  cases List.suffix_nil.mp suffix

/-- As time passes it stays so. -/
theorem later (dated : Dated takenBack clock history) (order : clock.elapsed ≤ next.elapsed) :
    Dated takenBack next history := by
  refine ⟨dated.ordered, fun last earlier same => ?_⟩
  refine (dated.passed last earlier same).imp_left ?_
  rintro ⟨moment, before, told⟩
  exact ⟨moment, Nat.le_trans before order, told⟩

/-- The clock may be taken back, now or at other histories. -/
theorem mono (dated : Dated takenBack clock history)
    (more : ∀ history, takenBack history → further history) : Dated further clock history where
  ordered later change earlier suffix :=
    (dated.ordered later change earlier suffix).imp_right (more _)
  passed last earlier same := (dated.passed last earlier same).imp_right (more _)

theorem restart (dated : Dated takenBack clock history) (back : takenBack history) :
    Dated takenBack next history :=
  ⟨dated.ordered, fun _ _ _ => .inr back⟩

/-- A change that is dated by the clock follows the last one. -/
theorem record (dated : Dated takenBack clock history) (told : clock.seconds = .ok time)
    (edge : Edge) : Dated takenBack clock (⟨edge, time⟩ :: history) where
  ordered later change earlier suffix := by
    rcases List.suffix_cons_iff.mp suffix with here | before
    · obtain ⟨rfl, rfl⟩ := List.cons.inj here
      refine (dated.passed change earlier rfl).imp_left ?_
      rintro ⟨moment, before, toldBefore⟩
      exact FrameClock.seconds_mono toldBefore told before
    · exact dated.ordered later change earlier before
  passed last earlier same := by
    obtain ⟨rfl, _⟩ := List.cons.inj same
    exact .inl ⟨clock, Nat.le_refl _, told⟩

/-- Calls at the time of the clock go on dating the history of a beeper. -/
theorem setActiveAll {beeper : Beeper} (dated : Dated takenBack clock beeper.history)
    {calls : List (Number × Bool)} (told : ∀ call ∈ calls, clock.seconds = .ok call.1) :
    Dated takenBack clock (beeper.setActiveAll calls).history := by
  induction calls generalizing beeper with
  | nil => exact dated
  | cons call rest inductionHypothesis =>
    have first : Dated takenBack clock (beeper.setActive call.1 call.2).history := by
      rw [Beeper.setActive_history, Beeper.chronicle]
      split
      · exact dated
      · exact dated.record (told call List.mem_cons_self) _
    exact inductionHypothesis first fun other later =>
      told other (List.mem_cons_of_mem _ later)

end Dated

namespace Machine

variable {machine start : Machine} {requests : List Request}

/-- Along the requests the clock was taken back when the beeper had this history. -/
def TakenBack (start : Machine) (requests : List Request) (history : List Beep) : Prop :=
  ∃ earlier request later, requests = earlier ++ request :: later ∧
    (start.serveAll earlier).Restarts request ∧
    (start.serveAll earlier).beeper.history = history

/-- One more request goes on dating the history. -/
theorem dated_serveOne (request : Request)
    (dated : Dated (start.TakenBack requests) (start.serveAll requests).clock
      (start.serveAll requests).beeper.history) :
    Dated (start.TakenBack (requests ++ [request])) (start.serveAll (requests ++ [request])).clock
      (start.serveAll (requests ++ [request])).beeper.history := by
  have known : Dated (start.TakenBack (requests ++ [request])) (start.serveAll requests).clock
      (start.serveAll requests).beeper.history := by
    refine dated.mono ?_
    rintro history ⟨earlier, other, later, rfl, restarts, before⟩
    exact ⟨earlier, other, later ++ [request], by simp, restarts, before⟩
  have reached : start.serveAll (requests ++ [request]) =
      (start.serveAll requests).serveOne request := serveAll_append ..
  obtain ⟨calls, asked, told⟩ := rings_serveOne (start.serveAll requests) request
  rw [reached, asked]
  refine Dated.setActiveAll ?_ told
  rcases elapsed_le_serveOne (start.serveAll requests) request with order | restarts
  · exact known.later order
  · exact known.restart ⟨requests, request, [], rfl, restarts, rfl⟩

/-- The history of a machine that was built is dated, whatever is asked of the machine. -/
theorem IsBuilt.dated (built : start.IsBuilt) (requests : List Request) :
    Dated (start.TakenBack requests) (start.serveAll requests).clock
      (start.serveAll requests).beeper.history := by
  induction requests using List.reverseRecOn with
  | nil =>
    obtain ⟨tone, device, enabled, silent⟩ := built.audio
    rw [serveAll_nil, silent]
    exact .nil
  | append_singleton requests request inductionHypothesis =>
    exact dated_serveOne request inductionHypothesis

/-- On and off alternate in it. -/
theorem IsBuilt.alternates (built : start.IsBuilt) (requests : List Request) :
    Beeper.Alternates (start.serveAll requests).beeper.history
      (start.serveAll requests).beeper.active := by
  have begun : Beeper.Alternates start.beeper.history start.beeper.active := by
    obtain ⟨tone, device, enabled, silent⟩ := built.audio
    rw [silent]
    exact rfl
  refine serveAll_keeps (fun machine => Beeper.Alternates machine.beeper.history
    machine.beeper.active) (fun request _ machine alternates => ?_) begun
  obtain ⟨calls, asked, _⟩ := rings_serveOne machine request
  rw [asked]
  exact alternates.setActiveAll calls

/-- No tone ends before it began. Whatever is asked of a machine that was built, in its history
every change that switches the beeper off follows one that switched it on, and is not dated
before that one, unless a request took the clock back to zero while the tone was on. -/
theorem IsBuilt.tone_ends_later (built : start.IsBuilt) (requests : List Request) {off : Beep}
    {earlier : List Beep} (ended : off.edge = .off)
    (told : off :: earlier <:+ (start.serveAll requests).beeper.history) :
    ∃ on older, earlier = on :: older ∧ on.edge = .on ∧
      (on.time.le off.time = true ∨ start.TakenBack requests earlier) := by
  obtain ⟨on, older, rfl, began⟩ := (built.alternates requests).began told ended
  exact ⟨on, older, rfl, began, (built.dated requests).ordered off on older told⟩

/-- A beeper that follows the machine need not be adjusted. -/
theorem Follows.adjustBeeper_eq (follows : machine.Follows) : machine.adjustBeeper = machine := by
  have already : machine.wantsTone = machine.beeper.active :=
    ((follows_iff_active machine).mp follows).symm
  unfold adjustBeeper
  split
  case h_1 now told =>
    have same : machine.beeper.setActive now machine.wantsTone = machine.beeper := by
      rw [Beeper.setActive, if_pos already]
    exact congrArg (fun beeper => { machine with beeper }) same
  case h_2 => rfl

/-- A machine that is silent when an image is loaded stays so, with its beeper as it was. -/
theorem serveOne_load_of_silent {image : List UInt8} (silent : machine.beeper.active = false)
    (fits : image.length ≤ machine.memory.capacity) (dialect : Option Dialect) :
    machine.serveOne (.load image dialect) =
      { machine.restarted with
        memory := machine.memory.install image
        dialect := dialect.getD machine.dialect
        status := .running } := by
  let ready : Machine :=
    { machine.restarted with
      memory := machine.memory.install image
      dialect := dialect.getD machine.dialect }
  let running : Machine := { ready with status := .running }
  have reset : ready.adjustBeeper = ready :=
    (@follows_of_silent ready silent rfl).adjustBeeper_eq
  have started : running.adjustBeeper = running :=
    (@follows_of_silent running silent rfl).adjustBeeper_eq
  rw [serveOne_load, if_neg (Nat.not_lt.mpr fits)]
  change ({ ready.adjustBeeper with status := .running } : Machine).adjustBeeper = _
  rw [reset]
  exact started

/-- A thousandth of a second. -/
def millisecond : Number := .ofRat (1 / 1000)

/-- A tone that begins after a millisecond, and goes on. -/
def laterTone : List Request :=
  [.load toneProgram none, .emulate millisecond, .step, .step]

theorem serveAll_laterTone :
    ∃ registers executed last, (ofRate 700 .chip8 0 .mute).serveAll laterTone =
      { ofRate 700 .chip8 0 .mute with
        registers
        executed
        last
        memory := Memory.standard.install toneProgram
        timers := ⟨0, 5⟩
        clock := ⟨.whole 700, .whole 60, 1000⟩
        beeper := { Beeper.mute with active := true, history := [⟨.on, millisecond⟩] }
        status := .running } := by
  have fits : toneProgram.length ≤ (ofRate 700 .chip8 0 .mute).memory.capacity := by
    decide +kernel
  let loaded : Machine :=
    { ofRate 700 .chip8 0 .mute with
      memory := Memory.standard.install toneProgram
      status := .running }
  have load : (ofRate 700 .chip8 0 .mute).serveOne (.load toneProgram none) = loaded :=
    serveOne_load_of_silent rfl fits none
  let later : Machine := { loaded with clock := ⟨.whole 700, .whole 60, 1000⟩ }
  have passed : loaded.clock.advance millisecond = .ok ((0, 0), later.clock) := by
    decide +kernel
  have emulate : loaded.serveOne (.emulate millisecond) = later := by
    have running : loaded.isRunning = true := rfl
    rw [emulate_eq_follow]
    simp only [outset, agenda, running, if_true, passed]
    rfl
  obtain ⟨registers, last, stepped⟩ := @afterStep_toneProgram later rfl rfl rfl
  refine ⟨registers, 2, last, ?_⟩
  rw [laterTone, serveAll_cons, serveAll_cons, serveAll_cons, serveAll_cons, serveAll_nil, load,
    emulate, serveOne_step, serveOne_step, stepped]
  have told : later.clock.seconds = .ok millisecond := by decide +kernel
  rw [adjustBeeper]
  simp only [told]
  rfl

/-- A tone that is ended by clearing the sound timer ends when it began, not before. -/
theorem tone_ends_later_of_clearSound :
    let start := ofRate 700 .chip8 0 .mute
    let requests := laterTone ++ [.clearSound]
    let on : Beep := ⟨.on, millisecond⟩
    let off : Beep := ⟨.off, millisecond⟩
    (start.serveAll requests).beeper.history = [off, on] ∧
      (on.time.le off.time = true ∨ start.TakenBack requests [on]) := by
  intro start requests on off
  have ended : (start.serveAll requests).beeper.history = [off, on] := by
    obtain ⟨registers, executed, last, tone⟩ := serveAll_laterTone
    have told : (⟨.whole 700, .whole 60, 1000⟩ : FrameClock).seconds = .ok millisecond := by
      decide +kernel
    rw [serveAll_append, tone, serveAll_cons, serveAll_nil, serveOne_clearSound, clearSound,
      adjustBeeper]
    simp only [told]
    rfl
  have built : start.IsBuilt := isBuilt_mute (by decide) .chip8 0
  have suffix : [off, on] <:+ (start.serveAll requests).beeper.history :=
    ended ▸ List.suffix_refl _
  obtain ⟨first, older, same, _, ordered⟩ := built.tone_ends_later requests rfl suffix
  cases same
  exact ⟨ended, ordered⟩

/-- A new instruction rate takes the clock back during the tone, which then ends before it
began. -/
theorem tone_ends_earlier_of_setRate :
    let machine := (ofRate 700 .chip8 0 .mute).serveAll
      (laterTone ++ [.setRate (.whole 700), .clearSound])
    Reachable machine ∧
      machine.beeper.history = [⟨.off, .ofRat 0⟩, ⟨.on, millisecond⟩] ∧
      millisecond.le (.ofRat 0) = false := by
  intro machine
  have reached : Reachable machine :=
    (Reachable.built (isBuilt_mute (by decide) .chip8 0)).serveAll _
  refine ⟨reached, ?_, by decide +kernel⟩
  obtain ⟨registers, executed, last, tone⟩ := serveAll_laterTone
  have told : (⟨.whole 700, .whole 60, 0⟩ : FrameClock).seconds = .ok (.ofRat 0) := by
    decide +kernel
  have set : (⟨.whole 700, .whole 60, 1000⟩ : FrameClock).setRate? (.whole 700) =
      .ok ⟨.whole 700, .whole 60, 0⟩ := by
    decide +kernel
  change (serveAll _ _).beeper.history = _
  rw [serveAll_append, tone, serveAll_cons, serveAll_cons, serveAll_nil, serveOne_setRate, set,
    serveOne_clearSound, clearSound, adjustBeeper]
  simp only [told]
  rfl

end Machine

end Chip8
