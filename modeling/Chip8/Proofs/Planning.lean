import Chip8.Proofs.Ranges
import Chip8.Runner

/-!
# Plans

A command line is checked in two stages, and only then is anything looked at besides it. What
passes both is a plan that the rest can rely on: the rate is positive, every key exists, every
range lies within memory. What does not pass is a mistake of the command line, or a value that
is missing. No file has been touched by then, so no stop is about a file.
-/

namespace Chip8.Runner

section Results

variable {ε α β : Type} {first : Except ε α} {next : α → Except ε β}

/-- Two parts go through if both do. -/
theorem bind_eq_ok {result : β} :
    (first >>= next) = .ok result ↔ ∃ value, first = .ok value ∧ next value = .ok result := by
  cases first <;> simp [bind, Except.bind]

/-- Two parts stop where the first does, or else where the second does. -/
theorem bind_eq_error {stop : ε} :
    (first >>= next) = .error stop ↔
      first = .error stop ∨ ∃ value, first = .ok value ∧ next value = .error stop := by
  cases first <;> simp [bind, Except.bind]

/-- Passing on a reason keeps what went through. -/
theorem mapError_eq_ok {η : Type} {change : ε → η} {value : α} :
    first.mapError change = .ok value ↔ first = .ok value := by
  cases first with
  | ok other => constructor <;> rintro ⟨⟩ <;> rfl
  | error reason => constructor <;> rintro ⟨⟩

/-- What becomes of a reason when its result is passed on. -/
theorem mapError_eq_error {η : Type} {change : ε → η} {stop : η} :
    first.mapError change = .error stop ↔
      ∃ reason, first = .error reason ∧ change reason = stop := by
  cases first with
  | ok value =>
    constructor
    · intro impossible
      cases impossible
    · rintro ⟨_, impossible, _⟩
      cases impossible
  | error reason =>
    constructor
    · rintro ⟨⟩
      exact ⟨reason, rfl, rfl⟩
    · rintro ⟨_, ⟨⟩, rfl⟩
      rfl

end Results

/-- A stop that is about a file. -/
def Stop.IsAboutFile : Stop → Prop
  | .refused _ | .broken (.disk _) => True
  | _ => False

/-- A stop for a value or a number that is missing. -/
def Stop.IsLack : Stop → Prop
  | .broken .textExpected | .broken .valueExpected | .broken (.number _) => True
  | _ => False

/-- What is missing is not missing from a file. -/
theorem Stop.IsLack.apart {stop : Stop} (lack : stop.IsLack) : ¬stop.IsAboutFile := by
  cases stop with
  | broken breakdown =>
    cases breakdown with
    | textExpected | valueExpected | number => exact id
    | disk | noPath => cases lack
  | help | usage | refused => cases lack

/-- A part that stops for no other reasons than these. -/
def StopsFor {α : Type} (allowed : Stop → Prop) (part : Except Stop α) : Prop :=
  ∀ stop, part = .error stop → allowed stop

/-- A value that is needed is there. -/
theorem need_eq_ok {α : Type} {breakdown : Breakdown} {entry : Entry α} {value : α} :
    need breakdown entry = .ok value ↔ entry = some value := by
  cases entry <;> simp [need]

section StopsFor

variable {α β : Type} {allowed : Stop → Prop} {first : Except Stop α} {next : α → Except Stop β}

theorem StopsFor.ok (value : α) : StopsFor allowed (.ok value : Except Stop α) := nofun

theorem StopsFor.error {stop : Stop} (fine : allowed stop) :
    StopsFor allowed (.error stop : Except Stop α) := by
  intro other same
  cases same
  exact fine

/-- What consists of such parts is such a part. -/
theorem StopsFor.bind (head : StopsFor allowed first)
    (tail : ∀ value, StopsFor allowed (next value)) : StopsFor allowed (first >>= next) := by
  intro stop stopped
  rcases bind_eq_error.mp stopped with here | ⟨value, _, later⟩
  · exact head stop here
  · exact tail value stop later

theorem StopsFor.map {change : α → β} (part : StopsFor allowed first) :
    StopsFor allowed (first.map change) := by
  cases first with
  | ok value => exact .ok _
  | error stop => exact .error (part stop rfl)

theorem StopsFor.mapError {ε : Type} {result : Except ε α} {change : ε → Stop}
    (fine : ∀ reason, allowed (change reason)) : StopsFor allowed (result.mapError change) := by
  intro stop stopped
  obtain ⟨reason, _, rfl⟩ := mapError_eq_error.mp stopped
  exact fine reason

theorem stopsFor_need {breakdown : Breakdown} (fine : allowed (.broken breakdown))
    (entry : Entry α) : StopsFor allowed (need breakdown entry) := by
  cases entry with
  | none => exact .error fine
  | some value => exact .ok value

theorem stopsFor_needIfGiven (fine : allowed (.broken .valueExpected))
    (given : Option (Entry α)) : StopsFor allowed (needIfGiven given) := by
  cases given with
  | none => exact .ok none
  | some entry => exact (stopsFor_need fine entry).map

theorem stopsFor_readEach {what : String} {read : String → Except AddressRange.Misuse α}
    {bare : Stop} (apart : ¬bare.IsAboutFile) (entries : List (Entry String)) :
    StopsFor (¬·.IsAboutFile) (readEach what read bare entries) := by
  induction entries with
  | nil => exact .ok []
  | cons entry rest inductionHypothesis =>
    cases entry with
    | none => exact .error apart
    | some typed =>
      simp only [readEach]
      split
      · exact inductionHypothesis.map
      · exact .error id

theorem stopsFor_readDialect (preset : Entry String) (overrides : List (Entry String)) :
    StopsFor (¬·.IsAboutFile) (readDialect preset overrides) := by
  refine (stopsFor_need id preset).bind fun name => ?_
  refine StopsFor.bind (.mapError fun _ => id) fun dialect => ?_
  split
  · exact .error id
  · exact .ok dialect

/-- To read the options touches no file. -/
theorem stopsFor_read (arguments : List String) : StopsFor (¬·.IsAboutFile) (Options.read arguments) := by
  have changing (options : Options) (setting : CommandLine.Setting Key) :
      StopsFor (¬·.IsAboutFile) (options.change setting) := by
    cases setting with
    | plain value => exact .ok options
    | option flag value =>
      cases value with
      | none => exact .ok _
      | some value => exact .mapError fun _ => id
    | flag flag =>
      simp only [Options.change]
      split
      · exact .error id
      all_goals exact .ok _
  have following (settings : List (CommandLine.Setting Key)) (options : Options) :
      StopsFor (¬·.IsAboutFile) (settings.foldlM Options.change options) := by
    induction settings generalizing options with
    | nil => exact .ok options
    | cons setting rest inductionHypothesis =>
      rw [List.foldlM_cons]
      exact (changing options setting).bind inductionHypothesis
  refine (following _ _).bind fun options => ?_
  split
  · exact .ok options
  all_goals exact .error id

/-- Nor does it to check them. -/
theorem stopsFor_plan (options : Options) (environment : Environment) :
    StopsFor (¬·.IsAboutFile) (options.plan environment) := by
  refine (stopsFor_needIfGiven id options.rom).bind fun given => ?_
  dsimp only
  split
  case h_2 => exact .error id
  refine (stopsFor_need id options.rate).bind fun rate => ?_
  split
  · exact .error id
  refine (stopsFor_readEach id options.breakpoints).bind fun breakpoints => ?_
  refine (stopsFor_readEach id options.heldKeys).bind fun heldKeys => ?_
  refine (stopsFor_readEach id options.dumpRanges).bind fun dumpRanges => ?_
  refine (stopsFor_readDialect _ _).bind fun dialect => ?_
  exact (stopsFor_needIfGiven id options.seed).bind fun seed => .ok _

/-- The limits of a session stop only for what is missing. -/
theorem stopsFor_limits (job : Job) (reading : Nat → Number) :
    StopsFor Stop.IsLack (job.limits reading) := by
  refine StopsFor.bind (.mapError fun _ => trivial) fun _ => ?_
  refine (stopsFor_needIfGiven trivial job.options.seconds).bind fun seconds => ?_
  refine StopsFor.bind (.mapError fun _ => trivial) fun deadline => ?_
  exact (stopsFor_needIfGiven trivial job.options.steps).bind fun steps => .ok _

end StopsFor

variable {options : Options} {plan : Plan} {environment : Environment}

/-- There are as many values as texts, and each was read from a text. -/
theorem of_readEach {α : Type} {what : String} {read : String → Except AddressRange.Misuse α}
    {bare : Stop} {entries : List (Entry String)} {values : List α}
    (accepted : readEach what read bare entries = .ok values) :
    values.length = entries.length ∧ ∀ value ∈ values, ∃ typed, read typed = .ok value := by
  induction entries generalizing values with
  | nil =>
    cases accepted
    exact ⟨rfl, nofun⟩
  | cons entry rest inductionHypothesis =>
    cases entry with
    | none => cases accepted
    | some typed =>
      simp only [readEach] at accepted
      split at accepted
      case h_2 => cases accepted
      case h_1 value found =>
        cases further : readEach what read bare rest with
        | error stop =>
          rw [further] at accepted
          cases accepted
        | ok others =>
          obtain ⟨length, each⟩ := inductionHypothesis further
          rw [further] at accepted
          cases accepted
          refine ⟨congrArg (· + 1) length, fun other member => ?_⟩
          rcases List.mem_cons.mp member with rfl | later
          · exact ⟨typed, found⟩
          · exact each other later

/-- What a plan has been checked for. -/
structure Plan.Checked (options : Options) (plan : Plan) : Prop where
  rate : 0 < plan.rate
  keys : ∀ key ∈ plan.heldKeys, 0 ≤ key ∧ key < 16
  keyless : plan.heldKeys = [] → options.heldKeys = []
  ranges : ∀ range ∈ plan.dumpRanges, range.Within

/-- Options with a plan have been checked. -/
theorem checked_of_plan (planned : options.plan environment = .ok plan) :
    plan.Checked options := by
  unfold Options.plan at planned
  obtain ⟨given, found, planned⟩ := bind_eq_ok.mp planned
  dsimp only at planned
  split at planned
  case h_2 => cases planned
  obtain ⟨rate, rated, planned⟩ := bind_eq_ok.mp planned
  split at planned
  case isTrue => cases planned
  case isFalse positive =>
    obtain ⟨breakpoints, _, planned⟩ := bind_eq_ok.mp planned
    obtain ⟨heldKeys, keys, planned⟩ := bind_eq_ok.mp planned
    obtain ⟨dumpRanges, ranges, planned⟩ := bind_eq_ok.mp planned
    obtain ⟨dialect, _, planned⟩ := bind_eq_ok.mp planned
    obtain ⟨seed, _, planned⟩ := bind_eq_ok.mp planned
    cases planned
    refine ⟨Int.not_le.mp positive, ?_, ?_, ?_⟩
    · intro key member
      obtain ⟨typed, accepted⟩ := (of_readEach keys).2 key member
      have bounds := AddressRange.readHex_within accepted
      simp only [lastKey] at bounds
      omega
    · rintro rfl
      exact List.length_eq_zero_iff.mp (of_readEach keys).1.symm
    · intro range member
      obtain ⟨typed, accepted⟩ := (of_readEach ranges).2 range member
      exact AddressRange.ofText_within accepted

end Chip8.Runner
