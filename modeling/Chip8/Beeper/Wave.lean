import Chip8.Number

/-!
# The tone

A tone is one period of a square wave, sampled at signed 16-bit levels: high
for half of the period, and low for the rest of it.
-/

namespace Chip8

/-- How a tone sounds: its frequency, the samples taken per second, and its
volume as a fraction of full scale. -/
structure Tone where
  frequency : Number
  sampleRate : Number
  volume : Number
deriving DecidableEq, Repr

/-- Equal samples in a row. -/
structure SampleRun where
  level : Int
  length : Nat
deriving DecidableEq, Repr

/-- Why a tone has no wave. -/
inductive Tone.Misuse where
  /-- Period or level cannot be calculated. -/
  | number (misuse : Number.Misuse)
  /-- The samples cannot be counted. -/
  | tooLong
  /-- The samples cannot be stored. -/
  | noSpace
  /-- The level is beyond all machine integers. -/
  | noLevel
  | tooHigh
  | tooLow
deriving DecidableEq, Repr

def Tone.Misuse.message : Tone.Misuse → String
  | number misuse => misuse.message
  | tooLong => "cannot fit 'int' into an index-sized integer"
  | noSpace => ""
  | noLevel => "Python int too large to convert to C long"
  | tooHigh => "signed short integer is greater than maximum"
  | tooLow => "signed short integer is less than minimum"

namespace Tone

/-- Concert pitch at the usual sampling rate, not too loud. -/
def standard : Tone := ⟨.ofRat 440, .whole 44100, .ofRat (3 / 10)⟩

/-- The highest level of a sample. -/
def fullScale : Int := 32767

/-- Magnitudes that a machine integer can hold are below this one. -/
def wordReach : Int := Nat.pow 2 63

/-- Samples that can be stored. -/
def space : Nat := Nat.pow 2 32

/-- Samples in one period. A period has a high and a low sample at least. -/
def period (tone : Tone) : Except Number.Misuse Nat := do
  return max 2 (← (← tone.sampleRate.div tone.frequency).round).toNat

/-- The level of the high samples. -/
def level (tone : Tone) : Except Number.Misuse Int := do
  (← tone.volume.mul (.whole fullScale)).truncate

/-- The runs of a period with the given level. At level zero both halves are
one run. -/
def runs (level : Int) (period : Nat) : List SampleRun :=
  if level = 0 then [⟨0, period⟩]
  else [⟨level, period / 2⟩, ⟨-level, period - period / 2⟩]

/-- Check that there is room for the high samples, which are laid out first. -/
def checkLength (samples : Nat) : Except Misuse Unit := do
  if wordReach ≤ samples then throw .tooLong
  if space < samples then throw .noSpace

/-- Check that samples can hold a level and its opposite. The high samples come
first, so that their level is refused first. -/
def checkLevel (level : Int) : Except Misuse Unit := do
  if level < -wordReach ∨ wordReach ≤ level then throw .noLevel
  if fullScale < level then throw .tooHigh
  if level < -fullScale - 1 then throw .tooLow
  if level = -fullScale - 1 then throw .tooHigh

/-- One period, if it can be stored and a sample can hold its levels. -/
def wave (tone : Tone) : Except Misuse (List SampleRun) := do
  let period ← tone.period.mapError .number
  let level ← tone.level.mapError .number
  checkLength (period / 2)
  checkLevel level
  pure (runs level period)

end Tone

end Chip8
