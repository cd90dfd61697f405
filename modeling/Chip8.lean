import Chip8.AddressRange
import Chip8.Beeper
import Chip8.Beeper.Wave
import Chip8.CallStack
import Chip8.Chassis
import Chip8.CommandLine
import Chip8.Dialect
import Chip8.Disk
import Chip8.Disk.Path
import Chip8.Emulator
import Chip8.Ending
import Chip8.Fault
import Chip8.FrameClock
import Chip8.HexDump
import Chip8.Instruction
import Chip8.Instruction.Memo
import Chip8.Instruction.Operation
import Chip8.Instruction.Pattern
import Chip8.Instruction.Word
import Chip8.Keypad
import Chip8.Machine
import Chip8.Machine.Execution
import Chip8.Machine.Run
import Chip8.Machine.Walk
import Chip8.Main
import Chip8.Memory
import Chip8.Memory.Access
import Chip8.Memory.Change
import Chip8.Memory.Font
import Chip8.Number
import Chip8.Number.Measure
import Chip8.Number.Rounding
import Chip8.Output
import Chip8.Proofs.Atomicity
import Chip8.Proofs.Blocks
import Chip8.Proofs.Bounds
import Chip8.Proofs.Decoding
import Chip8.Proofs.Drawing
import Chip8.Proofs.Footprint
import Chip8.Proofs.Grid
import Chip8.Proofs.InPlace
import Chip8.Proofs.Isolation
import Chip8.Proofs.Request
import Chip8.Proofs.Schedule
import Chip8.Proofs.Sounding
import Chip8.Proofs.Storage
import Chip8.Proofs.WellFormed
import Chip8.RandomSource
import Chip8.Registers
import Chip8.Registers.Arithmetic
import Chip8.Rom
import Chip8.RunStatus
import Chip8.Runner
import Chip8.Screen
import Chip8.Screen.Picture
import Chip8.Session
import Chip8.Session.Deadline
import Chip8.Snapshot
import Chip8.Text.Blank
import Chip8.Text.ByteText
import Chip8.Text.Capital
import Chip8.Text.Digit
import Chip8.Text.Hex
import Chip8.Text.Numeral
import Chip8.Text.Printable
import Chip8.Text.Quoted
import Chip8.Timers
import Chip8.Window
import Chip8.Window.Caption
import Chip8.Window.Keys
import Chip8.Proofs.Completion
import Chip8.Proofs.Slices
import Chip8.Proofs.Exactness
import Chip8.Proofs.Surroundings
import Chip8.Proofs.Frames
import Chip8.Proofs.Sessions
import Chip8.Proofs.Makeup
import Chip8.Proofs.Forgetting
import Chip8.Proofs.Timekeeping
import Chip8.Proofs.Faults
import Chip8.Proofs.Deeds
import Chip8.Proofs.Accounts
import Chip8.Proofs.Spelling
import Chip8.Proofs.Moments
import Chip8.Proofs.Headings
import Chip8.Proofs.Calls
import Chip8.Proofs.Loading
import Chip8.Proofs.Restarting
import Chip8.Proofs.Audio
import Chip8.Proofs.Measuring
import Chip8.Proofs.Tones
import Chip8.Proofs.Records
import Chip8.Proofs.Effects
import Chip8.Proofs.Waiting
import Chip8.Proofs.Countdown
import Chip8.Proofs.Pausing
import Chip8.Proofs.Trials
import Chip8.Proofs.Reporting
import Chip8.Proofs.Turns
import Chip8.Proofs.Aftermath
import Chip8.Proofs.Ranges
import Chip8.Proofs.Planning
import Chip8.Proofs.Conduct
import Chip8.Proofs.Performing
import Chip8.Proofs.Mishaps
import Chip8.Proofs.Delivering
import Chip8.Proofs.Verdicts
import Chip8.Proofs.Flips
import Chip8.Proofs.Sprites
import Chip8.Proofs.Redrawing
import Chip8.Proofs.Carries
import Chip8.Proofs.Painting
import Chip8.Proofs.Merging
import Chip8.Proofs.Bytewise
import Chip8.Proofs.Saving
import Chip8.Proofs.Leniency
import Chip8.Proofs.Numerals
import Chip8.Proofs.Listings
import Chip8.Proofs.Dumps
import Chip8.Proofs.Keystrokes
import Chip8.Proofs.Tuning
import Chip8.Proofs.Leaving
import Chip8.Proofs.Rendering
import Chip8.Proofs.Typing
import Chip8.Proofs.Aside
import Chip8.Proofs.Accesses
import Chip8.Proofs.Tracing
import Chip8.Proofs.Replaying
import Chip8.Proofs.Overlooked
import Chip8.Proofs.Overrides
