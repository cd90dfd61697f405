import Chip8.Proofs.InPlace
import Chip8.Proofs.Moments

/-!
# Loading

To load a program is to write to almost every part of the machine, one after the other: the
program area is cleared, the image copied, the dialect changed, everything reset, the status
set. Three layers look at the size of an image before that, the reader of files, the machine
and its memory, and each has a refusal of its own. Here they are spelled out in their order,
so that what was written before a refusal would stay written.

All the looking comes before the first write, and all layers have the same limit. A program
is therefore loaded or refused as a whole, a file is never refused by a layer below the
reader, and what the layers come to is the request as it is served.

What the reader cannot read, finds empty or finds too large, it reports as a file that could
not be loaded. One thing it does not report so: a path with a null character, which is noticed
before any file is looked for.
-/

namespace Chip8

namespace Memory

/-- Clear the program area. -/
def clearProgram (memory : Memory) : Memory :=
  { memory with
    bytes := memory.bytes.take programStart ++ (List.replicate memory.capacity 0).toArray }

/-- Copy an image over the first bytes of the program area. -/
def copyProgram (memory : Memory) (image : List UInt8) : Memory :=
  { memory with
    bytes := memory.bytes.take programStart ++ image.toArray ++
      memory.bytes.drop (programStart + image.length) }

/-- The image, with zeros behind it, fills the program area of a standard memory. -/
def Contains (memory : Memory) (image : List UInt8) : Prop :=
  memory.size = 0x1000 ∧
    memory.bytes.toList.drop 0x200 = image ++ List.replicate (0xE00 - image.length) 0

variable {memory : Memory} {image : List UInt8}

theorem clearProgram_toList (memory : Memory) :
    memory.clearProgram.bytes.toList =
      memory.reservedBytes ++ List.replicate memory.capacity 0 := by
  simp [clearProgram, reservedBytes]

theorem copyProgram_toList (memory : Memory) (image : List UInt8) :
    (memory.copyProgram image).bytes.toList =
      memory.reservedBytes ++
        (image ++ memory.bytes.toList.drop (programStart + image.length)) := by
  let after := memory.bytes.toList.drop (programStart + image.length)
  have whole : after.take (memory.bytes.size - (programStart + image.length)) = after :=
    List.take_of_length_le (Nat.le_of_eq List.length_drop)
  simp only [copyProgram, reservedBytes, Array.toList_append, Array.take_eq_extract,
    Array.drop_eq_extract, Array.toList_extract, List.extract_eq_take_drop, Nat.sub_zero,
    List.drop_zero, whole, List.append_assoc, after]

/-- An image that is copied to a cleared program area is installed. -/
theorem copyProgram_clearProgram (area : programStart ≤ memory.size) :
    memory.clearProgram.copyProgram image = memory.install image := by
  have length := length_reservedBytes area
  have reserved : memory.clearProgram.reservedBytes = memory.reservedBytes := by
    rw [reservedBytes, clearProgram_toList, List.take_left' length]
  have zeros : memory.clearProgram.bytes.toList.drop (programStart + image.length) =
      List.replicate (memory.capacity - image.length) 0 := by
    rw [clearProgram_toList, ← List.drop_drop, List.drop_left' length, List.drop_replicate]
  have bytes : (memory.clearProgram.copyProgram image).bytes = (memory.install image).bytes := by
    apply Array.toList_inj.mp
    rw [copyProgram_toList, install_toList, reserved, zeros]
  have traced : (memory.clearProgram.copyProgram image).traced = (memory.install image).traced := by
    simp only [copyProgram, clearProgram, install]
  cases copied : memory.clearProgram.copyProgram image
  cases installed : memory.install image
  rw [copied, installed] at bytes traced
  cases bytes
  cases traced
  rfl

/-- An image that is installed fills the program area, and nothing of an earlier one is left. -/
theorem contains_install (size : memory.size = standardSize)
    (fits : image.length ≤ memory.capacity) : (memory.install image).Contains image := by
  have area : programStart ≤ memory.size := by
    rw [size]
    decide
  have room : memory.capacity = 0xE00 := by
    rw [capacity, size]
    rfl
  refine ⟨(install_keeps area fits).1.trans size, ?_⟩
  rw [install_toList, room]
  exact List.drop_left' (length_reservedBytes area)

end Memory

namespace Machine

variable {machine : Machine} {disk : Disk} {path : Disk.Path}

/-- A file is started once it is read, and where it came from is kept. -/
theorem serve_loadFile_of_ok {rom : Rom}
    (found : Rom.read disk path machine.memory.capacity = .ok rom) (dialect : Option Dialect) :
    let started := machine.start (machine.memory.install rom.image) dialect
    machine.serve (.loadFile disk path dialect) =
      ⟨{ started with rom := some rom }, #[], .ok (.program rom)⟩ := by
  simp only [serve, loadFile, found]
  rfl

/-- A file that the reader refuses leaves the machine alone. -/
theorem serve_loadFile_of_error {refusal : Rom.Refusal}
    (found : Rom.read disk path machine.memory.capacity = .error refusal)
    (dialect : Option Dialect) :
    machine.serve (.loadFile disk path dialect) = .refused machine (.noProgram refusal) := by
  simp only [serve, loadFile, found]
  rfl

end Machine

/-- A request to load that writes to the machine as it goes. -/
abbrev Loader := EStateM Reply.Refusal Machine

namespace Loader

/-- Write to a part of the machine. -/
def write (change : Machine → Machine) : Loader Unit := modify change

/-- Switch the beeper to what status and sound timer ask for. -/
def adjustBeeper : Loader Unit := do
  let machine ← get
  match machine.clock.seconds with
  | .ok now =>
    let active := machine.isRunning && machine.timers.soundActive
    write fun machine => { machine with beeper := machine.beeper.setActive now active }
  | .error misuse => throw (.stopped (.number misuse))

/-- Refuse an image that the program area is too small for. -/
def checkRoom (image : List UInt8) : Loader Unit := do
  let memory := (← get).memory
  if memory.capacity < image.length then throw (.tooLarge ⟨image.length, memory.capacity⟩)

/-- Install an image in memory, which looks at its size as well. -/
def install (image : List UInt8) : Loader Unit := do
  checkRoom image
  write fun machine => { machine with memory := machine.memory.clearProgram }
  write fun machine => { machine with memory := machine.memory.copyProgram image }

/-- Change to a dialect, if one is given. -/
def changeDialect : Option Dialect → Loader Unit
  | some dialect => write fun machine => { machine with dialect }
  | none => pure ()

/-- Take the machine back to its start, part by part. -/
def reset : Loader Unit := do
  write fun machine => { machine with clock := machine.clock.reset }
  write fun machine => { machine with registers := machine.registers.reset }
  write fun machine => { machine with executed := 0 }
  write fun machine => { machine with last := none }
  write fun machine => { machine with screen := machine.screen.setExtended false }
  write fun machine => { machine with timers := .zero }
  adjustBeeper

/-- Load an image. -/
def load (image : List UInt8) (dialect : Option Dialect) : Loader Reply.Result := do
  checkRoom image
  install image
  changeDialect dialect
  reset
  write fun machine => { machine with status := .running }
  adjustBeeper
  pure .done

/-- Load a file, and keep where it came from. -/
def loadFile (disk : Disk) (path : Disk.Path) (dialect : Option Dialect) :
    Loader Reply.Result := do
  let memory := (← get).memory
  match Rom.read disk path memory.capacity with
  | .error refusal => throw (.noProgram refusal)
  | .ok rom => do
    let _ ← load rom.image dialect
    write fun machine => { machine with rom := some rom }
    pure (.program rom)

/-- The reply to a request that has been served so. -/
def reply : EStateM.Result Reply.Refusal Machine Reply.Result → Reply
  | .ok result machine => ⟨machine, #[], .ok result⟩
  | .error refusal machine => ⟨machine, #[], .error refusal⟩

open InPlace (run_bind_of_ok run_bind_of_error run_get_bind)

variable {machine : Machine} {image : List UInt8} {dialect : Option Dialect}

/-- A look at the size of an image changes nothing. -/
theorem run_checkRoom (machine : Machine) (image : List UInt8) :
    (checkRoom image).run machine =
      if machine.memory.capacity < image.length then
        .error (.tooLarge ⟨image.length, machine.memory.capacity⟩) machine
      else .ok () machine := by
  by_cases larger : machine.memory.capacity < image.length
  · simp only [checkRoom, run_get_bind, larger, if_true]
    rfl
  · simp only [checkRoom, run_get_bind, larger, if_false]
    rfl

/-- Where the time can be told the beeper is adjusted. -/
theorem run_adjustBeeper (told : machine.lostTime? = none) :
    adjustBeeper.run machine = .ok () machine.adjustBeeper := by
  unfold Machine.lostTime? at told
  cases seconds : machine.clock.seconds with
  | error misuse =>
    rw [seconds] at told
    cases told
  | ok now =>
    simp only [adjustBeeper, run_get_bind, Machine.adjustBeeper, seconds]
    rfl

/-- Part by part the machine is reset. The time is taken back first, and so it can be told. -/
theorem run_reset (machine : Machine) : reset.run machine = .ok () machine.reset :=
  @run_adjustBeeper machine.restarted (Machine.lostTime_of_start rfl)

/-- An image that fits is installed. -/
theorem run_install (area : Memory.programStart ≤ machine.memory.size)
    (fits : image.length ≤ machine.memory.capacity) :
    (install image).run machine =
      .ok () { machine with memory := machine.memory.install image } := by
  have looked : (checkRoom image).run machine = .ok () machine := by
    rw [run_checkRoom, if_neg (Nat.not_lt.mpr fits)]
  rw [install, run_bind_of_ok looked, ← Memory.copyProgram_clearProgram area]
  rfl

theorem run_changeDialect (machine : Machine) (dialect : Option Dialect) :
    (changeDialect dialect).run machine =
      .ok () { machine with dialect := dialect.getD machine.dialect } := by
  cases dialect <;> rfl

/-- An image is loaded as a whole, or refused with nothing written. -/
theorem run_load (area : Memory.programStart ≤ machine.memory.size) (image : List UInt8)
    (dialect : Option Dialect) :
    (load image dialect).run machine =
      if machine.memory.capacity < image.length then
        .error (.tooLarge ⟨image.length, machine.memory.capacity⟩) machine
      else .ok .done (machine.start (machine.memory.install image) dialect) := by
  have looked := run_checkRoom machine image
  by_cases larger : machine.memory.capacity < image.length
  · rw [if_pos larger] at looked ⊢
    exact run_bind_of_error looked
  · rw [if_neg larger] at looked ⊢
    have installed := run_install area (Nat.not_lt.mp larger)
    have changed :=
      run_changeDialect { machine with memory := machine.memory.install image } dialect
    let ready : Machine :=
      { machine with
        memory := machine.memory.install image
        dialect := dialect.getD machine.dialect }
    have told : ({ ready.reset with status := .running } : Machine).lostTime? = none := by
      obtain ⟨told, _⟩ := Machine.start_ready machine (machine.memory.install image) dialect
      exact (Machine.adjustBeeper_lostTime _).symm.trans told
    rw [load, run_bind_of_ok looked, run_bind_of_ok installed, run_bind_of_ok changed,
      run_bind_of_ok (run_reset ready)]
    exact run_bind_of_ok (run_adjustBeeper told)

/-- To load an image part by part is what a machine does that is asked to. -/
theorem reply_load (area : Memory.programStart ≤ machine.memory.size) (image : List UInt8)
    (dialect : Option Dialect) :
    reply ((load image dialect).run machine) = machine.serve (.load image dialect) := by
  rw [run_load area]
  by_cases larger : machine.memory.capacity < image.length
  · rw [if_pos larger]
    simp only [Machine.serve, Machine.load, Rom.install, if_pos larger]
    rfl
  · rw [if_neg larger, Machine.serve_load_of_fits (Nat.not_lt.mp larger)]
    rfl

/-- To load a file part by part is what a machine does that is asked to. -/
theorem reply_loadFile (area : Memory.programStart ≤ machine.memory.size) (disk : Disk)
    (path : Disk.Path) (dialect : Option Dialect) :
    reply ((loadFile disk path dialect).run machine) =
      machine.serve (.loadFile disk path dialect) := by
  cases found : Rom.read disk path machine.memory.capacity with
  | error refusal =>
    rw [Machine.serve_loadFile_of_error found]
    simp only [loadFile, run_get_bind, found]
    rfl
  | ok rom =>
    have fits : ¬machine.memory.capacity < rom.image.length :=
      Nat.not_lt.mpr (Int.ofNat_le.mp (Memory.fits_of_read found))
    have loaded := run_load area rom.image dialect
    rw [if_neg fits] at loaded
    rw [Machine.serve_loadFile_of_ok found]
    simp only [loadFile, run_get_bind, found]
    rw [run_bind_of_ok loaded]
    rfl

end Loader

namespace Disk

variable {disk : Disk} {path : Path} {image other : List UInt8}

/-- A file with this content can be read at the path. -/
def Holds (disk : Disk) (path : Path) (image : List UInt8) : Prop :=
  path.isPlain = true ∧ disk.read path = .ok image

/-- At the path no file can be read, or one that is empty or too large. -/
inductive LacksProgram (disk : Disk) (path : Path) : Prop where
  | unreadable (nothing : ∀ image, ¬disk.Holds path image)
  | empty (held : disk.Holds path [])
  | tooLarge {image : List UInt8} (held : disk.Holds path image) (larger : 0xE00 < image.length)

theorem Holds.unique (held : disk.Holds path image) (same : disk.Holds path other) :
    image = other := by
  have equal := held.2.symm.trans same.2
  injection equal

/-- What is held at a path is a program unless it is empty or too large. -/
theorem Holds.lacksProgram_iff (held : disk.Holds path image) :
    disk.LacksProgram path ↔ image = [] ∨ 0xE00 < image.length := by
  constructor
  · rintro (nothing | empty | ⟨same, larger⟩)
    · exact absurd held (nothing image)
    · exact .inl (held.unique empty)
    · exact .inr (held.unique same ▸ larger)
  · rintro (rfl | larger)
    · exact .empty held
    · exact .tooLarge held larger

end Disk

namespace Rom

variable {disk : Disk} {path : Disk.Path}

/-- A refusal that is reported as a file that could not be loaded. -/
def Refusal.IsLoadError (refusal : Refusal) : Prop := refusal ≠ .noPath

/-- What a reader of programs finds at a path. -/
inductive Finding (disk : Disk) (path : Disk.Path) : Except Refusal Rom → Prop where
  | noPath (broken : path.isPlain = false) : Finding disk path (.error .noPath)
  | unreadable (plain : path.isPlain = true) {failure : Disk.Failure}
      (failed : disk.read path = .error failure) :
      Finding disk path (.error (.unreadable path failure))
  | empty (held : disk.Holds path []) : Finding disk path (.error (.empty path))
  | tooLarge {image : List UInt8} (held : disk.Holds path image)
      (larger : 0xE00 < image.length) :
      Finding disk path (.error (.tooLarge path image.length 0xE00))
  | program {rom : Rom} (held : disk.Holds path rom.image)
      (program : ¬disk.LacksProgram path) : Finding disk path (.ok rom)

/-- Every file is read with one of these findings. -/
theorem finding_read (disk : Disk) (path : Disk.Path) :
    Finding disk path (read disk path 0xE00) := by
  cases plain : path.isPlain with
  | false =>
    rw [read, plain]
    exact .noPath plain
  | true =>
    cases content : disk.read path with
    | error failure =>
      simp only [read, plain, content, Bool.not_true, Bool.false_eq_true, if_false]
      exact .unreadable plain content
    | ok image =>
      have held : disk.Holds path image := ⟨plain, content⟩
      simp only [read, plain, content, Bool.not_true, Bool.false_eq_true, if_false,
        List.isEmpty_iff]
      by_cases nothing : image = []
      · rw [if_pos nothing]
        exact .empty (nothing ▸ held)
      · rw [if_neg nothing]
        by_cases larger : 0xE00 < image.length
        · have exceeds : (0xE00 : Int) < image.length := Int.ofNat_lt.mpr larger
          rw [if_pos exceeds]
          exact .tooLarge held larger
        · have within : ¬(0xE00 : Int) < image.length := fun more => larger (Int.ofNat_lt.mp more)
          rw [if_neg within]
          refine .program held fun lacks => ?_
          rcases held.lacksProgram_iff.mp lacks with same | more
          · exact nothing same
          · exact larger more

theorem finding_of_read {result : Except Refusal Rom} (found : read disk path 0xE00 = result) :
    Finding disk path result :=
  found ▸ finding_read disk path

/-- What is accepted is held at the path, and is a program. -/
theorem Finding.holds {rom : Rom} (finding : Finding disk path (.ok rom)) :
    disk.Holds path rom.image ∧ ¬disk.LacksProgram path := by
  cases finding with
  | program held program => exact ⟨held, program⟩

/-- Whatever is refused is no program. -/
theorem Finding.lacksProgram {refusal : Refusal} (finding : Finding disk path (.error refusal)) :
    disk.LacksProgram path := by
  cases finding with
  | noPath broken =>
    refine .unreadable fun image held => ?_
    rw [held.1] at broken
    cases broken
  | unreadable plain failed =>
    refine .unreadable fun image held => ?_
    rw [held.2] at failed
    cases failed
  | empty held => exact .empty held
  | tooLarge held larger => exact .tooLarge held larger

/-- A refusal is a load error unless the path has a null character. -/
theorem Finding.isLoadError_iff {refusal : Refusal} (finding : Finding disk path (.error refusal)) :
    refusal.IsLoadError ↔ path.isPlain = true := by
  have reported {other : Refusal} (apart : other ≠ .noPath) (plain : path.isPlain = true) :
      other.IsLoadError ↔ path.isPlain = true := ⟨fun _ => plain, fun _ => apart⟩
  cases finding with
  | noPath broken =>
    rw [broken]
    exact ⟨fun reported => absurd rfl reported, nofun⟩
  | unreadable plain failed => exact reported nofun plain
  | empty held => exact reported nofun held.1
  | tooLarge held larger => exact reported nofun held.1

end Rom

namespace Reply

/-- The reply to a request to load an image. One that is too large is refused, as too large,
and leaves the machine alone. Any other is accepted. -/
structure LoadsImage (reply : Reply) (machine : Machine) (image : List UInt8) : Prop where
  refused : ∀ refusal, reply.result = .error refusal ↔
    0xE00 < image.length ∧ refusal = .tooLarge ⟨image.length, 0xE00⟩
  untouched : 0xE00 < image.length → reply.machine = machine
  loaded : image.length ≤ 0xE00 →
    reply.result = .ok .done ∧ reply.machine.memory.Contains image

/-- The reply to a request to load a file. What is no program is refused by the reader, never
as an image that is too large, and leaves the machine alone. Any other file is accepted. -/
structure LoadsFile (reply : Reply) (machine : Machine) (disk : Disk) (path : Disk.Path) :
    Prop where
  apart : ∀ refusal, reply.result ≠ .error (.tooLarge refusal)
  refused : disk.LacksProgram path →
    reply.machine = machine ∧ ∃ refusal, reply.result = .error (.noProgram refusal)
  loaded : ∀ image, disk.Holds path image → ¬disk.LacksProgram path →
    reply.machine.memory.Contains image ∧
      ∃ rom, rom.image = image ∧ reply.result = .ok (.program rom) ∧ reply.machine.rom = some rom

/-- A file that could not be loaded is reported exactly where there is no program. -/
def ReportsFile (reply : Reply) (disk : Disk) (path : Disk.Path) : Prop :=
  (∃ refusal, reply.result = .error (.noProgram refusal) ∧ refusal.IsLoadError) ↔
    disk.LacksProgram path

end Reply

namespace Machine

variable {machine : Machine}

/-- A machine with any past: it was built, and requests have been served by it and sessions
played on it since. -/
inductive Used : Machine → Prop where
  | built {machine : Machine} (built : machine.IsBuilt) : Used machine
  | served {machine : Machine} (used : Used machine) (request : Request) :
      Used (machine.serveOne request)
  | played {machine : Machine} (used : Used machine) (limits : Session.Limits) :
      Used (Session.run limits machine).machine

/-- Whatever its past is, a machine is well formed. -/
theorem Used.wellFormed (used : machine.Used) : machine.WellFormed := by
  induction used with
  | built built => exact built.wellFormed
  | served _ request inductionHypothesis => exact inductionHypothesis.serveOne request
  | played _ limits inductionHypothesis =>
    exact Session.run_keeps WellFormed (fun _ => WellFormed.afterStep)
      (fun _ => WellFormed.tick) (fun _ _ _ formed _ => formed.serveOne .skip)
      inductionHypothesis limits

/-- The program area of a well-formed machine has the standard size. -/
theorem WellFormed.room (formed : machine.WellFormed) :
    Memory.programStart ≤ machine.memory.size ∧ machine.memory.capacity = 0xE00 := by
  rw [Memory.capacity, formed.memorySize]
  decide

/-- The reader is asked for a program that fits into the standard program area. -/
theorem WellFormed.finding (formed : machine.WellFormed) (disk : Disk) (path : Disk.Path) :
    Rom.Finding disk path (Rom.read disk path machine.memory.capacity) := by
  rw [formed.room.2]
  exact Rom.finding_read disk path

/-- An accepted image fills the program area. -/
theorem WellFormed.contains_start (formed : machine.WellFormed) {image : List UInt8}
    (fits : image.length ≤ 0xE00) (dialect : Option Dialect) :
    (machine.start (machine.memory.install image) dialect).memory.Contains image := by
  obtain ⟨beeper, known⟩ := start_eq machine (machine.memory.install image) dialect
  have memory : (machine.start (machine.memory.install image) dialect).memory =
      machine.memory.install image := by
    rw [known]
  rw [memory]
  exact Memory.contains_install formed.memorySize (formed.room.2 ▸ fits)

/-- A well-formed machine loads an image, or refuses it, as a whole. -/
theorem WellFormed.loadsImage (formed : machine.WellFormed) (image : List UInt8)
    (dialect : Option Dialect) :
    (machine.serve (.load image dialect)).LoadsImage machine image := by
  obtain ⟨area, room⟩ := formed.room
  by_cases larger : 0xE00 < image.length
  · have refused : machine.serve (.load image dialect) =
        .refused machine (.tooLarge ⟨image.length, 0xE00⟩) := by
      rw [← Loader.reply_load area, Loader.run_load area, room, if_pos larger]
      rfl
    rw [refused]
    refine ⟨fun refusal => ?_, fun _ => rfl, fun fits => absurd larger (Nat.not_lt.mpr fits)⟩
    constructor
    · intro same
      injection same with same
      exact ⟨larger, same.symm⟩
    · rintro ⟨_, rfl⟩
      rfl
  · have fits := Nat.not_lt.mp larger
    rw [serve_load_of_fits (room.symm ▸ fits)]
    refine ⟨fun refusal => ?_, fun more => absurd more larger, fun _ => ⟨rfl, ?_⟩⟩
    · exact ⟨nofun, fun ⟨more, _⟩ => absurd more larger⟩
    · exact formed.contains_start fits dialect

/-- A well-formed machine loads a file, or refuses it, as a whole. -/
theorem WellFormed.loadsFile (formed : machine.WellFormed) (disk : Disk) (path : Disk.Path)
    (dialect : Option Dialect) :
    (machine.serve (.loadFile disk path dialect)).LoadsFile machine disk path := by
  have finding := formed.finding disk path
  cases found : Rom.read disk path machine.memory.capacity with
  | error refusal =>
    rw [found] at finding
    rw [serve_loadFile_of_error found]
    refine ⟨nofun, fun _ => ⟨rfl, refusal, rfl⟩, fun _ _ program => ?_⟩
    exact absurd finding.lacksProgram program
  | ok rom =>
    rw [found] at finding
    have fits : rom.image.length ≤ 0xE00 := by
      rw [← formed.room.2]
      exact Int.ofNat_le.mp (Memory.fits_of_read found)
    rw [serve_loadFile_of_ok found]
    cases finding with
    | program held program =>
      refine ⟨nofun, fun lacks => absurd lacks program, fun image same _ => ?_⟩
      cases held.unique same
      exact ⟨formed.contains_start fits dialect, rom, rfl, rfl, rfl⟩

/-- Where there is no program, a well-formed machine says so, unless the path has a null
character. -/
theorem WellFormed.reportsFile (formed : machine.WellFormed) (disk : Disk) (path : Disk.Path)
    (dialect : Option Dialect) :
    (machine.serve (.loadFile disk path dialect)).ReportsFile disk path ↔ path.isPlain = true := by
  have finding := formed.finding disk path
  cases found : Rom.read disk path machine.memory.capacity with
  | error refusal =>
    rw [found] at finding
    rw [serve_loadFile_of_error found, ← finding.isLoadError_iff]
    constructor
    · intro reports
      obtain ⟨other, same, isLoadError⟩ := reports.mpr finding.lacksProgram
      cases same
      exact isLoadError
    · intro isLoadError
      exact ⟨fun _ => finding.lacksProgram, fun _ => ⟨refusal, rfl, isLoadError⟩⟩
  | ok rom =>
    rw [found] at finding
    rw [serve_loadFile_of_ok found]
    cases finding with
    | program held program =>
      exact ⟨fun _ => held.1, fun _ => ⟨nofun, fun lacks => absurd lacks program⟩⟩

/-- Whatever its past is, a machine that is asked to load does as if it looked and wrote part
by part. An image is refused exactly if it is larger than the program area, as too large. A
file is refused exactly if it cannot be read, is empty or is too large, and always by the
reader. After any refusal the machine is the one it was, in a new dialect as well; after any
success the image with zeros behind it fills the program area. A refused file is reported as
one that could not be loaded if its path has no null character, and only then. -/
theorem Used.reportsFile_iff (used : machine.Used) (dialect : Option Dialect) :
    (∀ image,
      Loader.reply ((Loader.load image dialect).run machine) =
          machine.serve (.load image dialect) ∧
        (machine.serve (.load image dialect)).LoadsImage machine image) ∧
      ∀ disk path,
        Loader.reply ((Loader.loadFile disk path dialect).run machine) =
            machine.serve (.loadFile disk path dialect) ∧
          (machine.serve (.loadFile disk path dialect)).LoadsFile machine disk path ∧
          ((machine.serve (.loadFile disk path dialect)).ReportsFile disk path ↔
            path.isPlain = true) := by
  have formed := used.wellFormed
  obtain ⟨area, _⟩ := formed.room
  constructor
  · intro image
    exact ⟨Loader.reply_load area image dialect, formed.loadsImage image dialect⟩
  · intro disk path
    exact ⟨Loader.reply_loadFile area disk path dialect, formed.loadsFile disk path dialect,
      formed.reportsFile disk path dialect⟩

/-- A disk with one file, which holds a program. -/
def programDisk : Disk :=
  ⟨["work"], [(["work"], .folder), (["work", "loop.ch8"], .file [0x12, 0x00])]⟩

/-- A machine that runs a program refuses an image that is one byte too large, finds that a
file is missing, and accepts one that is there. -/
theorem reportsFile_of_programDisk :
    let machine := (ofRate 700 .chip8 0 .mute).serveOne (.load [0x60, 0x05, 0x12, 0x02] none)
    let tooLarge := machine.serve (.load (List.replicate 0xE01 0) (some .schip))
    let missing := machine.serve (.loadFile programDisk ⟨0, ["gone.ch8"]⟩ (some .schip))
    let found := machine.serve (.loadFile programDisk ⟨0, ["loop.ch8"]⟩ (some .schip))
    tooLarge.result = .error (.tooLarge ⟨0xE01, 0xE00⟩) ∧ tooLarge.machine = machine ∧
      missing.ReportsFile programDisk ⟨0, ["gone.ch8"]⟩ ∧ missing.machine = machine ∧
      found.machine.memory.Contains [0x12, 0x00] := by
  intro machine tooLarge missing found
  have built : (ofRate 700 .chip8 0 .mute).IsBuilt := isBuilt_mute (by decide) .chip8 0
  have used : machine.Used := (Used.built built).served _
  clear_value machine
  obtain ⟨images, files⟩ := used.reportsFile_iff (some .schip)
  have refused (image : List UInt8) (length : image.length = 0xE01) :
      (machine.serve (.load image (some .schip))).result = .error (.tooLarge ⟨0xE01, 0xE00⟩) ∧
        (machine.serve (.load image (some .schip))).machine = machine := by
    obtain ⟨_, answer⟩ := images image
    have exceeds : 0xE00 < image.length := by omega
    have result := (answer.refused _).mpr ⟨exceeds, rfl⟩
    rw [length] at result
    exact ⟨result, answer.untouched exceeds⟩
  obtain ⟨result, untouched⟩ := refused (List.replicate 0xE01 0) List.length_replicate
  have nothing : programDisk.LacksProgram ⟨0, ["gone.ch8"]⟩ := by
    refine .unreadable fun image held => ?_
    have vacant : programDisk.read ⟨0, ["gone.ch8"]⟩ = .error .missing := rfl
    cases vacant.symm.trans held.2
  have held : programDisk.Holds ⟨0, ["loop.ch8"]⟩ [0x12, 0x00] := ⟨by decide +kernel, rfl⟩
  have program : ¬programDisk.LacksProgram ⟨0, ["loop.ch8"]⟩ := by
    rw [held.lacksProgram_iff]
    decide
  obtain ⟨_, absent, reports⟩ := files programDisk ⟨0, ["gone.ch8"]⟩
  obtain ⟨_, present, _⟩ := files programDisk ⟨0, ["loop.ch8"]⟩
  refine ⟨result, untouched, reports.mpr (by decide +kernel), (absent.refused nothing).1, ?_⟩
  simp only [found]
  obtain ⟨contains, _⟩ := present.loaded _ held program
  exact contains

/-- A path with a null character holds no file, and is not reported as one that could not be
loaded. -/
theorem not_reportsFile_of_nullCharacter :
    let machine := ofRate 700 .chip8 0 .mute
    let path : Disk.Path := ⟨0, [String.ofList ['a', Char.ofNat 0, 'b']]⟩
    let reply := machine.serve (.loadFile programDisk path none)
    machine.Used ∧ (∀ image, ¬programDisk.Holds path image) ∧
      reply.result = .error (.noProgram .noPath) ∧ ¬reply.ReportsFile programDisk path := by
  intro machine path reply
  have used : machine.Used := .built (isBuilt_mute (by decide) .chip8 0)
  have broken : path.isPlain = false := by decide +kernel
  have nowhere : Rom.read programDisk path machine.memory.capacity = .error .noPath := by
    rw [Rom.read, broken]
    rfl
  refine ⟨used, fun image held => ?_, ?_, ?_⟩
  · cases broken.symm.trans held.1
  · simp only [reply, serve_loadFile_of_error nowhere]
    rfl
  · rw [used.wellFormed.reportsFile programDisk path none, broken]
    exact Bool.false_ne_true

end Machine

end Chip8
