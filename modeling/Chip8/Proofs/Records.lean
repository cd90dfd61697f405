import Chip8.Proofs.Restarting

/-!
# What is known of the loaded program

A machine keeps a record of the program file that it has loaded: its content, its name and
where it was found. An image that is handed over without a file is loaded all the same, and
leaves the record alone, as every refusal does.

The record therefore describes the program that is loaded exactly until an image is loaded
that is not the one recorded.
-/

namespace Chip8

/-- Requests for a program file. -/
def Request.readsFile : Request → Bool
  | .loadFile .. => true
  | _ => false

/-- Requests that load a program, with a file or without one. -/
def Request.loads : Request → Bool
  | .load .. => true
  | request => request.readsFile

namespace Machine

variable {machine start : Machine} {latest : Option (List UInt8)}

/-- The image that a request installs, if it is granted. -/
def installs? (machine : Machine) (request : Request) : Option (List UInt8) :=
  match request, (machine.serve request).result with
  | .load image _, .ok _ => some image
  | .loadFile .., .ok (.program rom) => some rom.image
  | _, _ => none

/-- Serve one request, and keep the image that was installed last. -/
def installing (known : Machine × Option (List UInt8)) (request : Request) :
    Machine × Option (List UInt8) :=
  (known.1.serveOne request, (known.1.installs? request).or known.2)

/-- The image that was installed last along a history, if there was one. -/
def latest? (start : Machine) (requests : List Request) : Option (List UInt8) :=
  (requests.foldl installing (start, none)).2

theorem latest_concat (start : Machine) (requests : List Request) (request : Request) :
    start.latest? (requests ++ [request]) =
      ((start.serveAll requests).installs? request).or (start.latest? requests) := by
  have reached (known : Machine × Option (List UInt8)) :
      (requests.foldl installing known).1 = known.1.serveAll requests := by
    induction requests generalizing known with
    | nil => rfl
    | cons first rest inductionHypothesis => exact inductionHypothesis (installing known first)
  rw [latest?, List.foldl_append]
  change ((requests.foldl installing (start, none)).1.installs? request).or _ = _
  rw [reached]
  rfl

/-- The record is empty, or holds this image and its size. -/
def Describes (machine : Machine) (latest : Option (List UInt8)) : Prop :=
  machine.rom = none ∨
    ∃ rom, machine.rom = some rom ∧ latest = some rom.image ∧ rom.size = rom.image.length

/-- The request loads an image that is not the one recorded. -/
def Misleads (machine : Machine) (request : Request) : Prop :=
  ∃ image dialect rom, request = .load image dialect ∧
    (machine.serve request).result = .ok .done ∧ machine.rom = some rom ∧ rom.image ≠ image

/-- A request for a file alone writes the record. -/
theorem serveOne_rom {request : Request} (other : request.readsFile = false) :
    (machine.serveOne request).rom = machine.rom := by
  by_cases plays : request.plays = true
  · exact congrArg Setting.rom (serveOne_setting plays)
  have adjusted (next : Machine) : next.adjustBeeper.rom = next.rom := by
    rw [adjustBeeper_eq]
  cases request
  case loadFile => cases other
  case load image dialect =>
    rw [serveOne_load]
    split
    · rfl
    · obtain ⟨beeper, started⟩ := start_eq machine (machine.memory.install image) dialect
      rw [started]
      rfl
  case reset => exact serveOne_reset machine ▸ adjusted machine.restarted
  case powerOn => exact serveOne_powerOn machine ▸ adjusted machine.restarted
  case powerOff => rfl
  case pause => exact serveOne_pause machine ▸ adjusted _
  case resume => exact serveOne_resume machine ▸ adjusted _
  case setStatus code =>
    rw [serveOne_setStatus]
    split
    · exact adjusted _
    · rfl
  case setRate rate =>
    rw [serveOne_setRate]
    split <;> rfl
  case setKey key pressed =>
    rw [serveOne_setKey]
    split <;> rfl
  case step | skip | tick | runFrame | emulate | clearDelay | clearSound =>
    exact absurd rfl plays

/-- A request other than to load installs nothing. -/
theorem installs_eq_none {request : Request} (other : request.loads = false) :
    machine.installs? request = none := by
  cases request
  case load | loadFile => cases other
  all_goals rfl

/-- What is recorded is the image. Its size is told from it. -/
theorem describes_iff :
    machine.Describes latest ↔ ∀ rom, machine.rom = some rom → latest = some rom.image := by
  constructor
  · rintro (nothing | ⟨rom, recorded, same, _⟩) other found
    · cases nothing.symm.trans found
    · cases recorded.symm.trans found
      exact same
  · intro same
    cases recorded : machine.rom with
    | none => exact .inl recorded
    | some rom => exact .inr ⟨rom, recorded, same rom recorded, rfl⟩

/-- An image that is handed over installs itself, or is refused and leaves the machine alone. -/
theorem load_cases (machine : Machine) (image : List UInt8) (dialect : Option Dialect) :
    ((machine.serve (.load image dialect)).result = .ok .done ∧
        machine.installs? (.load image dialect) = some image) ∨
      ((machine.serve (.load image dialect)).result ≠ .ok .done ∧
        machine.installs? (.load image dialect) = none) := by
  by_cases larger : machine.memory.capacity < image.length
  · have refused : machine.serve (.load image dialect) =
        .refused machine (.tooLarge ⟨image.length, machine.memory.capacity⟩) := by
      simp only [serve, load, Rom.install, if_pos larger]
      rfl
    refine .inr ⟨?_, ?_⟩
    · rw [refused]
      intro granted
      cases granted
    · simp only [installs?, refused, Reply.refused]
  · have granted := serve_load_of_fits (Nat.not_lt.mp larger) dialect
    refine .inl ⟨by rw [granted]; rfl, ?_⟩
    simp only [installs?, granted, Reply.done]

/-- Nothing but an image that is handed over can mislead. -/
theorem misleads_load_iff {image : List UInt8} {dialect : Option Dialect} :
    machine.Misleads (.load image dialect) ↔
      (machine.serve (.load image dialect)).result = .ok .done ∧
        ∃ rom, machine.rom = some rom ∧ rom.image ≠ image := by
  constructor
  · rintro ⟨_, _, rom, same, granted, recorded, differs⟩
    cases same
    exact ⟨granted, rom, recorded, differs⟩
  · rintro ⟨granted, rom, recorded, differs⟩
    exact ⟨image, dialect, rom, rfl, granted, recorded, differs⟩

theorem not_misleads {request : Request} (file : request.loads = request.readsFile) :
    ¬machine.Misleads request := by
  rintro ⟨image, dialect, _, rfl, _⟩
  cases file

/-- A request keeps the record true, unless it misleads. -/
theorem Describes.serveOne_iff (describes : machine.Describes latest) (request : Request) :
    (machine.serveOne request).Describes ((machine.installs? request).or latest) ↔
      ¬machine.Misleads request := by
  have before := describes_iff.mp describes
  rw [describes_iff]
  cases request
  case load image dialect =>
    rw [misleads_load_iff, serveOne_rom rfl]
    rcases load_cases machine image dialect with ⟨granted, installed⟩ | ⟨refused, nothing⟩
    · rw [installed, Option.some_or]
      constructor
      · rintro same ⟨_, rom, recorded, differs⟩
        exact differs (Option.some.inj (same rom recorded)).symm
      · intro leads rom recorded
        have held : rom.image = image :=
          Decidable.not_not.mp fun differs => leads ⟨granted, rom, recorded, differs⟩
        exact congrArg some held.symm
    · rw [nothing, Option.none_or]
      exact ⟨fun _ ⟨granted, _⟩ => refused granted, fun _ => before⟩
  case loadFile disk path dialect =>
    refine ⟨fun _ => not_misleads rfl, fun _ => ?_⟩
    cases found : Rom.read disk path machine.memory.capacity with
    | ok rom =>
      have served := serve_loadFile_of_ok found dialect
      simp only [installs?, serveOne, served, Option.some_or]
      rintro other recorded
      cases recorded
      rfl
    | error refusal =>
      have refused := serve_loadFile_of_error found dialect
      simp only [installs?, serveOne, refused, Reply.refused, Option.none_or]
      exact before
  all_goals
    rw [installs_eq_none rfl, serveOne_rom rfl, Option.none_or]
    exact ⟨fun _ => not_misleads rfl, fun _ => before⟩

/-- A machine that was built has no record. -/
theorem IsBuilt.describes (built : start.IsBuilt) : start.Describes (start.latest? []) := by
  refine .inl ?_
  rw [built.parts]
  rfl

/-- Whatever is asked of a machine that was built, its record is at all times empty or the image
that was installed last, with its size, exactly if no image is ever loaded without a file that
is another one than the image recorded. -/
theorem IsBuilt.records_iff (built : start.IsBuilt) (requests : List Request) :
    (∀ earlier later, requests = earlier ++ later →
        (start.serveAll earlier).Describes (start.latest? earlier)) ↔
      ∀ earlier request later, requests = earlier ++ request :: later →
        ¬(start.serveAll earlier).Misleads request := by
  refine always_iff_never built.describes (fun earlier request here => ?_) requests
  rw [serveAll_append, latest_concat]
  exact here.serveOne_iff request

/-- The program on the disk with one file is loaded. -/
def loadLoop : Request := .loadFile programDisk ⟨0, ["loop.ch8"]⟩ none

theorem serveOne_loadLoop :
    ∃ rom, rom.image = [0x12, 0x00] ∧
      ((ofRate 700 .chip8 0 .mute).serveOne loadLoop).rom = some rom := by
  have built : (ofRate 700 .chip8 0 .mute).IsBuilt := isBuilt_mute (by decide) .chip8 0
  have held : programDisk.Holds ⟨0, ["loop.ch8"]⟩ [0x12, 0x00] := ⟨by decide +kernel, rfl⟩
  have program : ¬programDisk.LacksProgram ⟨0, ["loop.ch8"]⟩ := by
    rw [held.lacksProgram_iff]
    decide
  obtain ⟨_, rom, image, _, recorded⟩ :=
    (built.wellFormed.loadsFile programDisk _ none).loaded _ held program
  refine ⟨rom, image, ?_⟩
  rw [serveOne, loadLoop]
  exact recorded

/-- A file that is loaded and played is described. -/
theorem records_of_loadLoop :
    ((ofRate 700 .chip8 0 .mute).serveAll [loadLoop, .step]).Describes
      ((ofRate 700 .chip8 0 .mute).latest? [loadLoop, .step]) := by
  have built : (ofRate 700 .chip8 0 .mute).IsBuilt := isBuilt_mute (by decide) .chip8 0
  refine (built.records_iff [loadLoop, .step]).mpr ?_ [loadLoop, .step] [] rfl
  intro earlier request later split
  have member : request ∈ [loadLoop, .step] := by
    rw [split]
    exact List.mem_append_right _ List.mem_cons_self
  rcases List.mem_cons.mp member with rfl | member
  · exact not_misleads rfl
  · obtain rfl := List.mem_singleton.mp member
    exact not_misleads rfl

/-- An image that is loaded after a program with a record, and is another one, leaves the record
behind. -/
theorem leaves_record {request : Request} {image : List UInt8} {rom : Rom}
    (recorded : (start.serveOne request).rom = some rom) (differs : rom.image ≠ image)
    (fits : image.length ≤ (start.serveOne request).memory.capacity) :
    let requests := [request, .load image none]
    start.latest? requests = some image ∧ (start.serveAll requests).rom = some rom ∧
      ¬(start.serveAll requests).Describes (start.latest? requests) := by
  intro requests
  have latest : start.latest? requests = some image := by
    change start.latest? ([request] ++ [.load image none]) = _
    rw [latest_concat, serveAll_cons, serveAll_nil]
    simp only [installs?, serve_load_of_fits fits, Reply.done, Option.some_or]
  have kept : (start.serveAll requests).rom = some rom := by
    rw [serveAll_cons, serveAll_cons, serveAll_nil, serveOne_rom rfl]
    exact recorded
  refine ⟨latest, kept, fun describes => differs ?_⟩
  have same := describes_iff.mp describes rom kept
  rw [latest] at same
  exact (Option.some.inj same).symm

/-- The record goes on naming the file. -/
theorem not_records_of_load :
    ∃ rom, rom.image = [0x12, 0x00] ∧
      Reachable ((ofRate 700 .chip8 0 .mute).serveAll [loadLoop, .load [0x00, 0xE0] none]) ∧
      (ofRate 700 .chip8 0 .mute).latest? [loadLoop, .load [0x00, 0xE0] none] =
        some [0x00, 0xE0] ∧
      ((ofRate 700 .chip8 0 .mute).serveAll [loadLoop, .load [0x00, 0xE0] none]).rom = some rom ∧
      ¬((ofRate 700 .chip8 0 .mute).serveAll [loadLoop, .load [0x00, 0xE0] none]).Describes
        ((ofRate 700 .chip8 0 .mute).latest? [loadLoop, .load [0x00, 0xE0] none]) := by
  have built : (ofRate 700 .chip8 0 .mute).IsBuilt := isBuilt_mute (by decide) .chip8 0
  have reached := (Reachable.built built).serveAll [loadLoop, .load [0x00, 0xE0] none]
  have room := (built.wellFormed.serveOne loadLoop).room.2
  have fits : ([0x00, 0xE0] : List UInt8).length ≤
      ((ofRate 700 .chip8 0 .mute).serveOne loadLoop).memory.capacity := by
    rw [room]
    decide
  obtain ⟨rom, image, recorded⟩ := serveOne_loadLoop
  have differs : rom.image ≠ [0x00, 0xE0] := by
    rw [image]
    decide
  exact ⟨rom, image, reached, leaves_record recorded differs fits⟩

end Machine

end Chip8
