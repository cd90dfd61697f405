import Chip8.Text.Blank

/-!
# Dialects

Interpreters of the instruction set disagree on some operations. A dialect
settles each disagreement by a switch; it is chosen with the program and stays
while the program runs. The defaults are those of the first interpreter.
-/

namespace Chip8

/-- One switch for each disagreement. -/
structure Dialect where
  /-- The shifts take their operand from VY and not from VX. -/
  shiftUsesVy : Bool
  /-- The jump with an offset adds VX, for the first digit of its address, and not V0. -/
  jumpWithOffsetUsesVx : Bool
  /-- Storing and loading registers leave the index behind the block. -/
  storeLoadIncrementsIndex : Bool
  /-- Sprite rows below the bottom edge are dropped and do not wrap. -/
  clipSpritesVertically : Bool
  /-- Sprite columns beyond the right edge are dropped and do not wrap. -/
  clipSpritesHorizontally : Bool
  /-- The bitwise operations lower the flag. -/
  logicResetsVf : Bool
  /-- The extended set with the larger screen is available. -/
  extendedDisplay : Bool
deriving DecidableEq, Repr

namespace Dialect

/-- The first interpreter. -/
def chip8 : Dialect where
  shiftUsesVy := true
  jumpWithOffsetUsesVx := false
  storeLoadIncrementsIndex := true
  clipSpritesVertically := true
  clipSpritesHorizontally := false
  logicResetsVf := true
  extendedDisplay := false

/-- The interpreter for pocket calculators. -/
def chip48 : Dialect :=
  { chip8 with
    shiftUsesVy := false
    jumpWithOffsetUsesVx := true
    storeLoadIncrementsIndex := false
    logicResetsVf := false }

/-- The calculators' interpreter with the larger screen. -/
def schip : Dialect := { chip48 with extendedDisplay := true }

/-- The presets by name, in the order in which they are listed. -/
def presets : List (String × Dialect) := [("chip48", chip48), ("chip8", chip8), ("schip", schip)]

def presetNames : List String := presets.map Prod.fst

/-- A switch by itself. -/
inductive Switch where
  | shiftUsesVy
  | jumpWithOffsetUsesVx
  | storeLoadIncrementsIndex
  | clipSpritesVertically
  | clipSpritesHorizontally
  | logicResetsVf
  | extendedDisplay
deriving DecidableEq, Repr

namespace Switch

/-- All switches, in the order of the record. -/
def all : List Switch := [
  shiftUsesVy, jumpWithOffsetUsesVx, storeLoadIncrementsIndex, clipSpritesVertically,
  clipSpritesHorizontally, logicResetsVf, extendedDisplay]

/-- The name by which a switch is set from outside. -/
def name : Switch → String
  | shiftUsesVy => "shift_uses_vy"
  | jumpWithOffsetUsesVx => "jump_with_offset_uses_vx"
  | storeLoadIncrementsIndex => "store_load_increments_index"
  | clipSpritesVertically => "clip_sprites_vertically"
  | clipSpritesHorizontally => "clip_sprites_horizontally"
  | logicResetsVf => "logic_resets_vf"
  | extendedDisplay => "extended_display"

/-- The switch of a name. -/
def ofName? (name : String) : Option Switch := all.find? (·.name == name)

end Switch

/-- The position of a switch. -/
def get (dialect : Dialect) : Switch → Bool
  | .shiftUsesVy => dialect.shiftUsesVy
  | .jumpWithOffsetUsesVx => dialect.jumpWithOffsetUsesVx
  | .storeLoadIncrementsIndex => dialect.storeLoadIncrementsIndex
  | .clipSpritesVertically => dialect.clipSpritesVertically
  | .clipSpritesHorizontally => dialect.clipSpritesHorizontally
  | .logicResetsVf => dialect.logicResetsVf
  | .extendedDisplay => dialect.extendedDisplay

/-- Put a switch into a position. -/
def set (dialect : Dialect) (switch : Switch) (on : Bool) : Dialect :=
  match switch with
  | .shiftUsesVy => { dialect with shiftUsesVy := on }
  | .jumpWithOffsetUsesVx => { dialect with jumpWithOffsetUsesVx := on }
  | .storeLoadIncrementsIndex => { dialect with storeLoadIncrementsIndex := on }
  | .clipSpritesVertically => { dialect with clipSpritesVertically := on }
  | .clipSpritesHorizontally => { dialect with clipSpritesHorizontally := on }
  | .logicResetsVf => { dialect with logicResetsVf := on }
  | .extendedDisplay => { dialect with extendedDisplay := on }

/-- Why a description names no dialect. -/
inductive Misuse where
  | unknownPreset (name : String)
  | unknownSwitch (name : String)
  | unknownPosition (switch : String) (position : String)
deriving DecidableEq, Repr

def Misuse.message : Misuse → String
  | unknownPreset name => "unknown quirk preset: " ++ name
  | unknownSwitch name => "unknown quirk '" ++ name ++ "'"
  | unknownPosition switch position =>
    "invalid value for quirk '" ++ switch ++ "': " ++ position

/-- The preset of a name; outer blanks and letter case do not matter. -/
def ofPreset? (name : String) : Except Misuse Dialect :=
  let key := String.ofList ((Text.trim name.toList).map Char.toLower)
  match presets.lookup key with
  | some dialect => .ok dialect
  | none => .error (.unknownPreset name)

/-- The positions of a switch as words. -/
def positions : List (String × Bool) := [
  ("1", true), ("0", false), ("true", true), ("false", false), ("on", true), ("off", false)]

/-- Read one override: the name of a switch, alone to turn it on, or followed by
an equals sign and a position. Hyphens in the name count as underscores. -/
def readOverride (item : String) : Except Misuse (Switch × Bool) :=
  let text := item.toList
  let key := text.takeWhile (· != '=')
  let name := String.ofList ((Text.trim key).map fun c => if c = '-' then '_' else c)
  match Switch.ofName? name with
  | none => .error (.unknownSwitch name)
  | some switch =>
    match text.drop key.length with
    | [] => .ok (switch, true)
    | _ :: raw =>
      let word := String.ofList ((Text.trim raw).map Char.toLower)
      match positions.lookup word with
      | some on => .ok (switch, on)
      | none => .error (.unknownPosition name (String.ofList raw))

/-- Apply overrides from first to last, so that the last one for a switch wins. -/
def override (dialect : Dialect) : List String → Except Misuse Dialect
  | [] => .ok dialect
  | item :: rest =>
    match readOverride item with
    | .ok (switch, on) => (dialect.set switch on).override rest
    | .error misuse => .error misuse

/-- A preset with overrides. -/
def resolve (preset : String) (overrides : List String) : Except Misuse Dialect :=
  match ofPreset? preset with
  | .ok dialect => dialect.override overrides
  | .error misuse => .error misuse

end Dialect

end Chip8
