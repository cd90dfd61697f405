import Chip8.Disk
import Chip8.Memory
import Chip8.Text.Capital

/-!
# Program images

A program image is the bare content of a file; it is installed as it is. A file
is refused if it cannot be read, if it is empty, or if the program area is too
small for it.
-/

namespace Chip8

/-- A program image and where it comes from. -/
structure Rom where
  image : List UInt8
  name : String
  path : Disk.Path
deriving DecidableEq, Repr

namespace Rom

/-- The number of bytes. -/
def size (rom : Rom) : Nat := rom.image.length

/-- An image does not fit into the program area. -/
structure TooLarge where
  size : Nat
  capacity : Int
deriving DecidableEq, Repr

def TooLarge.message (refusal : TooLarge) : String :=
  "ROM is " ++ toString refusal.size ++ " bytes, program area holds " ++ toString refusal.capacity

/-- Install an image that fits. One that does not fit changes nothing. -/
def install (memory : Memory) (image : List UInt8) : Except TooLarge Memory :=
  if memory.capacity < image.length then .error ⟨image.length, memory.capacity⟩
  else .ok (memory.install image)

/-- Why a file is not a program image. -/
inductive Refusal where
  /-- No file can have such a path. -/
  | noPath
  | unreadable (path : Disk.Path) (failure : Disk.Failure)
  | empty (path : Disk.Path)
  | tooLarge (path : Disk.Path) (size : Nat) (capacity : Int)
deriving DecidableEq, Repr

def Refusal.message : Refusal → String
  | noPath => "embedded null byte"
  | unreadable path failure => "cannot read " ++ path.text ++ ": " ++ failure.report path
  | empty path => path.text ++ " is empty"
  | tooLarge path size capacity =>
    path.text ++ " is " ++ toString size ++ " bytes, program area holds " ++ toString capacity

/-- Read a program image for a program area of the given capacity. It is named
in capitals after its file. -/
def read (disk : Disk) (path : Disk.Path) (capacity : Int) : Except Refusal Rom :=
  if !path.isPlain then .error .noPath
  else
    match disk.read path with
    | .error failure => .error (.unreadable path failure)
    | .ok image =>
      if image.isEmpty then .error (.empty path)
      else if capacity < image.length then .error (.tooLarge path image.length capacity)
      else .ok ⟨image, Text.capitals path.stem, path⟩

/-- The variable of the environment that may name a program. -/
def variableName : String := "CHIP8EMU_ROM"

/-- The path of a session's program: the one given, or else the one in the
environment. An empty text gives no path. The environment is not asked once a
path is given, so that a mistyped path fails. -/
def choosePath (given environment : Option String) : Option Disk.Path :=
  ((given.filter (· != "")).or (environment.filter (· != ""))).map Disk.Path.ofText

end Rom

end Chip8
