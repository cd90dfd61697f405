import Chip8.Disk.Path
import Chip8.Text.Quoted

/-!
# Disks

The files that a session reads and writes: files and directories below a root,
one of which is the working directory. Paths are followed component by
component, and each one but the last has to lead to a directory. The parent of
the root is the root itself. Components and whole paths have a greatest length,
and no path holds a null character.
-/

namespace Chip8

/-- What a name stands for. -/
inductive Disk.Entry where
  | file (content : List UInt8)
  | folder
deriving DecidableEq, Repr

/-- The chain of components that leads from the root to the working directory,
and the entries by their chains. -/
structure Disk where
  home : List String
  entries : List (List String × Disk.Entry)
deriving DecidableEq, Repr

namespace Disk

/-- Why a path cannot be used. -/
inductive Failure where
  | missing
  | notFolder
  | isFolder
  | tooLong
deriving DecidableEq, Repr

/-- The number of a failure in its report. -/
def Failure.number : Failure → Nat
  | missing => 2
  | notFolder => 20
  | isFolder => 21
  | tooLong => 36

/-- What a failure is called in its report. -/
def Failure.reason : Failure → String
  | missing => "No such file or directory"
  | notFolder => "Not a directory"
  | isFolder => "Is a directory"
  | tooLong => "File name too long"

/-- The report of a failure on a path. -/
def Failure.report (failure : Failure) (path : Path) : String :=
  "[Errno " ++ toString failure.number ++ "] " ++ failure.reason ++ ": " ++ Text.quoted path.text

/-- What stands at a chain of components. -/
def entry? (disk : Disk) (chain : List String) : Option Entry :=
  if chain.isEmpty then some .folder else disk.entries.lookup chain

/-- Put an entry in place of the one at its chain. -/
def put (disk : Disk) (chain : List String) (entry : Entry) : Disk :=
  { disk with entries := disk.entries.filter (fun old => old.1 != chain) ++ [(chain, entry)] }

/-- Make a directory where nothing stands. -/
def makeFolder (disk : Disk) (chain : List String) : Disk :=
  if (disk.entry? chain).isSome then disk else disk.put chain .folder

/-- Make the directories that lead to a chain of components. -/
def makeWay (disk : Disk) (chain : List String) : Disk :=
  (List.range chain.length).foldl (fun made length => made.makeFolder (chain.take length)) disk

/-- A disk with nothing but its working directory. -/
def bare (home : List String) : Disk := (makeWay ⟨home, []⟩ home).makeFolder home

/-- Where a component leads from a chain. -/
def extend (chain : List String) (name : String) : List String :=
  if name = ".." then chain.dropLast else chain ++ [name]

/-- Where a path starts. -/
def origin (disk : Disk) (path : Path) : List String := if path.slashes = 0 then disk.home else []

/-- The chain that a path leads to, if all of its components lead on. -/
def chainOf (disk : Disk) (path : Path) : List String :=
  path.components.foldl extend (disk.origin path)

/-- Add an entry at a path, and the directories that the path goes through. -/
def add (disk : Disk) (path : Path) (entry : Entry) : Disk :=
  let passed := (path.components.dropLast.foldl (fun (made, chain) name =>
    let next := extend chain name
    (made.makeFolder next, next)) (disk, disk.origin path)).1
  passed.put (disk.chainOf path) entry

/-- Where a path leads. -/
inductive Place where
  | file (chain : List String) (content : List UInt8)
  | folder (chain : List String)
  /-- Nothing is there, but a file can be made. -/
  | vacant (chain : List String)
deriving DecidableEq, Repr

/-- What stands at a chain. -/
def placeAt (disk : Disk) (chain : List String) : Place :=
  match disk.entry? chain with
  | some (.file content) => .file chain content
  | some .folder => .folder chain
  | none => .vacant chain

/-- The bytes of the longest component. -/
def longestName : Nat := 255

/-- The bytes of the longest path. -/
def longestPath : Nat := 4095

/-- Follow components from a place. Only a directory leads on. -/
def follow (disk : Disk) : Place → List String → Except Failure Place
  | place, [] => .ok place
  | .folder chain, name :: rest =>
    if longestName < name.utf8ByteSize then .error .tooLong
    else disk.follow (disk.placeAt (extend chain name)) rest
  | .file .., _ :: _ => .error .notFolder
  | .vacant _, _ :: _ => .error .missing

/-- Where a path leads from the working directory, or from the root. -/
def locate (disk : Disk) (path : Path) : Except Failure Place :=
  if longestPath < path.text.utf8ByteSize then .error .tooLong
  else disk.follow (.folder (disk.origin path)) path.components

/-- The content of the file at a path. -/
def read (disk : Disk) (path : Path) : Except Failure (List UInt8) :=
  match disk.locate path with
  | .ok (.file _ content) => .ok content
  | .ok (.folder _) => .error .isFolder
  | .ok (.vacant _) => .error .missing
  | .error failure => .error failure

/-- Write a file, in place of the one that is there. -/
def write (disk : Disk) (path : Path) (content : List UInt8) : Except Failure Disk :=
  match disk.locate path with
  | .ok (.file chain _) | .ok (.vacant chain) => .ok (disk.put chain (.file content))
  | .ok (.folder _) => .error .isFolder
  | .error failure => .error failure

/-- The files by their chains. -/
def files (disk : Disk) : List (List String × List UInt8) :=
  disk.entries.filterMap fun (chain, entry) =>
    match entry with
    | .file content => some (chain, content)
    | .folder => none

/-- The files that an earlier disk does not hold with the same content. -/
def changedSince (disk before : Disk) : List (List String × List UInt8) :=
  disk.files.filter fun file => !before.files.contains file

/-- The name of a chain that leads to an entry of the working directory. -/
def nameAtHome? (disk : Disk) (chain : List String) : Option String :=
  if chain.dropLast = disk.home then chain.getLast? else none

end Disk

end Chip8
