/-!
# Paths

A path is a chain of components, absolute or relative. Empty components and
those that name the directory itself say nothing and are dropped; a component
that names the parent stays, because only the disk knows what it leads to.
-/

namespace Chip8.Disk

/-- Leading slashes and components. Exactly two leading slashes are kept apart
from one; more of them count as one. -/
structure Path where
  slashes : Nat
  components : List String
deriving DecidableEq, Repr

namespace Path

/-- Cut a text at each slash. There is one piece more than there are slashes. -/
def pieces : List Char → List (List Char)
  | [] => [[]]
  | c :: rest =>
    if c = '/' then [] :: pieces rest
    else
      match pieces rest with
      | [] => [[c]]
      | piece :: others => (c :: piece) :: others

/-- Whether a piece leads anywhere. -/
def leads (piece : List Char) : Bool := !piece.isEmpty && piece != ['.']

/-- The leading slashes that count. -/
def leadingSlashes (text : List Char) : Nat :=
  match (text.takeWhile (· == '/')).length with
  | 0 => 0
  | 2 => 2
  | _ => 1

/-- Read a path. -/
def ofText (text : String) : Path :=
  ⟨leadingSlashes text.toList, ((pieces text.toList).filter leads).map String.ofList⟩

/-- The path in text. A path that leads nowhere is the directory itself. -/
def text (path : Path) : String :=
  if path.slashes = 0 && path.components.isEmpty then "."
  else String.ofList (List.replicate path.slashes '/') ++ "/".intercalate path.components

/-- Whether a path can be asked for. A null character would end it early. -/
def isPlain (path : Path) : Bool := !path.text.toList.contains (Char.ofNat 0)

/-- The last component; a bare directory or root has none. -/
def name (path : Path) : String := path.components.getLastD ""

/-- A name up to its last dot. A dot at its start or its end belongs to it. -/
def stemOf (name : List Char) : List Char :=
  let suffix := name.reverse.takeWhile (· != '.')
  let kept := name.length - suffix.length - 1
  if suffix.isEmpty || kept = 0 || suffix.length = name.length then name else name.take kept

/-- The name without its suffix. -/
def stem (path : Path) : String := String.ofList (stemOf path.name.toList)

end Path

end Chip8.Disk
