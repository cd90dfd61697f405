/-!
# Output

A program prints text and raw bytes to one stream. Text is collected in a block
and passed on when the block is full; bytes are passed on at once. So bytes
overtake the text that still waits in the block, and nothing else changes places.
-/

namespace Chip8

/-- A piece of output. -/
inductive Output.Piece where
  | text (text : String)
  | bytes (bytes : List UInt8)
deriving DecidableEq, Repr

/-- The pieces that were passed on, from the latest to the earliest, and the text
in the block. -/
structure Output where
  passed : List Output.Piece
  waiting : String
deriving DecidableEq, Repr

namespace Output

def empty : Output := ⟨[], ""⟩

/-- The bytes of a full block. -/
def blockSize : Nat := 8192

/-- Pass on the text in the block. -/
def flush (output : Output) : Output :=
  if output.waiting.isEmpty then output else ⟨.text output.waiting :: output.passed, ""⟩

/-- Write text into the block, after making room for it. -/
def write (output : Output) (text : String) : Output :=
  let room :=
    if blockSize < output.waiting.utf8ByteSize + text.utf8ByteSize then output.flush else output
  let filled := { room with waiting := room.waiting ++ text }
  if blockSize ≤ filled.waiting.utf8ByteSize then filled.flush else filled

/-- Print a text and the end of its last line. -/
def print (output : Output) (text : String) : Output := (output.write text).write "\n"

/-- Pass on bytes. -/
def put (output : Output) (bytes : List UInt8) : Output :=
  { output with passed := .bytes bytes :: output.passed }

/-- All output, the earliest first. -/
def pieces (output : Output) : List Piece := output.flush.passed.reverse

/-- The bytes of a text. -/
def utf8 (text : String) : List UInt8 := text.toUTF8.data.toList

theorem utf8_append (first second : String) :
    utf8 (first ++ second) = utf8 first ++ utf8 second := by
  change (first ++ second).toByteArray.data.toList = _
  rw [String.toByteArray_append, ByteArray.data_append, Array.toList_append]
  rfl

/-- The bytes of a piece. -/
def Piece.content : Piece → List UInt8
  | .text shown => utf8 shown
  | .bytes content => content

/-- The bytes of all output. -/
def content (output : Output) : List UInt8 := output.pieces.flatMap Piece.content

theorem utf8_empty : utf8 "" = [] := rfl

/-- What was passed on comes first, and the block behind it. -/
theorem content_eq (output : Output) :
    output.content = output.passed.reverse.flatMap Piece.content ++ utf8 output.waiting := by
  obtain ⟨passed, waiting⟩ := output
  unfold content pieces flush
  split
  case isTrue blank =>
    obtain rfl : waiting = "" := String.isEmpty_iff.mp blank
    rw [utf8_empty, List.append_nil]
  case isFalse =>
    rw [List.reverse_cons, List.flatMap_append, List.flatMap_singleton]
    rfl

/-- Nothing waits behind a block that was passed on. -/
theorem waiting_flush (output : Output) : output.flush.waiting = "" := by
  unfold flush
  split
  case isTrue blank => exact String.isEmpty_iff.mp blank
  case isFalse => rfl

theorem content_flush (output : Output) : output.flush.content = output.content := by
  rw [content_eq, waiting_flush, utf8_empty, List.append_nil]
  rfl

/-- Text is written behind all that was there, whether or not the block is passed on. -/
theorem content_write (output : Output) (text : String) :
    (output.write text).content = output.content ++ utf8 text := by
  have filled (room : Output) :
      ({ room with waiting := room.waiting ++ text } : Output).content =
        room.content ++ utf8 text := by
    rw [content_eq, content_eq, utf8_append, List.append_assoc]
  unfold write
  dsimp only
  split <;> split <;> simp only [content_flush, filled]

theorem content_print (output : Output) (text : String) :
    (output.print text).content = output.content ++ utf8 (text ++ "\n") := by
  rw [print, content_write, content_write, utf8_append, List.append_assoc]

/-- Bytes overtake the text in the block, and nothing else. -/
theorem content_put (output : Output) (bytes : List UInt8) :
    (output.put bytes).content =
      output.passed.reverse.flatMap Piece.content ++ bytes ++ utf8 output.waiting := by
  rw [content_eq, put, List.reverse_cons, List.flatMap_append, List.flatMap_singleton]
  rfl

/-- After text was written, less than a block of it is waiting. -/
theorem waiting_write (output : Output) (text : String) :
    (utf8 (output.write text).waiting).length < blockSize := by
  have finished (filled : Output) :
      (utf8 (if blockSize ≤ filled.waiting.utf8ByteSize then filled.flush
        else filled).waiting).length < blockSize := by
    split
    case isTrue full =>
      rw [waiting_flush]
      decide
    case isFalse less => exact Nat.not_le.mp less
  exact finished _

end Output

end Chip8
