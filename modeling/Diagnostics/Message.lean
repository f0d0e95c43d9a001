import Diagnostics.Piece
import Diagnostics.Text.Lines

/-!
# Messages

A blob of diagnostics holds one message after the other.  A message begins at every line whose
first character is not blank; a line that begins with a blank character continues the message
above it.  The first line of the blob begins a message whatever it holds.

The lines of a message are listed without the white space around them, and lines that hold
nothing else are left out.  A message of several such lines is a chain of causes.
-/

namespace Diagnostics

/-- One message of a blob. -/
structure Message where
  /-- The message as it stands in the blob, with the line feed that ends it. -/
  piece : Piece
  /-- The trimmed lines of the message that are not blank. -/
  lines : List Piece
  deriving DecidableEq, Repr

namespace Message

/-- Whether a line begins a message. -/
def opens (line : Text) : Bool := line.head?.any fun c => !Text.isBlank c

/-- Consecutive texts as pieces, the first of which stands at the offset `n`. -/
def place : Nat → List Text → List Piece
  | _, [] => []
  | n, l :: ls => ⟨n, l⟩ :: place (n + l.utf8Length) ls

/-- Consecutive lines gathered into blocks: a line that begins a message begins a block. -/
def blocks : List Piece → List (List Piece)
  | [] => []
  | l :: ls =>
    match blocks ls with
    | [] => [[l]]
    | b :: bs =>
      if b.head?.any (opens ·.text) then
        [l] :: b :: bs
      else
        (l :: b) :: bs

/-- The message of a block of lines. -/
def ofBlock (b : List Piece) : Message where
  piece := ⟨(b.head?.map (·.start)).getD 0, (b.map (·.text)).flatten⟩
  lines := (b.map (·.trim)).filter fun l => !l.text.isEmpty

/-- The messages of a blob, in order. -/
def ofText (s : Text) : List Message :=
  (blocks (place 0 s.lines)).map ofBlock

/-- Whether a message has lines after its head line. -/
def isChain (m : Message) : Bool := 1 < m.lines.length

/-- A single line as a message of its own. -/
def ofLine (l : Piece) : Message := ⟨l, [l]⟩

/-- Every line of a message as a message of its own. -/
def links (m : Message) : List Message := m.lines.map ofLine

end Message

end Diagnostics
