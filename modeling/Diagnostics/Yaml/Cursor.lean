import Diagnostics.Text.Basic

/-!
# Cursors

A cursor stands in a YAML text.  It knows the text after it and where it stands: how many bytes
come before it, on which line it is and in which column.  The line breaks of YAML
are the line feed, the carriage return, both together, the next line character and the
separators of lines and paragraphs.
-/

namespace Diagnostics

namespace Yaml

/-- Whether a character is a space or a tab. -/
def isSpace (c : Char) : Bool := c = ' ' || c = '\t'

/-- Whether a character breaks a line. -/
def isBreak (c : Char) : Bool :=
  c = '\n' || c = '\r' || c = '\u0085' || c = '\u2028' || c = '\u2029'

/-- Whether the text goes on with neither white space nor its end. -/
def isSolid (c : Option Char) : Bool := c.any fun c => !isSpace c && !isBreak c

/-- Whether a character may stand in a name. -/
def isWordChar (c : Char) : Bool := c.isAlphanum || c = '_' || c = '-'

/-- Whether YAML admits a character in a text. -/
def isPrintable (c : Char) : Bool :=
  let n := c.toNat
  n = 0x09 || n = 0x0A || n = 0x0D || (0x20 ≤ n && n ≤ 0x7E) || n = 0x85
    || (0xA0 ≤ n && n ≤ 0xD7FF) || (0xE000 ≤ n && n ≤ 0xFFFD) || 0x10000 ≤ n

/-- A place in a text. -/
structure Cursor where
  /-- The text after the cursor. -/
  rest : Text
  /-- The number of bytes before the cursor. -/
  index : Nat
  line : Nat
  column : Nat
  deriving Repr

namespace Cursor

/-- The place before the first character of a text. -/
def ofText (s : Text) : Cursor := ⟨s, 0, 0, 0⟩

/-- The next character. -/
def next? (c : Cursor) : Option Char := c.rest.head?

/-- The character after the next `n` ones. -/
def peek? (c : Cursor) (n : Nat) : Option Char := c.rest[n]?

/-- Whether the next character is the given one. -/
def sees (c : Cursor) (x : Char) : Bool := c.next? = some x

/-- Whether the next character is white space or there is none. -/
def atGap (c : Cursor) : Bool := !isSolid c.next?

/-- Whether the next character is a space or a tab. -/
def atSpace (c : Cursor) : Bool := c.next?.any isSpace

/-- Whether the next character breaks the line. -/
def atBreak (c : Cursor) : Bool := c.next?.any isBreak

/-- Whether the line ends here. -/
def atLineEnd (c : Cursor) : Bool := c.next?.all isBreak

/-- Whether three times the same character begins the line, with a gap after it. -/
def seesMark (c : Cursor) (x : Char) : Bool :=
  c.column = 0 && c.rest.take 3 = [x, x, x] && !isSolid (c.peek? 3)

/-- Whether the line begins with a mark between documents. -/
def seesDocumentMark (c : Cursor) : Bool := c.seesMark '-' || c.seesMark '.'

/-- Past the next `n` characters, none of which breaks the line. -/
def skip (c : Cursor) (n : Nat) : Cursor :=
  ⟨c.rest.drop n, c.index + Text.utf8Length (c.rest.take n), c.line, c.column + n⟩

/-- Past the next characters in `p`, none of which breaks the line. -/
def skipWhile (p : Char → Bool) (c : Cursor) : Cursor := c.skip (c.rest.takeWhile p).length

/-- Past a line break, if there is one. -/
def skipBreak (c : Cursor) : Cursor :=
  if c.atBreak then
    match c.rest with
    | '\r' :: '\n' :: s => ⟨s, c.index + 2, c.line + 1, 0⟩
    | s => ⟨s.tail, c.index + Text.utf8Length (s.take 1), c.line + 1, 0⟩
  else
    c

/-- The content of the line break at a cursor: the separators stand for themselves and every
other line break for a line feed. -/
def breakText (c : Cursor) : Text :=
  match c.next? with
  | some x => if x = '\u2028' || x = '\u2029' then [x] else if isBreak x then ['\n'] else []
  | none => []

/-- Past the comment at a cursor, if there is one. -/
def skipComment (c : Cursor) : Cursor :=
  if c.sees '#' then c.skipWhile fun x => !isBreak x else c

end Cursor

end Yaml

end Diagnostics
