import Diagnostics.Text.Basic

/-!
# Writing JSON

A JSON value, and its two written forms: `compact` has no blanks at all, and `pretty` puts every
element and member on a line of its own, indented by two spaces for each array or object around
it.  In a string only the quotation mark, the backslash and the control characters below space
are escaped.
-/

namespace Diagnostics

/-- A JSON value whose numbers are natural. -/
inductive Json where
  | null
  | number (n : Nat)
  | string (s : Text)
  | array (elements : List Json)
  | object (members : List (Text × Json))
  deriving Repr, Inhabited

namespace Json

/-- The hexadecimal digit of a number below sixteen. -/
def hexDigit (n : Nat) : Char := Nat.digitChar n

/-- A character as it is written in a string. -/
def escape (c : Char) : Text :=
  if c = '"' then ['\\', '"']
  else if c = '\\' then ['\\', '\\']
  else if c = '\x08' then ['\\', 'b']
  else if c = '\x0c' then ['\\', 'f']
  else if c = '\n' then ['\\', 'n']
  else if c = '\r' then ['\\', 'r']
  else if c = '\t' then ['\\', 't']
  else if c.toNat < 0x20 then
    ['\\', 'u', '0', '0', hexDigit (c.toNat / 16), hexDigit (c.toNat % 16)]
  else [c]

/-- A text as a JSON string. -/
def quote (s : Text) : Text := '"' :: s.flatMap escape ++ ['"']

/-- Texts with a separator between them. -/
def separate (separator : Text) (parts : List Text) : Text :=
  (parts.intersperse separator).flatten

/-- The elements or members of a value between brackets, each on a line of its own. -/
def layout (opening closing : Char) (depth : Nat) (parts : List Text) : Text :=
  let line (n : Nat) : Text := '\n' :: List.replicate (2 * n) ' '
  if parts.isEmpty then
    [opening, closing]
  else
    opening :: separate [','] (parts.map (line (depth + 1) ++ ·)) ++ line depth ++ [closing]

mutual

/-- A value without blanks. -/
def compact : Json → Text
  | null => ['n', 'u', 'l', 'l']
  | number n => Nat.toDigits 10 n
  | string s => quote s
  | array elements => '[' :: separate [','] (compactElements elements) ++ [']']
  | object members => '\x7b' :: separate [','] (compactMembers members) ++ ['\x7d']

/-- Values without blanks. -/
def compactElements : List Json → List Text
  | [] => []
  | j :: js => compact j :: compactElements js

/-- Members without blanks. -/
def compactMembers : List (Text × Json) → List Text
  | [] => []
  | (name, j) :: ms => (quote name ++ ':' :: compact j) :: compactMembers ms

end

mutual

/-- A value laid out in lines, inside `depth` arrays and objects. -/
def prettyAt (depth : Nat) : Json → Text
  | array elements => layout '[' ']' depth (prettyElements (depth + 1) elements)
  | object members => layout '\x7b' '\x7d' depth (prettyMembers (depth + 1) members)
  | j => compact j

/-- Values laid out in lines. -/
def prettyElements (depth : Nat) : List Json → List Text
  | [] => []
  | j :: js => prettyAt depth j :: prettyElements depth js

/-- Members laid out in lines. -/
def prettyMembers (depth : Nat) : List (Text × Json) → List Text
  | [] => []
  | (name, j) :: ms => (quote name ++ ':' :: ' ' :: prettyAt depth j) :: prettyMembers depth ms

end

/-- A value laid out in lines. -/
def pretty (j : Json) : Text := prettyAt 0 j

end Json

end Diagnostics
