import Diagnostics.Json.Term
import Diagnostics.Yaml.Cursor

/-!
# Tags, anchors and directives

The marks that stand before a node or a document: the name of an anchor, the handle of a tag,
and the directives, which declare a version of YAML or the handle of a family of tags.  The
suffix of a tag is only checked, for no tag changes how a node is read here.

Each reader gives the cursor after the mark, and has no value where the text is no such mark.
-/

namespace Diagnostics

namespace Yaml

/-- The word at a cursor, which may be empty. -/
def word (c : Cursor) : Text × Cursor := (c.rest.takeWhile isWordChar, c.skipWhile isWordChar)

/-! ### Anchors -/

/-- Whether an anchor may end before a character. -/
def endsAnchor (c : Char) : Bool :=
  isSpace c || isBreak c || ['?', ':', ',', ']', '\x7d', '%', '@', '`'].contains c

/-- The name of the anchor or alias at a cursor, which stands at its indicator. -/
def anchorName? (c : Cursor) : Option (Text × Cursor) :=
  let (name, c) := word (c.skip 1)
  if !name.isEmpty && c.next?.all endsAnchor then some (name, c) else none

/-! ### Tags -/

/-- Whether a character may stand in a tag as it is. -/
def isTagChar (verbatim : Bool) (c : Char) : Bool :=
  isWordChar c
    || [';', '/', '?', ':', '@', '&', '=', '+', '$', '.', '!', '~', '*', '\'', '(', ')'].contains c
    || verbatim && (c = ',' || c = '[' || c = ']')

/-- The byte that a percent sign and two hexadecimal digits stand for. -/
def escapedByte? (s : Text) : Option Nat :=
  match s with
  | '%' :: a :: b :: _ => Json.hexValue? [a, b]
  | _ => none

/-- The number of bytes of a character that begins with the given byte. -/
def characterWidth? (byte : Nat) : Option Nat :=
  if byte < 0x80 then some 1
  else if byte / 0x20 = 0x6 then some 2
  else if byte / 0x10 = 0xE then some 3
  else if byte / 0x8 = 0x1E then some 4
  else none

/-- The cursor after `n` escaped bytes that go on with a character. -/
def skipFollowers? : Nat → Cursor → Option Cursor
  | 0, c => some c
  | n + 1, c => do
    if (← escapedByte? c.rest) / 0x40 = 0x2 then skipFollowers? n (c.skip 3) else none

/-- The cursor after the characters of a tag. -/
def skipTagChars? (verbatim : Bool) : (fuel : Nat) → Cursor → Option Cursor
  | 0, c => some c
  | fuel + 1, c =>
    if c.sees '%' then do
      let width ← characterWidth? (← escapedByte? c.rest)
      skipTagChars? verbatim fuel (← skipFollowers? (width - 1) (c.skip 3))
    else if c.next?.any (isTagChar verbatim) then
      skipTagChars? verbatim fuel (c.skip 1)
    else
      some c

/-- The cursor after the rest of a tag.  Where `filled` does not hold, the rest is not empty. -/
def skipSuffix? (verbatim filled : Bool) (c : Cursor) : Option Cursor := do
  let d ← skipTagChars? verbatim (c.rest.length + 1) c
  if filled || c.index < d.index then some d else none

/-- The handle of a tag at a cursor, which stands at an exclamation mark: a word between two
such marks, or else the single mark.  The word after a single mark is given, too. -/
def handle (c : Cursor) : Text × Text × Cursor :=
  let (name, d) := word (c.skip 1)
  if d.sees '!' then ('!' :: name ++ ['!'], [], d.skip 1) else (['!'], name, d)

/-- The handle of the tag at a cursor whose address stands between angle brackets.  Such a tag
has none. -/
def verbatimHandle? (c : Cursor) : Option (Text × Cursor) := do
  let c ← skipSuffix? true false (c.skip 2)
  if c.sees '>' then some ([], c.skip 1) else none

/-- The handle of the tag at a cursor whose address is abbreviated.  A tag that is a single mark
has none. -/
def shortHandle? (c : Cursor) : Option (Text × Cursor) :=
  let (name, begun, d) := handle c
  if name.length = 1 then
    (skipSuffix? false true d).map fun e =>
      (if begun.isEmpty && d.index = e.index then [] else name, e)
  else
    (skipSuffix? false false d).map fun e => (name, e)

/-- The handle of the tag at a cursor, which is empty for a tag without one. -/
def tagHandle? (inFlow : Bool) (c : Cursor) : Option (Text × Cursor) := do
  let (name, c) ← if c.peek? 1 = some '<' then verbatimHandle? c else shortHandle? c
  if c.atGap || inFlow && c.sees ',' then some (name, c) else none

/-! ### Directives -/

/-- A directive. -/
inductive Directive where
  /-- The version of YAML that a document follows. -/
  | version (major minor : Nat)
  /-- The declaration of a handle. -/
  | tag (handle : Text)
  deriving DecidableEq, Repr

/-- The number at a cursor, which has at most nine digits. -/
def number? (c : Cursor) : Option (Nat × Cursor) :=
  let digits := c.rest.takeWhile Char.isDigit
  if 1 ≤ digits.length ∧ digits.length ≤ 9 then
    some (Nat.ofDigitChars 10 digits 0, c.skip digits.length)
  else
    none

/-- The version at a cursor. -/
def version? (c : Cursor) : Option (Directive × Cursor) := do
  let (major, c) ← number? (c.skipWhile isSpace)
  if c.sees '.' then do
    let (minor, c) ← number? (c.skip 1)
    return (.version major minor, c)
  else
    none

/-- The declaration of a handle at a cursor. -/
def declaration? (c : Cursor) : Option (Directive × Cursor) := do
  let c := c.skipWhile isSpace
  if c.sees '!' then
    let (name, begun, c) := handle c
    if begun.isEmpty && c.atSpace then
      let c ← skipSuffix? true false (c.skipWhile isSpace)
      if c.atGap then some (.tag name, c) else none
    else
      none
  else
    none

/-- The directive at a cursor, which stands at a percent sign, and the cursor on the next
line. -/
def directive? (c : Cursor) : Option (Directive × Cursor) := do
  let (name, c) := word (c.skip 1)
  if c.atGap then
    let (directive, c) ←
      if name = "YAML".toList then version? c
      else if name = "TAG".toList then declaration? c
      else none
    let c := (c.skipWhile isSpace).skipComment
    if c.atLineEnd then some (directive, c.skipBreak) else none
  else
    none

end Yaml

end Diagnostics
