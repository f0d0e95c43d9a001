import Diagnostics.Yaml.Scalar
import Diagnostics.Yaml.Tag

/-!
# Tokens

The tokens of a YAML text.  Block collections have no delimiters of their own: they are opened
and closed by the indentation of the lines, and `blockEnd` closes each of them.  A key of a
mapping may come without any mark, so that it shows as a key only at the colon after it.  Such a
possible key is kept with its place among the tokens, and the missing marks are put there when
the colon comes.  It has to stand on one line with the colon, at most `keyLength` bytes before
it.
-/

namespace Diagnostics

namespace Yaml

/-- A token of a YAML text. -/
inductive Token where
  | directive (d : Directive)
  | documentStart
  | documentEnd
  | blockSequenceStart
  | blockMappingStart
  | blockEnd
  | flowSequenceStart
  | flowSequenceEnd
  | flowMappingStart
  | flowMappingEnd
  | blockEntry
  | flowEntry
  | key
  | value
  | alias (name : Text)
  | anchor (name : Text)
  | tag (handle : Text)
  | scalar (content : Text)
  deriving DecidableEq, Repr

/-- The largest number of bytes from the front of a key without a mark to its colon. -/
def keyLength : Nat := 1024

/-- A place where a key without a mark may begin. -/
structure PossibleKey where
  /-- Whether nothing else than a key may stand here. -/
  required : Bool
  /-- The number of tokens before the key. -/
  position : Nat
  cursor : Cursor

/-- What is known in the course of reading tokens. -/
structure Scanner where
  cursor : Cursor
  /-- The columns of the open block collections plus one, innermost first. -/
  depths : List Nat
  /-- Whether a key without a mark may begin here. -/
  keyAllowed : Bool
  /-- The possible key of the innermost flow collection, or of the block around it. -/
  possible : Option PossibleKey
  /-- The possible keys of the collections around the open flow collections. -/
  outer : List (Option PossibleKey)
  tokens : Array Token

namespace Scanner

/-- The state at the beginning of a text. -/
def ofText (s : Text) : Scanner := ⟨.ofText s, [], true, none, [], #[]⟩

/-- Whether a flow collection is open. -/
def inFlow (s : Scanner) : Bool := !s.outer.isEmpty

/-- The column of the innermost block collection plus one, and `0` outside all of them. -/
def depth (s : Scanner) : Nat := s.depths.head?.getD 0

/-- One more token. -/
def push (s : Scanner) (t : Token) : Scanner := { s with tokens := s.tokens.push t }

/-- One more token, which ends at a cursor. -/
def pushAt (s : Scanner) (t : Token) (c : Cursor) : Scanner :=
  { s with tokens := s.tokens.push t, cursor := c }

/-- One more token, which is an indicator of one character. -/
def pushIndicator (s : Scanner) (t : Token) : Scanner := s.pushAt t (s.cursor.skip 1)

/-- Close the block collections whose column plus one is larger than `limit`. -/
def closeBlocks (limit : Nat) (s : Scanner) : Scanner :=
  if s.inFlow then
    s
  else
    let closed := s.depths.takeWhile (limit < ·)
    { s with
      depths := s.depths.drop closed.length
      tokens := s.tokens ++ Array.replicate closed.length Token.blockEnd }

/-- Open a block collection at a column, if none is open there. -/
def openBlock (s : Scanner) (column position : Nat) (t : Token) : Scanner :=
  if s.inFlow || column + 1 ≤ s.depth then
    s
  else
    { s with
      depths := (column + 1) :: s.depths
      tokens := s.tokens.insertIdxIfInBounds position t }

/-- Give up the possible key; nothing may stand where a key is required. -/
def dropKey? (s : Scanner) : Option Scanner :=
  if s.possible.any (·.required) then none else some { s with possible := none }

/-- Give up a possible key that is too far away. -/
def PossibleKey.expire? (here : Cursor) : Option PossibleKey → Option (Option PossibleKey)
  | none => some none
  | some k =>
    if k.cursor.line < here.line ∨ k.cursor.index + keyLength < here.index then
      if k.required then none else some none
    else
      some (some k)

/-- Give up all possible keys that are too far away. -/
def expireKeys? (s : Scanner) : Option Scanner := do
  let possible ← PossibleKey.expire? s.cursor s.possible
  let outer ← s.outer.mapM (PossibleKey.expire? s.cursor)
  return { s with possible := possible, outer := outer }

/-- Remember that a key may begin here. -/
def saveKey? (s : Scanner) : Option Scanner :=
  if s.keyAllowed then do
    let required := !s.inFlow && s.depth = s.cursor.column + 1
    let s ← s.dropKey?
    return { s with possible := some ⟨required, s.tokens.size, s.cursor⟩ }
  else
    some s

/-- Whether a key without a mark may begin after the next token. -/
def allowKey (allowed : Bool) (s : Scanner) : Scanner := { s with keyAllowed := allowed }

/-- Past the blanks, comments and line breaks before the next token.  A byte order mark may begin
each of the lines, and takes a column.  `fuel` bounds the number of lines. -/
def skipToToken : (fuel : Nat) → Scanner → Scanner
  | 0, s => s
  | fuel + 1, s =>
    let c := s.cursor
    let c := if c.column = 0 && c.sees '\ufeff' then c.skip 1 else c
    let tabs := s.inFlow || !s.keyAllowed
    let c := (c.skipWhile fun x => x = ' ' || tabs && x = '\t').skipComment
    if c.atBreak then
      skipToToken fuel { s with cursor := c.skipBreak, keyAllowed := s.keyAllowed || !s.inFlow }
    else
      { s with cursor := c }

/-! ### Reading one token -/

/-- A directive or a mark between documents, which closes all blocks. -/
def boundary? (s : Scanner) : Option Scanner := (s.closeBlocks 0).dropKey?.map (allowKey false)

/-- The opening of a flow collection. -/
def openFlow? (s : Scanner) (t : Token) : Option Scanner := do
  let s ← s.saveKey?
  let s := { s with outer := s.possible :: s.outer, possible := none }
  return (s.allowKey true).pushIndicator t

/-- The end of a flow collection. -/
def closeFlow? (s : Scanner) (t : Token) : Option Scanner := do
  let s ← s.dropKey?
  let s :=
    match s.outer with
    | [] => s
    | k :: ks => { s with possible := k, outer := ks }
  return (s.allowKey false).pushIndicator t

/-- The indicator of an entry of a block sequence. -/
def blockEntry? (s : Scanner) : Option Scanner := do
  if s.inFlow || s.keyAllowed then
    let s := s.openBlock s.cursor.column s.tokens.size .blockSequenceStart
    return ((← s.dropKey?).allowKey true).pushIndicator .blockEntry
  else
    none

/-- The mark of a key. -/
def markedKey? (s : Scanner) : Option Scanner := do
  if s.inFlow || s.keyAllowed then
    let s := s.openBlock s.cursor.column s.tokens.size .blockMappingStart
    return ((← s.dropKey?).allowKey !s.inFlow).pushIndicator .key
  else
    none

/-- The mark of a value. -/
def markedValue? (s : Scanner) : Option Scanner :=
  match s.possible with
  | some k =>
    let s := { s with tokens := s.tokens.insertIdxIfInBounds k.position .key, possible := none }
    let s := s.openBlock k.cursor.column k.position .blockMappingStart
    some ((s.allowKey false).pushIndicator .value)
  | none =>
    if s.inFlow || s.keyAllowed then
      let s := s.openBlock s.cursor.column s.tokens.size .blockMappingStart
      some ((s.allowKey !s.inFlow).pushIndicator .value)
    else
      none

/-- A token that may begin a key, given its cursor after it. -/
def keyed? (s : Scanner) (read : Cursor → Option (Token × Cursor)) : Option Scanner := do
  let s := (← s.saveKey?).allowKey false
  let (t, c) ← read s.cursor
  return s.pushAt t c

/-- A block scalar. -/
def blockScalar? (s : Scanner) (folded : Bool) : Option Scanner := do
  let s := (← s.dropKey?).allowKey true
  let (content, c) ← block? folded s.depth s.cursor
  return s.pushAt (.scalar content) c

/-- A plain scalar. -/
def plainScalar? (s : Scanner) : Option Scanner := do
  let s := (← s.saveKey?).allowKey false
  let (content, broken, c) ← plain? s.inFlow s.depth s.cursor
  return (s.pushAt (.scalar content) c).allowKey broken

/-- Whether a plain scalar may begin at a cursor. -/
def beginsPlain (inFlow : Bool) (c : Cursor) : Bool :=
  match c.next? with
  | none => false
  | some x =>
    (!isSpace x && !isBreak x
        && !(['-', '?', ':', ',', '[', ']', '\x7b', '\x7d', '#', '&', '*', '!', '|', '>', '\'', '"',
          '%', '@', '`'].contains x))
      || x = '-' && !(c.peek? 1).any isSpace
      || !inFlow && (x = '?' || x = ':') && isSolid (c.peek? 1)

/-- The next token, after which there may be others. -/
def token? (s : Scanner) : Option Scanner :=
  let c := s.cursor
  let gap := !isSolid (c.peek? 1)
  if c.column = 0 && c.sees '%' then do
    let s ← s.boundary?
    let (d, c) ← directive? c
    return s.pushAt (.directive d) c
  else if c.seesMark '-' then
    s.boundary?.map fun s => s.pushAt .documentStart (c.skip 3)
  else if c.seesMark '.' then
    s.boundary?.map fun s => s.pushAt .documentEnd (c.skip 3)
  else if c.sees '[' then s.openFlow? .flowSequenceStart
  else if c.sees '\x7b' then s.openFlow? .flowMappingStart
  else if c.sees ']' then s.closeFlow? .flowSequenceEnd
  else if c.sees '\x7d' then s.closeFlow? .flowMappingEnd
  else if c.sees ',' then s.dropKey?.map fun s => (s.allowKey true).pushIndicator .flowEntry
  else if c.sees '-' && gap then s.blockEntry?
  else if c.sees '?' && (s.inFlow || gap) then s.markedKey?
  else if c.sees ':' && (s.inFlow || gap) then s.markedValue?
  else if c.sees '*' then
    s.keyed? fun c => (anchorName? c).map fun (name, c) => (.alias name, c)
  else if c.sees '&' then
    s.keyed? fun c => (anchorName? c).map fun (name, c) => (.anchor name, c)
  else if c.sees '!' then
    s.keyed? fun c => (tagHandle? s.inFlow c).map fun (name, c) => (.tag name, c)
  else if c.sees '|' && !s.inFlow then s.blockScalar? false
  else if c.sees '>' && !s.inFlow then s.blockScalar? true
  else if c.sees '\'' then
    s.keyed? fun c => (quoted? true c).map fun (content, c) => (.scalar content, c)
  else if c.sees '"' then
    s.keyed? fun c => (quoted? false c).map fun (content, c) => (.scalar content, c)
  else if beginsPlain s.inFlow c then s.plainScalar?
  else none

/-- All tokens from here to the end of the text. -/
def finish? : (fuel : Nat) → Scanner → Option (Array Token)
  | 0, _ => none
  | fuel + 1, s => do
    let s ← (s.skipToToken (s.cursor.rest.length + 1)).expireKeys?
    if s.cursor.next?.isNone then
      let s ← (s.closeBlocks 0).dropKey?
      return s.tokens
    else
      finish? fuel (← (s.closeBlocks (s.cursor.column + 1)).token?)

end Scanner

/-- The tokens of a text. -/
def Token.ofText? (s : Text) : Option (List Token) :=
  if s.all isPrintable then
    (Scanner.finish? (s.length + 1) (.ofText s)).map (·.toList)
  else
    none

end Yaml

end Diagnostics
