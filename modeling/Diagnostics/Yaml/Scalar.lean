import Diagnostics.Json.Term
import Diagnostics.Yaml.Cursor

/-!
# Scalars

The content of a scalar in each of its five styles: plain, in single or double quotation marks,
literal and folded.  In the first three a scalar may go on over several lines.  The white space
between two words is then a gap: inside a line it stands for itself, one line break stands for a
space, and of several line breaks the first is left out.

Each reader gives the content and the cursor after the scalar, and has no value where the text
is no scalar.
-/

namespace Diagnostics

namespace Yaml

/-- The white space between two words of a scalar. -/
structure Gap where
  /-- The white space before the first line break. -/
  spaces : Text
  /-- Whether the gap reaches over the end of a line. -/
  broken : Bool
  /-- The first line break. -/
  first : Text
  /-- The other line breaks. -/
  others : Text

namespace Gap

/-- The gap without white space. -/
def empty : Gap := ⟨[], false, [], []⟩

/-- What a gap stands for. -/
def text (g : Gap) : Text :=
  if g.broken then
    if g.first = ['\n'] then
      if g.others.isEmpty then [' '] else g.others
    else
      g.first ++ g.others
  else
    g.spaces

/-- The gap at a cursor, after the part `g` of it.  A tab before the column `indent` of a
further line is refused. -/
def read? (indent : Nat) : (fuel : Nat) → Gap → Cursor → Option (Gap × Cursor)
  | 0, g, c => some (g, c)
  | fuel + 1, g, c =>
    if c.atSpace then
      if g.broken then
        if c.column < indent && c.sees '\t' then none else read? indent fuel g (c.skip 1)
      else
        read? indent fuel { g with spaces := g.spaces ++ c.rest.take 1 } (c.skip 1)
    else if c.atBreak then
      if g.broken then
        read? indent fuel { g with others := g.others ++ c.breakText } c.skipBreak
      else
        read? indent fuel ⟨[], true, c.breakText, []⟩ c.skipBreak
    else
      some (g, c)

end Gap

/-! ### Plain scalars -/

/-- Whether a character delimits flow collections. -/
def isFlowIndicator (c : Char) : Bool :=
  c = ',' || c = '[' || c = ']' || c = '\x7b' || c = '\x7d'

/-- The word of a plain scalar at the front of a text.  In a flow collection a colon before an
indicator is refused. -/
def plainWord? (inFlow : Bool) : Text → Option Text
  | [] => some []
  | c :: s =>
    if isSpace c || isBreak c then
      some []
    else if inFlow && c = ':' && s.head?.any (fun d => d = '?' || isFlowIndicator d) then
      none
    else if c = ':' && !isSolid s.head? || inFlow && isFlowIndicator c then
      some []
    else
      (plainWord? inFlow s).map (c :: ·)

/-- The rest of a plain scalar after the content `content` and the gap `gap`; whether the gap
after the scalar reaches over the end of a line is given, too. -/
def plainFrom? (inFlow : Bool) (indent : Nat) :
    (fuel : Nat) → (content : Text) → Gap → Cursor → Option (Text × Bool × Cursor)
  | 0, content, gap, c => some (content, gap.broken, c)
  | fuel + 1, content, gap, c =>
    if c.seesDocumentMark || c.sees '#' then
      some (content, gap.broken, c)
    else do
      let word ← plainWord? inFlow c.rest
      let (content, gap) :=
        if word.isEmpty then (content, gap) else (content ++ gap.text ++ word, .empty)
      let c := c.skip word.length
      if c.atSpace || c.atBreak then
        let (gap, c) ← Gap.read? indent (c.rest.length + 1) gap c
        if !inFlow && c.column < indent then
          return (content, gap.broken, c)
        else
          plainFrom? inFlow indent fuel content gap c
      else
        return (content, gap.broken, c)

/-- The plain scalar at a cursor.  Outside flow collections its lines are indented by `indent`
columns at least. -/
def plain? (inFlow : Bool) (indent : Nat) (c : Cursor) : Option (Text × Bool × Cursor) :=
  plainFrom? inFlow indent (c.rest.length + 1) [] .empty c

/-! ### Quoted scalars -/

/-- The character of a backslash and one more character. -/
def escaped? : Char → Option Char
  | '0' => some '\x00'
  | 'a' => some '\x07'
  | 'b' => some '\x08'
  | 't' => some '\t'
  | '\t' => some '\t'
  | 'n' => some '\n'
  | 'v' => some '\x0b'
  | 'f' => some '\x0c'
  | 'r' => some '\r'
  | 'e' => some '\x1b'
  | ' ' => some ' '
  | '"' => some '"'
  | '/' => some '/'
  | '\\' => some '\\'
  | 'N' => some '\u0085'
  | '_' => some '\u00a0'
  | 'L' => some '\u2028'
  | 'P' => some '\u2029'
  | _ => none

/-- The number of digits of an escape by number. -/
def escapeWidth? : Char → Option Nat
  | 'x' => some 2
  | 'u' => some 4
  | 'U' => some 8
  | _ => none

/-- The character of a code point. -/
def charOfCode? (n : Nat) : Option Char :=
  if h : n.isValidChar then some (Char.ofNatAux n h) else none

/-- The character of an escape, which stands after a backslash, and the number of characters
that the escape takes. -/
def escape? : Text → Option (Char × Nat)
  | [] => none
  | c :: s =>
    match escapeWidth? c with
    | some width =>
      if (s.take width).length = width then do
        return (← charOfCode? (← Json.hexValue? (s.take width)), width + 1)
      else
        none
    | none => (escaped? c).map (·, 1)

/-- The quotation mark of a style. -/
def quotationMark (single : Bool) : Char := if single then '\'' else '"'

/-- The word of a quoted scalar at a cursor, and whether an escaped line break ends it. -/
def quotedWord? (single : Bool) : (fuel : Nat) → Cursor → Option (Text × Bool × Cursor)
  | 0, c => some ([], false, c)
  | fuel + 1, c =>
    match c.next? with
    | none => some ([], false, c)
    | some x =>
      if isSpace x || isBreak x then
        some ([], false, c)
      else if single && x = '\'' && c.peek? 1 = some '\'' then do
        let (word, broken, c) ← quotedWord? single fuel (c.skip 2)
        return ('\'' :: word, broken, c)
      else if x = quotationMark single then
        some ([], false, c)
      else if !single && x = '\\' then
        if (c.skip 1).atBreak then
          some ([], true, (c.skip 1).skipBreak)
        else do
          let (y, width) ← escape? (c.skip 1).rest
          let (word, broken, c) ← quotedWord? single fuel (c.skip (width + 1))
          return (y :: word, broken, c)
      else do
        let (word, broken, c) ← quotedWord? single fuel (c.skip 1)
        return (x :: word, broken, c)

/-- The rest of a quoted scalar after its opening quotation mark or one of its gaps. -/
def quotedFrom? (single : Bool) : (fuel : Nat) → Cursor → Option (Text × Cursor)
  | 0, _ => none
  | fuel + 1, c =>
    if c.seesDocumentMark || c.next?.isNone then
      none
    else do
      let (word, broken, c) ← quotedWord? single (c.rest.length + 1) c
      if c.sees (quotationMark single) then
        return (word, c.skip 1)
      else
        let (gap, c) ← Gap.read? 0 (c.rest.length + 1) ⟨[], broken, [], []⟩ c
        let (content, c) ← quotedFrom? single fuel c
        return (word ++ gap.text ++ content, c)

/-- The quoted scalar at a cursor, which stands at its opening quotation mark. -/
def quoted? (single : Bool) (c : Cursor) : Option (Text × Cursor) :=
  quotedFrom? single (c.rest.length + 1) (c.skip 1)

/-! ### Block scalars -/

/-- What becomes of the line breaks at the end of a block scalar. -/
inductive Chomping where
  /-- All of them go. -/
  | strip
  /-- The first one stays. -/
  | clip
  /-- All of them stay. -/
  | keep
  deriving DecidableEq, Repr

/-- The chomping that a character asks for. -/
def Chomping.ofChar? : Char → Option Chomping
  | '-' => some strip
  | '+' => some keep
  | _ => none

/-- The chomping at a cursor. -/
def chomping (c : Cursor) : Option Chomping × Cursor :=
  match c.next?.bind Chomping.ofChar? with
  | some chomping => (some chomping, c.skip 1)
  | none => (none, c)

/-- The indentation at a cursor, as a number of columns.  A zero is refused. -/
def indentation? (c : Cursor) : Option (Option Nat × Cursor) :=
  match c.next? with
  | some d =>
    if d = '0' then none
    else if d.isDigit then some (some (d.toNat - '0'.toNat), c.skip 1)
    else some (none, c)
  | none => some (none, c)

/-- The header of a block scalar after its indicator: the chomping and the indentation, in any
order. -/
def blockHeader? (c : Cursor) : Option (Chomping × Option Nat × Cursor) := do
  let (before, c) := chomping c
  let (columns, c) ← indentation? c
  let (after, c) := if before.isNone && columns.isSome then chomping c else (none, c)
  let c := (c.skipWhile isSpace).skipComment
  if c.atLineEnd then
    return ((before.or after).getD .clip, columns, c.skipBreak)
  else
    none

/-- The line breaks and the indentation before a line of a block scalar: the line breaks, the
widest indentation, and the cursor after them.  Spaces are eaten up to the column `indent`, or
all of them where it is not yet known; a tab among them is refused. -/
def blockBreaks? (indent : Option Nat) :
    (fuel : Nat) → (breaks : Text) → (widest : Nat) → Cursor → Option (Text × Nat × Cursor)
  | 0, breaks, widest, c => some (breaks, widest, c)
  | fuel + 1, breaks, widest, c =>
    let spaces := (c.rest.takeWhile (· = ' ')).length
    let c := c.skip (indent.elim spaces fun n => min spaces (n - c.column))
    let widest := max widest c.column
    if indent.all (c.column < ·) && c.sees '\t' then
      none
    else if c.atBreak then
      blockBreaks? indent fuel (breaks ++ c.breakText) widest c.skipBreak
    else
      some (breaks, widest, c)

/-- The lines of a block scalar.  `content` is what came before, `last` the line break after it,
`breaks` the further line breaks and `blank` whether the line before began with white space.
The line breaks at the end are given apart. -/
def blockLines? (folded : Bool) (indent : Nat) :
    (fuel : Nat) → (content last breaks : Text) → (blank : Bool) → Cursor →
      Option (Text × Text × Text × Cursor)
  | 0, content, last, breaks, _, c => some (content, last, breaks, c)
  | fuel + 1, content, last, breaks, blank, c =>
    if c.column = indent && c.next?.isSome then do
      let begun := c.atSpace
      let joint :=
        if folded && last.head? = some '\n' && !blank && !begun then
          if breaks.isEmpty then [' '] else breaks
        else
          last ++ breaks
      let line := c.rest.takeWhile fun x => !isBreak x
      let c := c.skip line.length
      let (breaks, _, next) ← blockBreaks? (some indent) (c.rest.length + 1) [] 0 c.skipBreak
      blockLines? folded indent fuel (content ++ joint ++ line) c.breakText breaks begun next
    else
      some (content, last, breaks, c)

/-- The block scalar at a cursor, which stands at its indicator.  `depth` is the number of
columns by which its lines are indented at least. -/
def block? (folded : Bool) (depth : Nat) (c : Cursor) : Option (Text × Cursor) := do
  let (chomping, columns, c) ← blockHeader? (c.skip 1)
  let fixed := columns.map (depth - 1 + ·)
  let (breaks, widest, c) ← blockBreaks? fixed (c.rest.length + 1) [] 0 c
  let indent := fixed.getD (max 1 (max depth widest))
  let (content, last, breaks, c) ←
    blockLines? folded indent (c.rest.length + 1) [] [] breaks false c
  match chomping with
  | .strip => return (content, c)
  | .clip => return (content ++ last, c)
  | .keep => return (content ++ last ++ breaks, c)

end Yaml

end Diagnostics
