import Diagnostics.Toml.Value

/-!
# TOML scalars

Strings in their four forms, numbers, dates and times.  A reader of a string gives what it has
read and the text after it.  All other values are told by their spelling, which `plainSpelling`
cuts from the text and `ofSpelling?` makes a value of.
-/

namespace Diagnostics

namespace Toml

/-- Whether a character is a control character other than the tab. -/
def isControl (c : Char) : Bool := c.toNat < 0x20 && c ≠ '\t' || c = '\x7f'

/-- A text less the spaces and tabs at its front. -/
def skipSpaces (s : Text) : Text := s.dropWhile fun c => c = ' ' || c = '\t'

/-- The text after a line break. -/
def afterBreak? : Text → Option Text
  | '\n' :: s => some s
  | '\r' :: '\n' :: s => some s
  | _ => none

/-! ### Strings -/

/-- The character of a code point given by `width` hexadecimal digits, and the text after
them. -/
def numbered? (width : Nat) (s : Text) : Option (Char × Text) := do
  let digits := s.take width
  if digits.length ≠ width then
    none
  let n ← Json.hexValue? digits
  if h : n.isValidChar then some (Char.ofNatAux n h, s.drop width) else none

/-- The character of an escape, which stands after a backslash, and the text after it. -/
def escape? : Text → Option (Char × Text)
  | 'b' :: s => some ('\x08', s)
  | 't' :: s => some ('\t', s)
  | 'n' :: s => some ('\n', s)
  | 'f' :: s => some ('\x0c', s)
  | 'r' :: s => some ('\r', s)
  | 'e' :: s => some ('\x1b', s)
  | '"' :: s => some ('"', s)
  | '\\' :: s => some ('\\', s)
  | 'x' :: s => numbered? 2 s
  | 'u' :: s => numbered? 4 s
  | 'U' :: s => numbered? 8 s
  | _ => none

/-- A string on one line behind its opening quotation mark.  Only a basic string has escapes. -/
def lineString? (basic : Bool) (mark : Char) : (fuel : Nat) → Text → Option (Text × Text)
  | 0, _ => none
  | _, [] => none
  | fuel + 1, c :: s =>
    if c = mark then
      some ([], s)
    else if isControl c then
      none
    else do
      let (c, s) ← if basic && c = '\\' then escape? s else some (c, s)
      let (content, rest) ← lineString? basic mark fuel s
      return (c :: content, rest)

/-- The text after spaces, tabs and line breaks. -/
def skipBlanks : (fuel : Nat) → Text → Text
  | 0, s => s
  | fuel + 1, s =>
    match afterBreak? (skipSpaces s) with
    | some s => skipBlanks fuel s
    | none => skipSpaces s

/-- A string over several lines behind its opening quotation marks.  Its line breaks stay as they
are.  In a basic string there are escapes, and a backslash at the end of a line swallows the white
space after it. -/
def blockString? (basic : Bool) (mark : Char) : (fuel : Nat) → Text → Option (Text × Text)
  | 0, _ => none
  | _, [] => none
  | fuel + 1, c :: s =>
    if c = mark then
      let marks := (c :: s).takeWhile (· = mark)
      let rest := (c :: s).drop marks.length
      if 3 ≤ marks.length then
        if marks.length ≤ 5 then some (List.replicate (marks.length - 3) mark, rest) else none
      else
        (blockString? basic mark fuel rest).map fun (content, rest) => (marks ++ content, rest)
    else if isControl c && (afterBreak? (c :: s)).isNone then
      none
    else if basic && c = '\\' && (afterBreak? (skipSpaces s)).isSome then
      blockString? basic mark fuel (skipBlanks s.length s)
    else do
      let (c, s) ← if basic && c = '\\' then escape? s else some (c, s)
      let (content, rest) ← blockString? basic mark fuel s
      return (c :: content, rest)

/-- The string at the front of a text. -/
def string? : Text → Option (Text × Text)
  | [] => none
  | mark :: s =>
    let basic := mark = '"'
    if basic || mark = '\'' then
      match s with
      | a :: b :: r =>
        if a = mark && b = mark then
          blockString? basic mark (r.length + 1) ((afterBreak? r).getD r)
        else
          lineString? basic mark (s.length + 1) s
      | s => lineString? basic mark (s.length + 1) s
    else
      none

/-! ### Dates and times -/

/-- The number of `width` digits at the front of a text, and the text after them. -/
def field? (width : Nat) (s : Text) : Option (Nat × Text) :=
  let digits := s.take width
  if digits.length = width && digits.all Char.isDigit then
    some (Nat.ofDigitChars 10 digits 0, s.drop width)
  else
    none

/-- The text after a character. -/
def afterChar? (x : Char) : Text → Option Text
  | c :: s => if c = x then some s else none
  | [] => none

/-- Whether a year has a leap day. -/
def isLeapYear (year : Nat) : Bool := year % 4 = 0 && (year % 100 ≠ 0 || year % 400 = 0)

/-- The number of days of a month. -/
def daysIn (year month : Nat) : Nat :=
  if month = 2 then
    if isLeapYear year then 29 else 28
  else if [4, 6, 9, 11].contains month then 30 else 31

/-- The text after a date. -/
def afterDate? (s : Text) : Option Text := do
  let (year, s) ← field? 4 s
  let (month, s) ← field? 2 (← afterChar? '-' s)
  let (day, s) ← field? 2 (← afterChar? '-' s)
  if 1 ≤ month && month ≤ 12 && 1 ≤ day && day ≤ daysIn year month then some s else none

/-- The text after hours and minutes. -/
def afterMinutes? (s : Text) : Option Text := do
  let (hour, s) ← field? 2 s
  let (minute, s) ← field? 2 (← afterChar? ':' s)
  if hour < 24 && minute < 60 then some s else none

/-- The text after a time, whose seconds may be left out. -/
def afterTime? (s : Text) : Option Text := do
  let s ← afterMinutes? s
  match s with
  | ':' :: s =>
    let (second, s) ← field? 2 s
    if 60 < second then
      none
    match s with
    | '.' :: s =>
      let digits := s.takeWhile Char.isDigit
      if digits.isEmpty then none else some (s.drop digits.length)
    | s => some s
  | s => some s

/-- The text after an offset from universal time, which may be left out. -/
def afterOffset? : Text → Option Text
  | 'Z' :: s => some s
  | 'z' :: s => some s
  | '+' :: s => afterMinutes? s
  | '-' :: s => afterMinutes? s
  | s => some s

/-- Whether a text is a date, a time, or a date and a time. -/
def isMoment (s : Text) : Bool :=
  match afterDate? s with
  | some [] => true
  | some (c :: s) =>
    ['T', 't', ' '].contains c && ((afterTime? s).bind afterOffset?).any (·.isEmpty)
  | none => (afterTime? s).any (·.isEmpty)

/-! ### Numbers and other plain values

What kind of number a spelling is shows behind the digits at its front.  The spelling of a number
with a fraction or an exponent has to be right; of a whole number only the underscores have to be
right, and in a base other than ten its digits.
-/

/-- Whether each underscore stands between two digits.  `after` says whether one may stand at the
front. -/
def isGrouped (isDigit : Char → Bool) : (after : Bool) → Text → Bool
  | _, [] => true
  | after, c :: s =>
    if c = '_' then
      after && s.head?.any isDigit && isGrouped isDigit false s
    else
      isGrouped isDigit (isDigit c) s

/-- Whether each underscore of a number stands between two digits, or between its sign and a
digit. -/
def isGroupedNumber (isDigit : Char → Bool) (s : Text) : Bool :=
  isGrouped isDigit ((unsigned s).length < s.length) (unsigned s)

/-- The text after the digits and underscores at its front, where there is a digit at least. -/
def afterDigits? (s : Text) : Option Text :=
  let number := s.takeWhile fun c => c.isDigit || c = '_'
  if number.any Char.isDigit then some (s.drop number.length) else none

/-- Whether a text begins with a superfluous zero: one before more digits or underscores. -/
def hasLeadingZero (s : Text) : Bool :=
  s.head? = some '0' && (s.drop 1).head?.any fun c => c.isDigit || c = '_'

/-- Whether a text without a sign has the form of a number with a fraction, an exponent or
both. -/
def isFloat (s : Text) : Bool :=
  let fraction (s : Text) : Option Text :=
    match s with
    | '.' :: s => afterDigits? s
    | s => some s
  let exponent (s : Text) : Option Text :=
    match s with
    | 'e' :: s => afterDigits? (unsigned s)
    | 'E' :: s => afterDigits? (unsigned s)
    | s => some s
  !hasLeadingZero s && (((afterDigits? s).bind fraction).bind exponent).any (·.isEmpty)

/-- The whole number in base 2, 8 or 16 whose digits are spelled as a text. -/
def inBase? (base : Nat) (s : Text) : Option Value :=
  if s.all (fun c => isDigitIn base c || c = '_') && isGrouped (isDigitIn 16) false s then
    some (.integer base (s.filter (· ≠ '_')))
  else
    none

/-- The number in base ten, the date or the time that a text is. -/
def decimal? (s : Text) : Option Value :=
  let digits := (unsigned s).takeWhile Char.isDigit
  let rest := (unsigned s).drop digits.length
  if rest.head? = some '-' || rest.head? = some ':' then
    if isMoment s then some (.moment s) else none
  else if rest.any fun c => c = '.' || c = 'e' || c = 'E' then
    if isFloat (unsigned s) && isGroupedNumber Char.isDigit s then some (.float s) else none
  else if rest.head? = some '_' || rest.isEmpty && !digits.isEmpty then
    if !hasLeadingZero (unsigned s) && isGroupedNumber (isDigitIn 16) s then
      some (.integer 10 (s.filter (· ≠ '_')))
    else
      none
  else
    none

/-- The value without quotation marks or brackets that a text is. -/
def ofSpelling? (s : Text) : Option Value :=
  if s = "true".toList then some (.boolean true)
  else if s = "false".toList then some (.boolean false)
  else if unsigned s = "inf".toList || unsigned s = "nan".toList then some (.float s)
  else
    match s with
    | '0' :: 'x' :: s => inBase? 16 s
    | '0' :: 'o' :: s => inBase? 8 s
    | '0' :: 'b' :: s => inBase? 2 s
    | s => decimal? s

/-- Whether a character may stand in a value without quotation marks. -/
def isPlainChar (c : Char) : Bool :=
  !(['=', ',', '[', ']', '\x7b', '\x7d', ' ', '\t', '\r', '\n', '#'].contains c)

/-- The spelling of the value without quotation marks at the front of a text.  A single space
may stand between a date and a time. -/
def plainSpelling (s : Text) : Text :=
  let first := s.takeWhile isPlainChar
  match s.drop first.length with
  | ' ' :: r =>
    let second := r.takeWhile isPlainChar
    if (afterDate? first).any (·.isEmpty) && second.head?.any Char.isDigit then
      first ++ ' ' :: second
    else
      first
  | _ => first

end Toml

end Diagnostics
