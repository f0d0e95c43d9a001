import Diagnostics.Json.Term

/-!
# Reading JSON

`Term.ofText?` reads a text that is one JSON value with blanks around it, by the strict grammar
of the format: no comments, no trailing commas, no leading zeros, and no control characters in
strings.
-/

namespace Diagnostics

namespace Json

/-- A text less the blanks at its front. -/
def skipBlanks (s : Text) : Text :=
  s.dropWhile fun c => c = ' ' || c = '\t' || c = '\n' || c = '\r'

/-- The spelling of the string that begins the text, which stands behind an opening quotation
mark, and the text behind the closing one. -/
def string? : Text → Option (Text × Text)
  | [] => none
  | '"' :: s => some ([], s)
  | '\\' :: 'u' :: a :: b :: c :: d :: s => do
    let _ ← hexValue? [a, b, c, d]
    let (spelling, rest) ← string? s
    return ('\\' :: 'u' :: a :: b :: c :: d :: spelling, rest)
  | '\\' :: c :: s => do
    let _ ← escaped? c
    let (spelling, rest) ← string? s
    return ('\\' :: c :: spelling, rest)
  | c :: s => do
    if c = '\\' ∨ c.toNat < 0x20 then
      none
    let (spelling, rest) ← string? s
    return (c :: spelling, rest)

/-- One or more digits, and the text after them. -/
def digits? (s : Text) : Option (Text × Text) :=
  match s.span Char.isDigit with
  | ([], _) => none
  | parts => some parts

/-- A part of a number that may be absent: a mark, signs if there are any, and digits. -/
def markedDigits? (marks signs : List Char) : Text → Option (Text × Text)
  | [] => some ([], [])
  | c :: s =>
    if marks.contains c then do
      let (sign, s) :=
        match s with
        | [] => ([], [])
        | d :: r => if signs.contains d then ([d], r) else ([], s)
      let (digits, rest) ← digits? s
      return (c :: sign ++ digits, rest)
    else
      some ([], c :: s)

/-- The number that begins the text, and the text after it. -/
def number? (s : Text) : Option (Text × Text) := do
  let (sign, s) :=
    match s with
    | '-' :: s => (['-'], s)
    | s => ([], s)
  let (whole, s) ← digits? s
  if whole.head? = some '0' ∧ whole.length ≠ 1 then
    none
  let (fraction, s) ← markedDigits? ['.'] [] s
  let (exponent, s) ← markedDigits? ['e', 'E'] ['+', '-'] s
  return (sign ++ whole ++ fraction ++ exponent, s)

mutual

/-- The value that begins the text, and the text after it.  `fuel` bounds the number of values
inside it. -/
def value? : (fuel : Nat) → Text → Option (Term × Text)
  | 0, _ => none
  | fuel + 1, s =>
    match skipBlanks s with
    | 'n' :: 'u' :: 'l' :: 'l' :: s => some (.null, s)
    | 't' :: 'r' :: 'u' :: 'e' :: s => some (.bool true, s)
    | 'f' :: 'a' :: 'l' :: 's' :: 'e' :: s => some (.bool false, s)
    | '"' :: s => (string? s).map fun (spelling, s) => (.string spelling, s)
    | '[' :: s =>
      match skipBlanks s with
      | ']' :: s => some (.array [], s)
      | s => (elements? fuel s).map fun (elements, s) => (.array elements, s)
    | '\x7b' :: s =>
      match skipBlanks s with
      | '\x7d' :: s => some (.object [], s)
      | s => (members? fuel s).map fun (members, s) => (.object members, s)
    | s => (number? s).map fun (spelling, s) => (.number spelling, s)

/-- The elements of an array, of which there is at least one. -/
def elements? : (fuel : Nat) → Text → Option (List Term × Text)
  | 0, _ => none
  | fuel + 1, s => do
    let (t, s) ← value? fuel s
    match skipBlanks s with
    | ',' :: s =>
      let (ts, s) ← elements? fuel s
      return (t :: ts, s)
    | ']' :: s => return ([t], s)
    | _ => none

/-- The members of an object, of which there is at least one. -/
def members? : (fuel : Nat) → Text → Option (List (Text × Term) × Text)
  | 0, _ => none
  | fuel + 1, s => do
    match skipBlanks s with
    | '"' :: s =>
      let (name, s) ← string? s
      match skipBlanks s with
      | ':' :: s =>
        let (t, s) ← value? fuel s
        match skipBlanks s with
        | ',' :: s =>
          let (ms, s) ← members? fuel s
          return ((name, t) :: ms, s)
        | '\x7d' :: s => return ([(name, t)], s)
        | _ => none
      | _ => none
    | _ => none

end

/-- The JSON value that a text is. -/
def Term.ofText? (s : Text) : Option Term := do
  let (t, rest) ← value? (s.length + 1) s
  if (skipBlanks rest).isEmpty then some t else none

end Json

end Diagnostics
