import Diagnostics.Toml.Scalar

/-!
# TOML documents

A document is a sequence of statements, one on a line: the header of a table, the header of one
more table of an array, or a key with its value.  `ofText?` reads the statements in order and
puts each of them into the table that the document describes.  A table has one header at most,
a key is given once, and neither values in braces or brackets nor tables with a header are
extended by dotted keys from outside.
-/

namespace Diagnostics

namespace Toml

/-- The largest number of brackets and braces that are open at a time. -/
def maxNesting : Nat := 80

/-- The largest number of names in a key. -/
def maxNames : Nat := 80

/-- The entries of a table. -/
abbrev Entries := List (Text × Value)

/-- Entries with another value for a key, which stays where it is if it is there. -/
def put (key : Text) (v : Value) : Entries → Entries
  | [] => [(key, v)]
  | (k, w) :: es => if k = key then (k, v) :: es else (k, w) :: put key v es

/-! ### Putting statements together -/

/-- Put a value under the name `last` in the table at the end of a path of dotted names.  The path
goes through tables that are there by a dotted key, or only on the way to the table of a header,
and through the last tables of arrays.  `isOpen` says whether the table itself takes the value:
the last table of an array does not. -/
def putDotted? (v : Value) (last : Text) :
    (path : List Text) → (isOpen : Bool) → Entries → Option Entries
  | [], isOpen, es => if isOpen && (es.lookup last).isNone then some (put last v es) else none
  | key :: path, _, es =>
    match es.lookup key with
    | none => (putDotted? v last path true []).map fun t => put key (.table .dotted t) es
    | some (.table kind t) =>
      if kind = .dotted || kind = .implied then
        (putDotted? v last path true t).map fun t => put key (.table kind t) es
      else
        none
    | some (.tables (t :: ts)) =>
      (putDotted? v last path false t).map fun t => put key (.tables (t :: ts)) es
    | some _ => none

/-- Put a value under a key, which is a list of names, into a table. -/
def putKey? (v : Value) (keys : List Text) (es : Entries) : Option Entries := do
  putDotted? v (← keys.getLast?) keys.dropLast true es

/-- Change the table at the end of a path of headers.  Tables on the way that are not there yet
are implied. -/
def changeAt? (f : Entries → Option Entries) : (path : List Text) → Entries → Option Entries
  | [], es => f es
  | key :: path, es =>
    match es.lookup key with
    | none => (changeAt? f path []).map fun t => put key (.table .implied t) es
    | some (.table kind t) =>
      if kind = .inline then
        none
      else
        (changeAt? f path t).map fun t => put key (.table kind t) es
    | some (.tables (t :: ts)) =>
      (changeAt? f path t).map fun t => put key (.tables (t :: ts)) es
    | some _ => none

/-- The header of a table. -/
def openTable? (key : Text) (es : Entries) : Option Entries :=
  match es.lookup key with
  | none => some (put key (.table .header []) es)
  | some (.table .implied t) => some (put key (.table .header t) es)
  | some _ => none

/-- The header of one more table of an array. -/
def openElement? (key : Text) (es : Entries) : Option Entries :=
  match es.lookup key with
  | none => some (put key (.tables [[]]) es)
  | some (.tables ts) => some (put key (.tables ([] :: ts)) es)
  | some _ => none

/-! ### Reading statements -/

/-- The text after a comment, if there is one. -/
def skipComment? : Text → Option Text
  | '#' :: s =>
    let comment := s.takeWhile fun c => !isControl c
    match s.drop comment.length with
    | [] => some []
    | rest => if (afterBreak? rest).isSome then some rest else none
  | s => some s

/-- The text after the rest of a line that holds nothing else than a comment. -/
def endLine? (s : Text) : Option Text := do
  match ← skipComment? (skipSpaces s) with
  | [] => some []
  | rest => afterBreak? rest

/-- The text after white space, comments and line breaks. -/
def skipLines? : (fuel : Nat) → Text → Option Text
  | 0, s => some s
  | fuel + 1, s => do
    let s ← skipComment? (skipSpaces s)
    match afterBreak? s with
    | some s => skipLines? fuel s
    | none => some s

/-- Whether a character may stand in a key without quotation marks. -/
def isKeyChar (c : Char) : Bool := c.isAlphanum || c = '_' || c = '-'

/-- The single name at the front of a text. -/
def name? (s : Text) : Option (Text × Text) :=
  match s with
  | '"' :: s => lineString? true '"' (s.length + 1) s
  | '\'' :: s => lineString? false '\'' (s.length + 1) s
  | s =>
    let name := s.takeWhile isKeyChar
    if name.isEmpty then none else some (name, s.drop name.length)

/-- The names with dots between them at the front of a text, `count` of them at most. -/
def names? : (count : Nat) → Text → Option (List Text × Text)
  | 0, _ => none
  | count + 1, s => do
    let (name, s) ← name? (skipSpaces s)
    match skipSpaces s with
    | '.' :: s =>
      let (names, s) ← names? count s
      return (name :: names, s)
    | s => return ([name], s)

/-- The key at the front of a text. -/
def key? (s : Text) : Option (List Text × Text) := names? maxNames s

mutual

/-- The value at the front of a text, inside `depth` more brackets and braces at most. -/
def value? : (fuel depth : Nat) → Text → Option (Value × Text)
  | 0, _, _ => none
  | fuel + 1, depth, s =>
    match s with
    | '[' :: s =>
      if depth = 0 then none
      else (elements? fuel (depth - 1) s).map fun (vs, s) => (.array vs, s)
    | '\x7b' :: s =>
      if depth = 0 then none
      else (entries? fuel (depth - 1) [] s).map fun (es, s) => (.table .inline es, s)
    | s =>
      match s.head? with
      | some '"' | some '\'' => (string? s).map fun (content, s) => (.string content, s)
      | _ =>
        let spelling := plainSpelling s
        (ofSpelling? spelling).map (·, s.drop spelling.length)

/-- The elements of an array, with its end. -/
def elements? : (fuel depth : Nat) → Text → Option (List Value × Text)
  | 0, _, _ => none
  | fuel + 1, depth, s => do
    match ← skipLines? (s.length + 1) s with
    | ']' :: s => return ([], s)
    | s =>
      let (v, s) ← value? fuel depth s
      match ← skipLines? (s.length + 1) s with
      | ',' :: s =>
        let (vs, s) ← elements? fuel depth s
        return (v :: vs, s)
      | ']' :: s => return ([v], s)
      | _ => none

/-- The entries of a table in braces after the entries `es`, with its end.  Lines may end
anywhere but in a key. -/
def entries? : (fuel depth : Nat) → (es : Entries) → Text → Option (Entries × Text)
  | 0, _, _, _ => none
  | fuel + 1, depth, es, s => do
    match ← skipLines? (s.length + 1) s with
    | '\x7d' :: s => return (es, s)
    | s =>
      let (key, s) ← key? s
      match ← skipLines? (s.length + 1) s with
      | '=' :: s =>
        let (v, s) ← value? fuel depth (← skipLines? (s.length + 1) s)
        let es ← putKey? v key es
        match ← skipLines? (s.length + 1) s with
        | ',' :: s => entries? fuel depth es s
        | '\x7d' :: s => return (es, s)
        | _ => none
      | _ => none

end

/-- The names of a header up to its closing brackets, and the text after them. -/
def header? (brackets : Nat) (s : Text) : Option (List Text × Text) := do
  let (keys, s) ← key? s
  if s.take brackets = List.replicate brackets ']' then some (keys, s.drop brackets) else none

/-- Add the statements of a text to a document.  `path` is the header that they stand under. -/
def statements? : (fuel : Nat) → (path : List Text) → Entries → Text → Option Entries
  | 0, _, _, _ => none
  | fuel + 1, path, es, s => do
    match ← skipLines? (s.length + 1) s with
    | [] => return es
    | '[' :: '[' :: s =>
      let (keys, s) ← header? 2 s
      let es ← changeAt? (openElement? (← keys.getLast?)) keys.dropLast es
      statements? fuel keys es (← endLine? s)
    | '[' :: s =>
      let (keys, s) ← header? 1 s
      let es ← changeAt? (openTable? (← keys.getLast?)) keys.dropLast es
      statements? fuel keys es (← endLine? s)
    | s =>
      let (keys, s) ← key? s
      match s with
      | '=' :: s =>
        let (v, s) ← value? (s.length + 1) maxNesting (skipSpaces s)
        let es ← changeAt? (putKey? v keys) path es
        statements? fuel path es (← endLine? s)
      | _ => none

/-- The table that a document describes.  The document may begin with a byte order mark. -/
def ofText? (s : Text) : Option Value :=
  let s := Text.dropMark s
  (statements? (s.length + 1) [] [] s).map (.table .header)

end Toml

end Diagnostics
