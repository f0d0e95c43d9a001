import Diagnostics.Text.Basic

/-!
# JSON terms

A JSON term is a JSON value as it is written: its strings and numbers keep their spelling, and
its objects keep all their members in order.  A spelling is given a meaning only where one is
asked for.  So a term may hold strings that name no text, such as half of a surrogate pair, as
long as nobody reads them.

`record?` reads a term as a record with known fields.
-/

namespace Diagnostics

namespace Json

/-- A JSON value as it is written. -/
inductive Term where
  | null
  | bool (b : Bool)
  | number (spelling : Text)
  /-- A string, as spelled between its quotation marks. -/
  | string (spelling : Text)
  | array (elements : List Term)
  | object (members : List (Text × Term))
  deriving Repr, Inhabited

/-- The value of a hexadecimal digit. -/
def hexDigit? (c : Char) : Option Nat :=
  if '0' ≤ c ∧ c ≤ '9' then
    some (c.toNat - '0'.toNat)
  else if 'a' ≤ c ∧ c ≤ 'f' then
    some (c.toNat - 'a'.toNat + 10)
  else if 'A' ≤ c ∧ c ≤ 'F' then
    some (c.toNat - 'A'.toNat + 10)
  else
    none

/-- The value of a hexadecimal numeral. -/
def hexValue? (digits : Text) : Option Nat :=
  digits.foldlM (fun n c => (hexDigit? c).map (16 * n + ·)) 0

/-- The character of a backslash and one more character. -/
def escaped? : Char → Option Char
  | '"' => some '"'
  | '\\' => some '\\'
  | '/' => some '/'
  | 'b' => some '\x08'
  | 'f' => some '\x0c'
  | 'n' => some '\n'
  | 'r' => some '\r'
  | 't' => some '\t'
  | _ => none

/-- A unit of a spelled string: a character, or a code unit given by its number. -/
inductive StringUnit where
  | char (c : Char)
  | code (n : Nat)
  deriving DecidableEq, Repr

/-- The units of a spelled string. -/
def units? : Text → Option (List StringUnit)
  | [] => some []
  | '\\' :: 'u' :: a :: b :: c :: d :: s => do
    let n ← hexValue? [a, b, c, d]
    return .code n :: (← units? s)
  | '\\' :: c :: s => do
    let c ← escaped? c
    return .char c :: (← units? s)
  | c :: s => do
    return .char c :: (← units? s)

/-- The text of a list of units.  Code units of surrogates stand in pairs. -/
def ofUnits? : List StringUnit → Option Text
  | [] => some []
  | .char c :: us => (ofUnits? us).map (c :: ·)
  | .code n :: us =>
    if 0xD800 ≤ n ∧ n < 0xDC00 then
      match us with
      | .code m :: us =>
        if 0xDC00 ≤ m ∧ m < 0xE000 then
          (ofUnits? us).map (Char.ofNat (0x10000 + (n - 0xD800) * 0x400 + (m - 0xDC00)) :: ·)
        else
          none
      | _ => none
    else if 0xDC00 ≤ n ∧ n < 0xE000 then
      none
    else
      (ofUnits? us).map (Char.ofNat n :: ·)

/-- The text that a spelled string stands for. -/
def decode? (spelling : Text) : Option Text := (units? spelling).bind ofUnits?

namespace Term

/-- The text of a string. -/
def text? : Term → Option Text
  | string spelling => decode? spelling
  | _ => none

/-- The value of a Boolean. -/
def bool? : Term → Option Bool
  | bool b => some b
  | _ => none

/-- The value of a natural number that is written without sign, fraction and exponent. -/
def nat? : Term → Option Nat
  | number spelling =>
    if spelling.all Char.isDigit then some (Nat.ofDigitChars 10 spelling 0) else none
  | _ => none

/-- The members of an object whose names can be read. -/
def members? : Term → Option (List (Text × Term))
  | object members => members.mapM fun (name, t) => (decode? name).map (·, t)
  | _ => none

/-- The fields of a record with the given field names, in their order.  A record is written as
an object, where a field may be left out but not repeated and unknown names are ignored, or as
an array of its fields in order, where fields at the end may be left out. -/
def record? (names : List String) : Term → Option (List (Option Term))
  | array elements =>
    if elements.length ≤ names.length then
      some (elements.map some ++ List.replicate (names.length - elements.length) none)
    else
      none
  | object members => do
    let members ← members? (object members)
    names.mapM fun name =>
      match members.filter fun m => m.1 = name.toList with
      | [] => some none
      | [m] => some (some m.2)
      | _ => none
  | _ => none

end Term

end Json

end Diagnostics
