import Diagnostics.Json.Term

/-!
# TOML values

The values of a TOML document.  Numbers keep their spelling: a document may hold numbers that no
reader can take, as long as nobody asks for them.  `isReadable` tells the numbers that can be
read, and `record?` reads a value as a record with known fields.
-/

namespace Diagnostics

namespace Toml

/-- How a table came to be, which decides whether it may be extended. -/
inductive TableKind where
  /-- By a header of its own. -/
  | header
  /-- On the way to the table of a header. -/
  | implied
  /-- By a dotted key. -/
  | dotted
  /-- In braces, all at once. -/
  | inline
  deriving DecidableEq, Repr

/-- A value of a TOML document. -/
inductive Value where
  | string (s : Text)
  | boolean (b : Bool)
  /-- A whole number in a base: a sign, if there is one, and what stands for its digits. -/
  | integer (base : Nat) (numeral : Text)
  /-- A number with a fraction or an exponent, as it is spelled. -/
  | float (spelling : Text)
  /-- A date, a time or both, as it is spelled. -/
  | moment (spelling : Text)
  | array (elements : List Value)
  /-- An array whose tables have headers of their own, the last table first. -/
  | tables (elements : List (List (Text × Value)))
  | table (kind : TableKind) (entries : List (Text × Value))
  deriving Repr, Inhabited

/-- Whether a character is a digit in a base up to 16. -/
def isDigitIn (base : Nat) (c : Char) : Bool := (Json.hexDigit? c).any (· < base)

/-- A text less the sign at its front. -/
def unsigned : Text → Text
  | '-' :: s => s
  | '+' :: s => s
  | s => s

/-- The number with the given digits in a base. -/
def natural? (base : Nat) (digits : Text) : Option Nat :=
  if !digits.isEmpty && digits.all (isDigitIn base) then
    digits.foldlM (fun n c => (Json.hexDigit? c).map (base * n + ·)) 0
  else
    none

/-- Whether a numeral in a base is a whole number of 128 bits, with or without a sign. -/
def isWholeNumber (base : Nat) (numeral : Text) : Bool :=
  (natural? base (unsigned numeral)).any fun n =>
    if numeral.head? = some '-' then n ≤ Nat.pow 2 127 else n < Nat.pow 2 128

/-- The first number that rounds to no finite binary number of 64 bits. -/
def floatBound : Nat := Nat.pow 2 1024 - Nat.pow 2 970

/-- Whether the number with the given digits and exponent of ten is less than `floatBound`. -/
def isFiniteDecimal (digits : Text) (exponent : Int) : Bool :=
  let mantissa := Nat.ofDigitChars 10 digits 0
  let width : Int := (Nat.toDigits 10 mantissa).length + exponent
  if mantissa = 0 || width ≤ 308 then true
  else if 309 < width then false
  else mantissa * Nat.pow 10 exponent.toNat < floatBound * Nat.pow 10 (-exponent).toNat

/-- Whether a spelled number is finite or says itself that it is not. -/
def isFiniteFloat (spelling : Text) : Bool :=
  let s := (unsigned spelling).filter (· ≠ '_')
  if s.contains 'n' then
    true
  else
    let mantissa := s.takeWhile fun c => c ≠ 'e' && c ≠ 'E'
    let exponent := s.drop (mantissa.length + 1)
    let whole := mantissa.takeWhile (· ≠ '.')
    let fraction := mantissa.drop (whole.length + 1)
    let size : Int := Nat.ofDigitChars 10 (exponent.filter Char.isDigit) 0
    isFiniteDecimal (whole ++ fraction)
      ((if exponent.head? = some '-' then -size else size) - fraction.length)

namespace Value

mutual

/-- Whether all numbers in a value can be read at all. -/
def isReadable : Value → Bool
  | integer base numeral => isWholeNumber base numeral
  | float spelling => isFiniteFloat spelling
  | array elements => areReadable elements
  | tables elements => areReadableTables elements
  | table _ entries => areReadableEntries entries
  | _ => true

/-- Whether all numbers in some values can be read. -/
def areReadable : List Value → Bool
  | [] => true
  | v :: vs => isReadable v && areReadable vs

/-- Whether all numbers in some tables can be read. -/
def areReadableTables : List (List (Text × Value)) → Bool
  | [] => true
  | t :: ts => areReadableEntries t && areReadableTables ts

/-- Whether all numbers in some entries can be read. -/
def areReadableEntries : List (Text × Value) → Bool
  | [] => true
  | (_, v) :: es => isReadable v && areReadableEntries es

end

/-- The text of a string. -/
def text? : Value → Option Text
  | string s => some s
  | _ => none

/-- The value of a Boolean. -/
def bool? : Value → Option Bool
  | boolean b => some b
  | _ => none

/-- Whether a value is an array or a table that holds nothing. -/
def isVoid : Value → Bool
  | array elements => elements.isEmpty
  | table _ entries => entries.isEmpty
  | _ => false

/-- The fields of a record with the given field names, in their order.  A record is a table,
where unknown entries are ignored as long as they can be read, or an array of fields in order,
where more elements than fields are ignored.  Fields may be left out, and a date or a time is a
record without any. -/
def record? (names : List String) : Value → Option (List (Option Value))
  | table _ entries =>
    if entries.all fun (key, v) => names.contains (String.ofList key) || v.isReadable then
      some (names.map fun name => entries.lookup name.toList)
    else
      none
  | array elements => some ((List.range names.length).map fun i => elements[i]?)
  | tables elements =>
    some ((List.range names.length).map fun i => elements.reverse[i]?.map (table .header))
  | moment _ => some (names.map fun _ => none)
  | _ => none

end Value

end Toml

end Diagnostics
