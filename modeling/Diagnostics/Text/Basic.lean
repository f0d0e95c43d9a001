/-!
# Texts

A text is the list of its characters.  `utf8Length` measures a text in bytes; `cutAt?` cuts a text
at a byte offset, and has no value at an offset that is past the end or inside a character.
`utf16Before` turns a byte offset into an offset in code units, and `dropMark` leaves out a byte
order mark.
-/

namespace Diagnostics

/-- A text is the list of its characters. -/
abbrev Text := List Char

namespace Text

/-- The number of UTF-16 code units of a character. -/
def utf16Width (c : Char) : Nat := if c.toNat < 0x10000 then 1 else 2

/-- The number of bytes of a text in UTF-8. -/
def utf8Length (s : Text) : Nat := s.foldr (fun c n => c.utf8Size + n) 0

/-- A text less one byte order mark at its front. -/
def dropMark : Text → Text
  | [] => []
  | c :: s => if c = '\ufeff' then s else c :: s

/-- The first `n` bytes of a text and the text after them, where the cut falls between two
characters. -/
def cutAt? : Nat → Text → Option (Text × Text)
  | 0, s => some ([], s)
  | _ + 1, [] => none
  | n + 1, c :: s =>
    if c.utf8Size ≤ n + 1 then
      (cutAt? (n + 1 - c.utf8Size) s).map fun (a, b) => (c :: a, b)
    else
      none

/-- The number of code units of the characters that begin before byte `n`. -/
def utf16Before : Text → Nat → Nat
  | [], _ => 0
  | _ :: _, 0 => 0
  | c :: s, n + 1 => utf16Width c + utf16Before s (n + 1 - c.utf8Size)

/-- The offset in code units of a byte offset that falls between two characters. -/
def utf16Offset? (s : Text) (n : Nat) : Option Nat :=
  (cutAt? n s).map fun _ => utf16Before s n

/-! ### Cuts -/

@[simp]
theorem utf8Length_nil :
  utf8Length [] = 0
  := rfl

@[simp]
theorem utf8Length_cons (c : Char) (s : Text) :
  utf8Length (c :: s) = c.utf8Size + utf8Length s
  := rfl

@[simp]
theorem utf8Length_append (s t : Text) :
  utf8Length (s ++ t) = utf8Length s + utf8Length t
  := by
  induction s with
  | nil => simp
  | cons c s ih => simp [ih, Nat.add_assoc]

@[simp]
theorem cutAt?_zero (s : Text) :
  cutAt? 0 s = some ([], s)
  := by
  cases s <;> rfl

theorem cutAt?_cons (c : Char) (n : Nat) (s : Text) :
  cutAt? (c.utf8Size + n) (c :: s) = (cutAt? n s).map fun (a, b) => (c :: a, b)
  := by
  have := c.utf8Size_pos
  obtain ⟨m, hm⟩ := Nat.exists_eq_add_of_lt this
  rw [hm, show 0 + m + 1 + n = (m + n) + 1 by omega, cutAt?, if_pos (by omega)]
  congr 2
  omega

/-- A text is cut between any two of its parts. -/
@[simp]
theorem cutAt?_append (s t : Text) :
  cutAt? (utf8Length s) (s ++ t) = some (s, t)
  := by
  induction s with
  | nil => simp
  | cons c s ih => simp [cutAt?_cons, ih]

end Text

end Diagnostics
