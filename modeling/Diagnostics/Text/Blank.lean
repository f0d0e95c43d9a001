import Diagnostics.Text.Basic

/-!
# Blank characters

`isBlank` is the property `White_Space` of the Unicode character database: the tabs and line
breaks, the spaces of all widths, and the separators of lines and paragraphs.  A blank text
holds blank characters only.
-/

namespace Diagnostics

namespace Text

/-- The code points with the property `White_Space`, as closed ranges. -/
def blankRanges : List (Nat × Nat) :=
  [(0x09, 0x0D), (0x20, 0x20), (0x85, 0x85), (0xA0, 0xA0), (0x1680, 0x1680), (0x2000, 0x200A),
    (0x2028, 0x2029), (0x202F, 0x202F), (0x205F, 0x205F), (0x3000, 0x3000)]

/-- Whether a character is white space. -/
def isBlank (c : Char) : Bool :=
  blankRanges.any fun (lo, hi) => lo ≤ c.toNat && c.toNat ≤ hi

/-- Whether a text holds blank characters only. -/
def isBlankText (s : Text) : Bool := s.all isBlank

/-- A text less the blank characters at its front. -/
def trimStart (s : Text) : Text := s.dropWhile isBlank

/-- A text less the blank characters at its back. -/
def trimEnd (s : Text) : Text := (s.reverse.dropWhile isBlank).reverse

/-- A text less the blank characters at its front and its back. -/
def trim (s : Text) : Text := trimEnd (trimStart s)

theorem takeWhile_append_trimStart (s : Text) :
  s.takeWhile isBlank ++ trimStart s = s
  := List.takeWhile_append_dropWhile

theorem trimStart_of_blank {s : Text} (h : isBlankText s = true) :
  trimStart s = []
  := by
  induction s with
  | nil => rfl
  | cons c s ih =>
    rw [isBlankText, List.all_cons, Bool.and_eq_true] at h
    rw [trimStart, List.dropWhile_cons_of_pos h.1]
    exact ih h.2

theorem trim_of_blank {s : Text} (h : isBlankText s = true) :
  trim s = []
  := by
  rw [trim, trimStart_of_blank h]
  rfl

end Text

end Diagnostics
