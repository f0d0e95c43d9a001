import Diagnostics.Options
import Diagnostics.Piece
import Mathlib.Data.List.Basic
import Mathlib.Tactic.Use

/-!
# Encodings

A text is encoded in the unit of its offsets, as bytes in UTF-8 or as code units in UTF-16.  An
offset of a text in a unit is the number of units that encode what stands in front of it.
-/

namespace Diagnostics

namespace OffsetUnit

/-- The units that encode a character: its bytes in UTF-8, or its code units in UTF-16, where a
character beyond the basic plane is a pair of surrogates. -/
def units : OffsetUnit → Char → List Nat
  | utf8, c => (String.utf8EncodeChar c).map UInt8.toNat
  | utf16, c =>
    if c.toNat < 0x10000 then
      [c.toNat]
    else
      [0xD800 + (c.toNat - 0x10000) / 0x400, 0xDC00 + (c.toNat - 0x10000) % 0x400]

/-- The units that encode a text. -/
def encode (unit : OffsetUnit) (s : Text) : List Nat := s.flatMap unit.units

/-- Between the offsets `start` and `stop` in a unit, a source holds a text. -/
def Cuts (unit : OffsetUnit) (source : Text) (start stop : Nat) (text : Text) : Prop :=
  ∃ before after, source = before ++ text ++ after ∧ start = (unit.encode before).length
    ∧ stop = (unit.encode (before ++ text)).length

variable {unit : OffsetUnit} {source text : Text} {start stop : Nat}

@[simp]
theorem encode_append (unit : OffsetUnit) (s t : Text) :
  unit.encode (s ++ t) = unit.encode s ++ unit.encode t
  := List.flatMap_append

/-- What a source holds between two offsets is encoded by the units between them. -/
theorem Cuts.extract_encode (h : unit.Cuts source start stop text) :
  (unit.encode source).extract start stop = unit.encode text
  := by
  obtain ⟨before, after, rfl, rfl, rfl⟩ := h
  rw [encode_append, encode_append, List.length_append, List.append_assoc,
    List.extract_eq_take_drop, List.drop_left, Nat.add_sub_cancel_left, List.take_left]

theorem length_encode_utf8 (s : Text) :
  (utf8.encode s).length = s.utf8Length
  := by
  induction s with
  | nil => rfl
  | cons c s ih =>
      rw [encode] at ih ⊢
      simp [ih, units]

theorem length_units_utf16 (c : Char) :
  (utf16.units c).length = Text.utf16Width c
  := by
  rw [units, Text.utf16Width]
  split
  · rfl
  · rfl

theorem utf16Before_cons (c : Char) (s : Text) (n : Nat) :
  Text.utf16Before (c :: s) (c.utf8Size + n) = Text.utf16Width c + Text.utf16Before s n
  := by
  obtain ⟨m, hm⟩ := Nat.exists_eq_add_of_lt c.utf8Size_pos
  rw [hm, show 0 + m + 1 + n = m + n + 1 by omega, Text.utf16Before]
  congr 2
  omega

theorem utf16Before_append (s t : Text) :
  Text.utf16Before (s ++ t) s.utf8Length = (utf16.encode s).length
  := by
  induction s with
  | nil => cases t <;> rfl
  | cons c s ih =>
      rw [encode] at ih ⊢
      simp [utf16Before_cons, ih, length_units_utf16]

/-- The byte offset behind a text is turned into the number of units that encode it. -/
@[simp]
theorem offset_append (unit : OffsetUnit) (s t : Text) :
  unit.offset (s ++ t) s.utf8Length = (unit.encode s).length
  := by
  cases unit with
  | utf8 => rw [length_encode_utf8, offset]
  | utf16 => rw [offset, utf16Before_append]

/-- The offsets of the span of a piece cut the piece out of its source. -/
theorem cuts_of_isPieceOf (unit : OffsetUnit) {p : Piece} (h : p.IsPieceOf source) :
  unit.Cuts source (unit.offset source p.span.start) (unit.offset source p.span.stop) p.text
  := by
  obtain ⟨before, after, rfl, hstart⟩ := h
  use before, after, rfl
  constructor
  · simp [Piece.span, hstart]
  · rw [Piece.span, Piece.stop, hstart, ← Text.utf8Length_append, offset_append]

end OffsetUnit

end Diagnostics
