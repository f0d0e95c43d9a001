import Diagnostics.Proofs.Text.Cut
import Diagnostics.Proofs.Text.Occurrence
import Diagnostics.Proofs.Text.Trim

/-!
# Working by bytes

The functions of this library take texts apart as lists of characters, where nothing can go wrong.
A program that holds its texts in UTF-8 works by bytes instead: it computes the offsets of its cuts,
and stops when a cut is past the end or inside a character, when a span runs backwards, or when a
difference is negative.  The functions in `Bytewise` work in this way.  Each of them has no value as
soon as one of its steps has none, and the main statement about each is that it has a value, which
is the one of the function on lists of characters.
-/

namespace Diagnostics

namespace Bytewise

/-- The span from one offset to another, which must not run backwards. -/
def span? (start stop : Nat) : Option Span := if start ≤ stop then some ⟨start, stop⟩ else none

/-- The difference of two offsets, which must not be negative. -/
def difference? (m n : Nat) : Option Nat := if n ≤ m then some (m - n) else none

/-- The text from an offset on. -/
def from? (s : Text) (n : Nat) : Option Text := (Text.cutAt? n s).map Prod.snd

/-- The text up to an offset. -/
def upTo? (s : Text) (n : Nat) : Option Text := (Text.cutAt? n s).map Prod.fst

/-- The offset of the first occurrence of a literal, if there is one. -/
def find? (l s : Text) : Option Nat :=
  (Text.splitAtFirst? l s).map fun (before, _) => before.utf8Length

/-- A span less the blank characters at both ends of the text inside it. -/
def trim? (source : Text) (w : Span) : Option Span := do
  let text ← source.slice? w
  let leading ← difference? text.utf8Length text.trimStart.utf8Length
  span? (w.start + leading) (w.start + leading + text.trim.utf8Length)

variable {source s a b l : Text} {p : Piece} {c : Char}

theorem span?_add (start n : Nat) :
  span? start (start + n) = some ⟨start, start + n⟩
  := if_pos (Nat.le_add_right start n)

theorem span?_piece (p : Piece) :
  span? p.start p.stop = some p.span
  := span?_add _ _

theorem difference?_add (m n : Nat) :
  difference? (m + n) n = some m
  := by
  rw [difference?, if_pos (Nat.le_add_left n m), Nat.add_sub_cancel]

theorem from?_append (a b : Text) :
  from? (a ++ b) a.utf8Length = some b
  := by
  simp [from?]

/-- Behind a character of one byte the next offset is a cut. -/
theorem from?_append_cons (a : Text) (b : Text) (hc : c.utf8Size = 1) :
  from? (a ++ c :: b) (a.utf8Length + 1) = some b
  := by
  have h := from?_append (a ++ [c]) b
  simpa [hc] using h

/-- What is behind a cut is shorter, unless nothing is in front of it. -/
theorem length_lt_of_from? {n : Nat} (hn : n ≠ 0) (h : from? s n = some b) :
  b.length < s.length
  := by
  obtain ⟨⟨a, b⟩, hcut, rfl⟩ := Option.map_eq_some_iff.mp h
  obtain ⟨rfl, rfl⟩ := Text.cutAt?_eq_some_iff.mp hcut
  have := List.length_pos_iff.mpr (Text.utf8Length_eq_zero_iff.not.mp hn)
  rw [List.length_append]
  dsimp only
  omega

theorem length_le_of_from? {n : Nat} (h : from? s n = some b) :
  b.length ≤ s.length
  := by
  obtain ⟨⟨a, b⟩, hcut, rfl⟩ := Option.map_eq_some_iff.mp h
  obtain ⟨rfl, rfl⟩ := Text.cutAt?_eq_some_iff.mp hcut
  rw [List.length_append]
  apply Nat.le_add_left

theorem upTo?_append (a b : Text) :
  upTo? (a ++ b) a.utf8Length = some a
  := by
  simp [upTo?]

/-- Nothing stands past the end of a text, and nothing can be cut inside a character. -/
example : from? "é".toList 3 = none ∧ from? "é".toList 1 = none ∧ trim? " é".toList ⟨2, 3⟩ = none
  := by decide

/-! ### First occurrences -/

theorem find?_append {q : Text} (h : a.IsClosedBy l) :
  find? l (a ++ l ++ q) = some a.utf8Length
  := by
  rw [find?, Text.splitAtFirst?_eq_some_iff.mpr ⟨rfl, h⟩]
  rfl

theorem isClosedBy_singleton (h : c ∉ a) :
  a.IsClosedBy [c]
  := by
  induction a with
  | nil => apply Text.isClosedBy_nil
  | cons d a ih =>
      rw [List.mem_cons, not_or] at h
      rw [Text.isClosedBy_cons]
      constructor
      · rw [List.cons_prefix_cons, not_and]
        intro hcd
        apply absurd hcd h.1
      · apply ih h.2

/-- A character is found at the end of the part of a text that does not have it. -/
theorem find?_singleton (h : c ∉ a) :
  find? [c] (a ++ c :: b) = some a.utf8Length
  := by
  rw [List.append_cons, find?_append (isClosedBy_singleton h)]

theorem find?_eq_none (h : c ∉ s) :
  find? [c] s = none
  := by
  rw [find?, Option.map_eq_none_iff, Text.splitAtFirst?_eq_none_iff]
  intro hoccurs
  apply h (hoccurs.subset List.mem_cons_self)

/-! ### Trimming -/

/-- The span of a piece is trimmed to the span of the trimmed piece. -/
theorem trim?_span (h : p.IsPieceOf source) :
  trim? source p.span = some p.trim.span
  := by
  have hlength : p.text.utf8Length
      = Text.utf8Length (p.text.takeWhile Text.isBlank) + p.text.trimStart.utf8Length := by
    rw [← Text.utf8Length_append, Text.takeWhile_append_trimStart]
  rw [trim?, Piece.slice?_span h, Option.bind_eq_bind, Option.bind_some, hlength, difference?_add,
    Option.bind_eq_bind, Option.bind_some, span?_add]
  rfl

end Bytewise

end Diagnostics
