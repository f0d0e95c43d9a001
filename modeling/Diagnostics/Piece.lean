import Diagnostics.Span
import Diagnostics.Text.Blank
import Diagnostics.Text.Search

/-!
# Pieces

A piece is a part of a text that knows where it stands: its first byte and its own text.  Its
span follows from these two, so that it never runs backwards.  `IsPieceOf` says that the piece
does stand there, and `slice?_span` that its span then cuts it out of the text.
-/

namespace Diagnostics

/-- A part of a text together with the offset of its first byte. -/
structure Piece where
  start : Nat
  text : Text
  deriving DecidableEq, Repr, Inhabited

namespace Piece

/-- A text as a piece of itself. -/
def whole (s : Text) : Piece := ⟨0, s⟩

/-- The offset past the last byte of a piece. -/
def stop (p : Piece) : Nat := p.start + p.text.utf8Length

/-- The span of a piece. -/
def span (p : Piece) : Span := ⟨p.start, p.stop⟩

/-- The empty piece at the front of a piece. -/
def front (p : Piece) : Piece := ⟨p.start, []⟩

/-- A piece less the blank characters at both ends.  A blank piece leaves the empty piece at
its end. -/
def trim (p : Piece) : Piece :=
  ⟨p.start + Text.utf8Length (p.text.takeWhile Text.isBlank), p.text.trim⟩

/-- The rest of a piece after the literal that it opens with. -/
def after? (l : Text) (p : Piece) : Option Piece :=
  (l.isPrefixOf? p.text).map fun rest => ⟨p.start + l.utf8Length, rest⟩

/-- The pieces before and after the first occurrence of a literal. -/
def splitAtFirst? (l : Text) (p : Piece) : Option (Piece × Piece) :=
  (Text.splitAtFirst? l p.text).map fun (a, b) =>
    (⟨p.start, a⟩, ⟨p.start + Text.utf8Length a + l.utf8Length, b⟩)

/-- A piece stands in a text where its offset says. -/
def IsPieceOf (p : Piece) (source : Text) : Prop :=
  ∃ before after, source = before ++ p.text ++ after ∧ p.start = Text.utf8Length before

theorem isPieceOf_whole (s : Text) :
  (whole s).IsPieceOf s
  := ⟨[], [], by simp [whole], rfl⟩

/-- The span of a piece of a text cuts the piece out of the text. -/
theorem slice?_span {p : Piece} {source : Text} (h : p.IsPieceOf source) :
  source.slice? p.span = some p.text
  := by
  obtain ⟨before, after, rfl, hstart⟩ := h
  have hlength : p.span.length = Text.utf8Length p.text := by
    simp [span, stop, Span.length]
  have hfirst := Text.cutAt?_append before (p.text ++ after)
  have hsecond := Text.cutAt?_append p.text after
  rw [Text.slice?, if_pos (by simp [span, stop]), hlength, span, hstart, List.append_assoc,
    hfirst]
  simp [hsecond]

end Piece

/-- The piece of a text inside a span. -/
def Text.piece? (s : Text) (w : Span) : Option Piece :=
  (s.slice? w).map (⟨w.start, ·⟩)

end Diagnostics
