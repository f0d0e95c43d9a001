import Diagnostics.Piece
import Diagnostics.Template.Basic

/-!
# Fillings

`cut` walks the segments of a template along a window of a text, from left to right and without
going back.  A literal must stand at the front of what is left; a slot before a literal takes
everything up to the first occurrence of that literal; of two slots in a row the first takes
nothing; a slot at the end takes everything that is left.  The walk succeeds when nothing is
left at its end.

A slot may occur several times.  `captures?` asks that it be filled with the same text each
time, and keeps the first of these pieces.
-/

namespace Diagnostics

/-- The piece that fills one occurrence of a slot. -/
structure Filling where
  index : Nat
  piece : Piece
  deriving DecidableEq, Repr

namespace Filling

/-- The fillings of the slots of a template, in order of occurrence. -/
def cut : List Segment → Piece → Option (List Filling)
  | [], window => if window.text.isEmpty then some [] else none
  | .literal l :: segments, window => (window.after? l).bind (cut segments)
  | [.slot i], window => some [⟨i, window⟩]
  | .slot i :: .slot j :: segments, window =>
    (cut (.slot j :: segments) window).map (⟨i, window.front⟩ :: ·)
  | .slot i :: .literal l :: segments, window =>
    (window.splitAtFirst? l).bind fun (item, rest) =>
      (cut segments rest).map (⟨i, item⟩ :: ·)

/-- The first piece that fills a slot. -/
def first? (fillings : List Filling) (index : Nat) : Option Piece :=
  (fillings.find? fun f => f.index = index).map (·.piece)

/-- Whether every slot is filled with the same text wherever it occurs. -/
def consistent (fillings : List Filling) : Bool :=
  fillings.all fun f => (first? fillings f.index).any fun p => p.text = f.piece.text

end Filling

namespace Template

/-- The pieces of a window that fill the slots of a template, by index. -/
def captures? (t : Template) (window : Piece) : Option (List Piece) :=
  (Filling.cut t.segments window).bind fun fillings =>
    if Filling.consistent fillings then
      (List.range t.arity).mapM (Filling.first? fillings)
    else
      none

/-- What comes of matching a template with a span of a text. -/
inductive SpanMatch where
  /-- The span cannot be cut out of the text. -/
  | misplaced
  /-- The template does not account for the text inside the span. -/
  | unmatched
  /-- The slots are filled with these pieces. -/
  | matched (captures : List Piece)
  deriving DecidableEq, Repr

/-- Match a template with a span of a text.  A template without segments does not look at the
text, and fits every empty span. -/
def matchSpan (t : Template) (source : Text) (w : Span) : SpanMatch :=
  if w.stop < w.start then
    .misplaced
  else if t.segments.isEmpty then
    if w.isEmpty then .matched [] else .unmatched
  else
    match source.piece? w with
    | none => .misplaced
    | some window =>
      match t.captures? window with
      | none => .unmatched
      | some captures => .matched captures

end Template

end Diagnostics
