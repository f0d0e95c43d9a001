import Diagnostics.Text.Basic

/-!
# Spans

A span is a half-open range of byte offsets into a text.  `slice?` is the part of a text inside
a span: it exists when the span does not run backwards and both bounds fall between two
characters of the text.
-/

namespace Diagnostics

/-- A half-open range of byte offsets. -/
structure Span where
  start : Nat
  stop : Nat
  deriving DecidableEq, Repr, Inhabited

namespace Span

/-- The number of bytes inside a span. -/
def length (s : Span) : Nat := s.stop - s.start

/-- Whether a span holds no byte. -/
def isEmpty (s : Span) : Bool := s.start = s.stop

/-- A span as it is written: `3..10`. -/
def display (s : Span) : String := toString s.start ++ ".." ++ toString s.stop

end Span

/-- The part of a text inside a span. -/
def Text.slice? (s : Text) (w : Span) : Option Text :=
  if w.start ≤ w.stop then
    (Text.cutAt? w.start s).bind fun (_, rest) =>
      (Text.cutAt? w.length rest).map fun (inside, _) => inside
  else
    none

end Diagnostics
