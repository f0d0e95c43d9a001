import Diagnostics.Registry.Basic

/-!
# Specificity

Several templates can fit one message.  The more specific ones are tried first: those with more
slots, then those with more literal text, and among equals those with the smaller code.
-/

namespace Diagnostics

/-- Whether `s` is tried before `t`. -/
def Template.precedes (s t : Template) : Bool :=
  t.arity < s.arity
    || (s.arity = t.arity
      && (t.literalLength < s.literalLength
        || (s.literalLength = t.literalLength && s.code < t.code)))

/-- The templates of a registry in the order in which they are tried. -/
def Registry.bySpecificity (r : Registry) : List Template :=
  r.templates.mergeSort fun s t => !t.precedes s

end Diagnostics
