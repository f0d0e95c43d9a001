import Diagnostics.Text.Basic

/-!
# First occurrences

`splitAtFirst? l s` cuts `s` around the first occurrence of `l` in it.
-/

namespace Diagnostics

namespace Text

/-- The text before the first occurrence of `l` and the text after it. -/
def splitAtFirst? (l : Text) : Text → Option (Text × Text)
  | [] => if l = [] then some ([], []) else none
  | c :: s =>
    match l.isPrefixOf? (c :: s) with
    | some rest => some ([], rest)
    | none => (splitAtFirst? l s).map fun (a, b) => (c :: a, b)

end Text

end Diagnostics
