import Diagnostics.Text.Basic

/-!
# Notices

What a warning says: a fixed message and the details that go with it, as named texts.
-/

namespace Diagnostics

/-- A message with its details. -/
structure Notice where
  message : String
  details : List (String × Text)
  deriving DecidableEq, Repr

end Diagnostics
