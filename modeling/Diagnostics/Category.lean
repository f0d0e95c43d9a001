import Diagnostics.Text.Basic

/-!
# Categories

The four categories of a diagnostic message and their names.
-/

namespace Diagnostics

/-- The category of a diagnostic message. -/
inductive Category where
  | error
  | warning
  | suggestion
  | message
  deriving DecidableEq, Repr

namespace Category

/-- A message is an error unless its category says otherwise. -/
instance : Inhabited Category := ⟨error⟩

/-- The name of a category. -/
def name : Category → String
  | error => "Error"
  | warning => "Warning"
  | suggestion => "Suggestion"
  | message => "Message"

/-- The category of a name. -/
def ofName? (s : String) : Option Category :=
  [error, warning, suggestion, message].find? (·.name = s)

/-- What is wrong with a name that names no category. -/
def unknownMessage (s : String) : String :=
  "unknown diagnostic category `" ++ s ++ "`"

end Category

end Diagnostics
