import Diagnostics.Files.Path
import Diagnostics.Json.Reader

/-!
# Options

What can be chosen about a parse: where explanations are found, in which unit offsets are
reported, and whether items are reported under names of their own.
-/

namespace Diagnostics

/-- The unit in which offsets are reported. -/
inductive OffsetUnit where
  | utf8
  | utf16
  deriving DecidableEq, Repr

namespace OffsetUnit

/-- Offsets count bytes unless another unit is asked for. -/
instance : Inhabited OffsetUnit := ⟨utf8⟩

/-- The name of a unit. -/
def name : OffsetUnit → String
  | utf8 => "utf8"
  | utf16 => "utf16"

/-- The unit of a name. -/
def ofName? (s : String) : Option OffsetUnit := [utf8, utf16].find? (·.name = s)

/-- The offset in a unit of a byte offset in a text. -/
def offset (unit : OffsetUnit) (source : Text) (n : Nat) : Nat :=
  match unit with
  | utf8 => n
  | utf16 => source.utf16Before n

end OffsetUnit

/-- The options of a parse. -/
structure Options where
  /-- The directory of the explanation documents. -/
  dir : Option Path := none
  /-- The unit of the reported offsets. -/
  offsets : OffsetUnit := .utf8
  /-- Whether each item is reported under a name of its own. -/
  legacyItemFields : Bool := false
  deriving DecidableEq, Repr, Inhabited

namespace Options

/-- The unit that a JSON term names: a string, or an object whose only member has the name of
the unit and no value. -/
def unitOfTerm? (t : Json.Term) : Option OffsetUnit := do
  match t with
  | .object _ =>
    match ← t.members? with
    | [(name, .null)] => OffsetUnit.ofName? (String.ofList name)
    | _ => none
  | t => OffsetUnit.ofName? (String.ofList (← t.text?))

/-- The directory that a JSON term names, if it names one. -/
def dirOfTerm? : Json.Term → Option (Option Path)
  | .null => some none
  | t => t.text?.map some

/-- The options of a JSON record.  Fields that are left out keep their defaults. -/
def ofTerm? (t : Json.Term) : Option Options := do
  match ← t.record? ["dir", "offsets", "legacy_item_fields"] with
  | [dir, offsets, legacy] =>
    return ⟨← dir.elim (some none) dirOfTerm?, ← offsets.elim (some .utf8) unitOfTerm?,
      ← legacy.elim (some false) Json.Term.bool?⟩
  | _ => none

/-- The options of a JSON text. -/
def ofJson? (s : Text) : Option Options := (Json.Term.ofText? s).bind ofTerm?

end Options

end Diagnostics
