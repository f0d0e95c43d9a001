import Diagnostics.Explanation.Basic
import Diagnostics.Json.Writer

/-!
# Findings

A finding is what is reported about one message: its code and the pattern of its template, its
explanation if there is one, where the message stands and the items that fill the template.  The
items are reported as a list, or each under a name of its own: the first ten by their ordinals
and the others by their numbers.
-/

namespace Diagnostics

/-- Where a message stands and what fills its template. -/
structure ParseInfo where
  startIndex : Nat
  endIndex : Nat
  items : List Text
  /-- Whether each item is reported under a name of its own. -/
  legacyItemFields : Bool
  deriving DecidableEq, Repr

/-- What is reported about one message. -/
structure Finding where
  code : Nat
  /-- The pattern of the template. -/
  error : Text
  improvedError : Option Explanation
  parseInfo : ParseInfo
  deriving DecidableEq, Repr

namespace ParseInfo

/-- The names of the first items. -/
def ordinalNames : List String :=
  ["firstItem", "secondItem", "thirdItem", "fourthItem", "fifthItem", "sixthItem", "seventhItem",
    "eighthItem", "ninthItem", "tenthItem"]

/-- The name of the item with an index. -/
def itemName (index : Nat) : Text :=
  match ordinalNames[index]? with
  | some name => name.toList
  | none => "item".toList ++ Nat.toDigits 10 (index + 1)

/-- The members that report the items. -/
def itemMembers (info : ParseInfo) : List (Text × Json) :=
  if info.legacyItemFields then
    info.items.mapIdx fun index item => (itemName index, .string item)
  else
    [("items".toList, .array (info.items.map .string))]

/-- A parse information as JSON. -/
def toJson (info : ParseInfo) : Json :=
  .object (("startIndex".toList, .number info.startIndex)
    :: ("endIndex".toList, .number info.endIndex) :: info.itemMembers)

end ParseInfo

/-- An explanation as JSON. -/
def Explanation.toJson (e : Explanation) : Json :=
  .object [("body".toList, .string e.body), ("excerpt".toList, .string e.excerpt)]

namespace Finding

/-- A finding as JSON. -/
def toJson (f : Finding) : Json :=
  .object [("code".toList, .number f.code), ("error".toList, .string f.error),
    ("improvedError".toList, f.improvedError.elim .null Explanation.toJson),
    ("parseInfo".toList, f.parseInfo.toJson)]

/-- Findings as JSON. -/
def listToJson (fs : List Finding) : Json := .array (fs.map toJson)

end Finding

end Diagnostics
