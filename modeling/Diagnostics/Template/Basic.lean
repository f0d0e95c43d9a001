import Diagnostics.Category
import Diagnostics.Template.Segment

/-!
# Templates

A template is a numbered pattern whose slots can be filled: no index is larger than
`maxIndex`, and the indices are those below the arity, without a gap.  A pattern that
breaks the first rule is refused for its first large index, and one that breaks only the
second for the least index it lacks.
-/

namespace Diagnostics

/-- Why a pattern is not a template. -/
inductive TemplateError where
  /-- An index is larger than `Template.maxIndex`. -/
  | indexTooLarge (code index : Nat)
  /-- An index is absent although a larger one occurs. -/
  | notContiguous (code missing : Nat)
  deriving DecidableEq, Repr

namespace TemplateError

/-- What is wrong with the pattern. -/
def message : TemplateError → String
  | indexTooLarge code index =>
    "placeholder " ++ String.ofList (Placeholder.write index) ++ " in code " ++ toString code
      ++ " exceeds the supported maximum"
  | notContiguous code missing =>
    "placeholders in code " ++ toString code ++ " are not contiguous from "
      ++ String.ofList (Placeholder.write 0) ++ ": missing "
      ++ String.ofList (Placeholder.write missing)

end TemplateError

/-- The largest index of a slot. -/
def Template.maxIndex : Nat := 31

/-- What forbids the segments of a pattern as a template with the given code. -/
def Template.fault? (code : Nat) (segments : List Segment) : Option TemplateError :=
  match (Segment.indices segments).find? (fun i => Template.maxIndex < i) with
  | some i => some (.indexTooLarge code i)
  | none =>
    ((List.range (Segment.arity segments)).find? fun i =>
      !(Segment.indices segments).contains i).map (.notContiguous code)

/-- A diagnostic message template. -/
structure Template where
  code : Nat
  category : Category
  pattern : Text
  /-- The segments of the pattern, in order. -/
  segments : List Segment
  segments_eq : segments = Segment.ofText pattern
  fault?_eq : Template.fault? code segments = none
  deriving DecidableEq

namespace Template

/-- The template of a pattern; its category is the default one. -/
def ofPattern (code : Nat) (pattern : Text) : Except TemplateError Template :=
  let segments := Segment.ofText pattern
  match h : fault? code segments with
  | some e => .error e
  | none => .ok ⟨code, default, pattern, segments, rfl, h⟩

/-- A template under another category. -/
def withCategory (t : Template) (category : Category) : Template :=
  { t with category := category }

/-- The number of distinct slots. -/
def arity (t : Template) : Nat := Segment.arity t.segments

/-- The number of bytes of the literals. -/
def literalLength (t : Template) : Nat :=
  t.segments.foldr (fun s n => s.literalLength + n) 0

/-- The pattern with `items[i]` in place of the slots of index `i`.  A slot without an item
becomes the placeholder of its index. -/
def render (t : Template) (items : List Text) : Text :=
  t.segments.flatMap (Segment.render items)

end Template

end Diagnostics
