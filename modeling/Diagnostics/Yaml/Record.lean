import Diagnostics.Yaml.Node

/-!
# Records

`textField?` reads a text with a given name from a YAML mapping.  The keys of the mapping and
the text are scalars, whatever they look like, or aliases of scalars; the field occurs once,
and other fields are ignored.

The nodes with an anchor are numbered in their order, and the number of a node is the number of
names that are known before it.  So an anchor with a name of its own has a number of its own, but
the node that gives a known name anew shares its number with the next anchor.  An alias takes the
number that its name has where the alias stands, and stands for the last node of the document
with this number.
-/

namespace Diagnostics

namespace Yaml

/-- The nodes with an anchor that have been met. -/
structure Anchors where
  /-- The names with the numbers that they were given last. -/
  names : List (Text × Nat)
  /-- The numbers with the contents of their nodes, as far as these are scalars.  The last node
  comes first. -/
  contents : List (Nat × Option Text)

namespace Anchors

/-- No anchors. -/
def empty : Anchors := ⟨[], []⟩

/-- The anchors with one more, if a node has one. -/
def define (anchors : Anchors) (name : Option Text) (content : Option Text) : Anchors :=
  match name with
  | none => anchors
  | some name =>
    let number := anchors.names.length
    ⟨(name, number) :: anchors.names.filter (·.1 ≠ name), (number, content) :: anchors.contents⟩

/-- The number of a name. -/
def number? (anchors : Anchors) (name : Text) : Option Nat := anchors.names.lookup name

/-- The content of the last node with a number, if it is a scalar. -/
def content? (anchors : Anchors) (number : Nat) : Option Text :=
  (anchors.contents.lookup number).join

end Anchors

namespace Node

mutual

/-- The anchors after a node.  It has no value where an alias has a name that no node before it
has. -/
def anchors? : Node → Anchors → Option Anchors
  | .alias name, anchors => (anchors.number? name).map fun _ => anchors
  | .scalar anchor content, anchors => some (anchors.define anchor (some content))
  | .sequence anchor entries, anchors => entryAnchors? entries (anchors.define anchor none)
  | .mapping anchor entries, anchors => pairAnchors? entries (anchors.define anchor none)

/-- The anchors after some nodes. -/
def entryAnchors? : List Node → Anchors → Option Anchors
  | [], anchors => some anchors
  | e :: es, anchors => (anchors? e anchors).bind (entryAnchors? es)

/-- The anchors after some pairs of nodes. -/
def pairAnchors? : List (Node × Node) → Anchors → Option Anchors
  | [], anchors => some anchors
  | (k, v) :: es, anchors => ((anchors? k anchors).bind (anchors? v)).bind (pairAnchors? es)

end

/-- The text of a scalar or an alias of one, where `all` are the anchors of the document and
`before` those before the node. -/
def text? (all before : Anchors) : Node → Option Text
  | .alias name => (before.number? name).bind all.content?
  | .scalar _ content => some content
  | _ => none

/-- The texts with a given name among the entries of a mapping, where `all` are the anchors of the
document. -/
def textsNamed? (all : Anchors) (name : Text) :
    List (Node × Node) → (before : Anchors) → Option (List Text)
  | [], _ => some []
  | (k, v) :: es, before => do
    let key ← text? all before k
    let before ← anchors? k before
    let found ← if key = name then (text? all before v).map ([·]) else some []
    return found ++ (← textsNamed? all name es (← anchors? v before))

/-- The text with a given name in a mapping that is a document. -/
def textField? (name : Text) : Node → Option Text
  | .mapping anchor entries => do
    let before := Anchors.empty.define anchor none
    match ← textsNamed? (← pairAnchors? entries before) name entries before with
    | [text] => some text
    | _ => none
  | _ => none

end Node

end Yaml

end Diagnostics
