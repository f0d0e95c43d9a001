import Diagnostics.Yaml.Token

/-!
# Nodes

A YAML document is a tree of nodes: aliases, scalars, sequences and mappings.  A node without
any content is an empty scalar.  `ofText?` reads a text that holds a single document.
-/

namespace Diagnostics

namespace Yaml

/-- A node of a document. -/
inductive Node where
  /-- Another node of the document, by the name of its anchor. -/
  | alias (name : Text)
  | scalar (anchor : Option Text) (content : Text)
  | sequence (anchor : Option Text) (entries : List Node)
  | mapping (anchor : Option Text) (entries : List (Node × Node))
  deriving Repr, Inhabited

namespace Node

/-- The node without content. -/
def empty : Node := scalar none []

/-- The handles that need no declaration. -/
def commonHandles : List Text := [[], ['!'], ['!', '!']]

/-- The anchor and the handles of the tags before a node, and the tokens after them.  There may
be one anchor and one tag, in any order. -/
def properties : List Token → Option Text × Option Text × List Token
  | .anchor a :: .tag h :: ts => (some a, some h, ts)
  | .tag h :: .anchor a :: ts => (some a, some h, ts)
  | .anchor a :: ts => (some a, none, ts)
  | .tag h :: ts => (none, some h, ts)
  | ts => (none, none, ts)

/-- Where a node stands, which decides what it may be. -/
inductive Place where
  /-- In a flow collection. -/
  | flow
  /-- In a block collection. -/
  | block
  /-- In a block mapping, where a sequence needs no indentation. -/
  | mapping
  deriving DecidableEq, Repr

mutual

/-- The node that begins a list of tokens, and the tokens after it. -/
def ofTokens? (handles : List Text) :
    (fuel : Nat) → Place → List Token → Option (Node × List Token)
  | 0, _, _ => none
  | fuel + 1, place, tokens =>
    match tokens with
    | .alias name :: ts => some (.alias name, ts)
    | tokens =>
      let (anchor, tag, rest) := properties tokens
      if tag.any fun h => !handles.contains h then
        none
      else
        match place, rest with
        | .mapping, .blockEntry :: _ =>
          (indentless? handles fuel rest).map fun (es, ts) => (.sequence anchor es, ts)
        | _, .scalar content :: ts => some (.scalar anchor content, ts)
        | _, .flowSequenceStart :: ts =>
          (flowSequence? handles fuel true ts).map fun (es, ts) => (.sequence anchor es, ts)
        | _, .flowMappingStart :: ts =>
          (flowMapping? handles fuel true ts).map fun (es, ts) => (.mapping anchor es, ts)
        | .flow, ts => if anchor.isSome || tag.isSome then some (.scalar anchor [], ts) else none
        | _, .blockSequenceStart :: ts =>
          (blockSequence? handles fuel ts).map fun (es, ts) => (.sequence anchor es, ts)
        | _, .blockMappingStart :: ts =>
          (blockMapping? handles fuel ts).map fun (es, ts) => (.mapping anchor es, ts)
        | _, ts => if anchor.isSome || tag.isSome then some (.scalar anchor [], ts) else none

/-- The entries of a sequence that is not indented: it ends where no entry follows. -/
def indentless? (handles : List Text) :
    (fuel : Nat) → List Token → Option (List Node × List Token)
  | 0, _ => none
  | fuel + 1, .blockEntry :: ts => do
    let (e, ts) ←
      match ts with
      | .blockEntry :: _ | .key :: _ | .value :: _ | .blockEnd :: _ => some (empty, ts)
      | ts => ofTokens? handles fuel .block ts
    let (es, ts) ← indentless? handles fuel ts
    return (e :: es, ts)
  | _, ts => some ([], ts)

/-- The entries of a block sequence, with its end. -/
def blockSequence? (handles : List Text) :
    (fuel : Nat) → List Token → Option (List Node × List Token)
  | 0, _ => none
  | _, .blockEnd :: ts => some ([], ts)
  | fuel + 1, .blockEntry :: ts => do
    let (e, ts) ←
      match ts with
      | .blockEntry :: _ | .blockEnd :: _ => some (empty, ts)
      | ts => ofTokens? handles fuel .block ts
    let (es, ts) ← blockSequence? handles fuel ts
    return (e :: es, ts)
  | _, _ => none

/-- The entries of a block mapping, with its end. -/
def blockMapping? (handles : List Text) :
    (fuel : Nat) → List Token → Option (List (Node × Node) × List Token)
  | 0, _ => none
  | _, .blockEnd :: ts => some ([], ts)
  | fuel + 1, .key :: ts => do
    let (k, ts) ←
      match ts with
      | .key :: _ | .value :: _ | .blockEnd :: _ => some (empty, ts)
      | ts => ofTokens? handles fuel .mapping ts
    let (v, ts) ←
      match ts with
      | .value :: ts =>
        match ts with
        | .key :: _ | .value :: _ | .blockEnd :: _ => some (empty, ts)
        | ts => ofTokens? handles fuel .mapping ts
      | ts => some (empty, ts)
    let (es, ts) ← blockMapping? handles fuel ts
    return ((k, v) :: es, ts)
  | _, _ => none

/-- The entries of a flow sequence, with its end.  A key makes a mapping of one entry. -/
def flowSequence? (handles : List Text) :
    (fuel : Nat) → (first : Bool) → List Token → Option (List Node × List Token)
  | 0, _, _ => none
  | _, _, .flowSequenceEnd :: ts => some ([], ts)
  | fuel + 1, first, ts => do
    let ts ←
      match first, ts with
      | true, ts => some ts
      | false, .flowEntry :: ts => some ts
      | false, _ => none
    match ts with
    | .flowSequenceEnd :: ts => return ([], ts)
    | .key :: ts =>
      let (k, ts) ←
        match ts with
        | .value :: ts | .flowEntry :: ts | .flowSequenceEnd :: ts => some (empty, ts)
        | ts => ofTokens? handles fuel .flow ts
      let (v, ts) ←
        match ts with
        | .value :: ts =>
          match ts with
          | .flowEntry :: _ | .flowSequenceEnd :: _ => some (empty, ts)
          | ts => ofTokens? handles fuel .flow ts
        | ts => some (empty, ts)
      let (es, ts) ← flowSequence? handles fuel false ts
      return (.mapping none [(k, v)] :: es, ts)
    | ts =>
      let (e, ts) ← ofTokens? handles fuel .flow ts
      let (es, ts) ← flowSequence? handles fuel false ts
      return (e :: es, ts)

/-- The entries of a flow mapping, with its end. -/
def flowMapping? (handles : List Text) :
    (fuel : Nat) → (first : Bool) → List Token → Option (List (Node × Node) × List Token)
  | 0, _, _ => none
  | _, _, .flowMappingEnd :: ts => some ([], ts)
  | fuel + 1, first, ts => do
    let ts ←
      match first, ts with
      | true, ts => some ts
      | false, .flowEntry :: ts => some ts
      | false, _ => none
    match ts with
    | .flowMappingEnd :: ts => return ([], ts)
    | .key :: ts =>
      let (k, ts) ←
        match ts with
        | .value :: _ | .flowEntry :: _ | .flowMappingEnd :: _ => some (empty, ts)
        | ts => ofTokens? handles fuel .flow ts
      let (v, ts) ←
        match ts with
        | .value :: ts =>
          match ts with
          | .flowEntry :: _ | .flowMappingEnd :: _ => some (empty, ts)
          | ts => ofTokens? handles fuel .flow ts
        | ts => some (empty, ts)
      let (es, ts) ← flowMapping? handles fuel false ts
      return ((k, v) :: es, ts)
    | ts =>
      let (k, ts) ← ofTokens? handles fuel .flow ts
      let (es, ts) ← flowMapping? handles fuel false ts
      return ((k, empty) :: es, ts)

end

/-- The directives at the front of a list of tokens, and the tokens after them. -/
def directives : List Token → List Directive × List Token
  | .directive d :: ts => let (ds, rest) := directives ts; (d :: ds, rest)
  | ts => ([], ts)

/-- The handles that directives declare.  There may be one version, of YAML 1.1 or 1.2, and one
declaration of each handle. -/
def handles? (ds : List Directive) : Option (List Text) :=
  let versions := ds.filter fun d => d matches .version ..
  let declared := ds.filterMap fun d => if let .tag h := d then some h else none
  if versions.length ≤ 1 && versions.all (fun d => d = .version 1 1 || d = .version 1 2)
      && declared.eraseDups.length = declared.length then
    some (commonHandles ++ declared)
  else
    none

/-- Whether a document has no content before these tokens. -/
def endsDocument : List Token → Bool
  | [] | .directive _ :: _ | .documentStart :: _ | .documentEnd :: _ => true
  | _ => false

/-- The first document of a list of tokens, and the tokens after it.  A document may begin
without a mark. -/
def document? (tokens : List Token) : Option (Node × List Token) := do
  let fuel := 2 * tokens.length + 2
  let (ds, rest) := directives tokens
  let handles ← handles? ds
  match rest with
  | .documentStart :: ts =>
    if endsDocument ts then some (empty, ts) else ofTokens? handles fuel .block ts
  | ts => if ds.isEmpty && !ts.isEmpty then ofTokens? handles fuel .block ts else none

/-- The root of the only document of a text. -/
def ofText? (s : Text) : Option Node := do
  let (root, rest) ← document? (← Token.ofText? s)
  if rest.all (· = .documentEnd) then some root else none

end Node

end Yaml

end Diagnostics
