import Diagnostics.Files.Tree
import Diagnostics.Json.Reader
import Diagnostics.Registry.Basic

/-!
# Reading a registry

A table of messages is a JSON object: each member is named by a pattern, and its value is a
record of a category and a code.  A pattern that is repeated stays where it stood first and
takes its last record.  How a text is read as a JSON term is left open, and a file is read by
`Json.Term.ofText?`.
-/

namespace Diagnostics

namespace Registry

/-- The codes of a written table are smaller than this. -/
def codeBound : Nat := Nat.pow 2 32

/-- The entry of one member. -/
def Entry.ofMember? (pattern : Text) (record : Json.Term) : Option Entry := do
  match ← record.record? ["category", "code"] with
  | [some category, some code] =>
    let category ← category.text?
    let code ← code.nat?
    if code < codeBound then some ⟨pattern, String.ofList category, code⟩ else none
  | _ => none

/-- Entries with one more, in the place of the one with its pattern. -/
def Entry.put (e : Entry) : List Entry → List Entry
  | [] => [e]
  | f :: fs => if f.pattern = e.pattern then e :: fs else f :: put e fs

/-- The entries of a table of messages, one for each pattern. -/
def entries? (json : Text → Option Json.Term) (content : Text) : Option (List Entry) := do
  let members ← (← json content).members?
  let entries ← members.mapM fun (pattern, record) => Entry.ofMember? pattern record
  return entries.foldl (fun es e => e.put es) []

/-- The registry of a table of messages, and what there is to tell about its entries. -/
def ofJson? (json : Text → Option Json.Term) (content : Text) :
    Option (Registry × List Warning) :=
  (entries? json content).map ofEntries

/-- Why a registry cannot be loaded. -/
inductive LoadError where
  /-- The file cannot be read. -/
  | unreadable (path : Path) (error : FileError)
  /-- The content is no table of messages. -/
  | notJson
  deriving DecidableEq, Repr

/-- What a load error says. -/
def LoadError.message : LoadError → Text
  | unreadable path error => "failed to read ".toList ++ path ++ (": " ++ error.message).toList
  | notJson => "invalid diagnostic messages JSON".toList

/-- The registry in a file, and what there is to tell about its entries. -/
def load (files : FileTree) (path : Path) : Except LoadError (Registry × List Warning) :=
  match files.read path with
  | .error error => .error (.unreadable path error)
  | .ok content =>
    match ofJson? Json.Term.ofText? content with
    | some r => .ok r
    | none => .error .notJson

end Registry

end Diagnostics
