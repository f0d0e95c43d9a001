import Diagnostics.Explanation.FrontMatter
import Diagnostics.Explanation.Substitution
import Diagnostics.Files.Tree
import Diagnostics.Notice
import Diagnostics.Yaml.Record

/-!
# Explanations

An explanation of a message has an excerpt and a body, and both speak about the items of the
message.  It is made from the document for the code of the message: the excerpt is a field of
its front matter.  Documents come from a source, which is a table or a directory, and the source
says how their front matter is read.
-/

namespace Diagnostics

/-- The explanation of a message. -/
structure Explanation where
  body : Text
  excerpt : Text
  deriving DecidableEq, Repr

namespace Explanation

/-- Why there is no explanation. -/
inductive Error where
  /-- There is no document for the code. -/
  | notFound (code : Nat)
  /-- The document cannot be read. -/
  | unreadable (path : Path) (error : FileError)
  /-- The document has no front matter. -/
  | missingFrontMatter (code : Nat)
  /-- The front matter has no excerpt. -/
  | frontMatter (code : Nat)
  deriving DecidableEq, Repr

/-- What an error says. -/
def Error.message : Error → Text
  | notFound code => "no explanation document for code ".toList ++ Nat.toDigits 10 code
  | unreadable path error =>
    "failed to read ".toList ++ path ++ (": " ++ error.message).toList
  | missingFrontMatter code =>
    "explanation for code ".toList ++ Nat.toDigits 10 code
      ++ " has no front matter block".toList
  | frontMatter code =>
    "invalid front matter in explanation for code ".toList ++ Nat.toDigits 10 code

/-- The excerpt in a front matter. -/
def excerpt? (matter : Text) : Option Text :=
  (Yaml.Node.ofText? matter).bind (Yaml.Node.textField? "excerpt".toList)

/-- A source of explanation documents. -/
structure Source where
  /-- The document for a code. -/
  read : Nat → Except Error Text
  /-- The excerpt in the front matter of a document. -/
  excerpt? : Text → Option Text := Explanation.excerpt?

namespace Source

/-- The documents of a table. -/
def ofTable (documents : List (Nat × Text)) : Source where
  read code :=
    match documents.lookup code with
    | some document => .ok document
    | none => .error (.notFound code)

/-- The name of the document for a code. -/
def fileName (code : Nat) : Path := Nat.toDigits 10 code ++ ".md".toList

/-- The documents in a directory. -/
def ofDirectory (files : FileTree) (dir : Path) : Source where
  read code :=
    let path := dir.join (fileName code)
    match files.read path with
    | .ok document => .ok document
    | .error .notFound => .error (.notFound code)
    | .error error => .error (.unreadable path error)

end Source

/-- The explanation that a document gives for the items of a message. -/
def ofDocument (source : Source) (code : Nat) (items : List Text) (document : Text) :
    Except Error Explanation :=
  match FrontMatter.split? document with
  | none => .error (.missingFrontMatter code)
  | some (matter, body) =>
    match source.excerpt? matter with
    | none => .error (.frontMatter code)
    | some excerpt =>
      .ok ⟨Substitution.bare.substitute items body, Substitution.quoted.substitute items excerpt⟩

/-- The explanation of a message, by its code and its items. -/
def load (source : Source) (code : Nat) (items : List Text) : Except Error Explanation :=
  (source.read code).bind (ofDocument source code items)

/-- An explanation that exists but cannot be used. -/
structure Warning where
  code : Nat
  error : Error
  deriving DecidableEq, Repr

/-- What a warning says. -/
def Warning.notice (w : Warning) : Notice :=
  ⟨"Ignoring unreadable explanation",
    [("code", Nat.toDigits 10 w.code), ("err", w.error.message)]⟩

/-- The explanation of a message, if there is one, and what there is to tell about it.  That
there is no document goes without saying. -/
def loadOrWarn (source : Source) (code : Nat) (items : List Text) :
    Option Explanation × List Warning :=
  match load source code items with
  | .ok e => (some e, [])
  | .error (.notFound _) => (none, [])
  | .error error => (none, [⟨code, error⟩])

end Explanation

end Diagnostics
