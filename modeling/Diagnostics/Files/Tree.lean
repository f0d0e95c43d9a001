import Diagnostics.Files.Path

/-!
# File trees

A file tree holds files and directories below a root.  Files and empty directories are listed
with the names on the way to them; every directory on such a way is there, too.  A path is
followed name by name, from the root if it is absolute and else from the directory in which
relative paths begin; two dots lead back to the directory around.

Reading gives the text of a file, writing replaces the whole content of one or makes a new file
in a directory that is there.  The system may deny to pass through a directory, to read a file or
to write one, whatever is there.
-/

namespace Diagnostics

/-- Why a file cannot be read or written. -/
inductive FileError where
  | notFound
  | notDirectory
  | isDirectory
  | nameTooLong
  /-- The path holds a null character. -/
  | nullCharacter
  /-- The content is no text in UTF-8. -/
  | notText
  /-- The system denies an access or breaks it off, for the reason that it gives. -/
  | system (reason : String)
  deriving DecidableEq, Repr

/-- What a file error says. -/
def FileError.message : FileError → String
  | notFound => "No such file or directory (os error 2)"
  | notDirectory => "Not a directory (os error 20)"
  | isDirectory => "Is a directory (os error 21)"
  | nameTooLong => "File name too long (os error 36)"
  | nullCharacter => "file name contained an unexpected NUL byte"
  | notText => "stream did not contain valid UTF-8"
  | system reason => reason

/-- A file with its content, or a directory. -/
inductive FileNode where
  | file (content : ByteArray)
  | directory

/-- What is done at the end of a way. -/
inductive Access where
  /-- A directory is passed on the way to what is in it. -/
  | pass
  | read
  | write
  deriving DecidableEq, Repr

/-- All files and directories, and the directory in which relative paths begin. -/
structure FileTree where
  /-- The names on the way to the directory in which relative paths begin. -/
  here : List Text
  /-- The files and empty directories with the names on the way to them. -/
  nodes : List (List Text × FileNode)
  /-- What the system denies, with its reasons. -/
  denials : List ((Access × List Text) × FileError)

namespace FileTree

/-- The text of a content in UTF-8. -/
def decode (content : ByteArray) : Except FileError Text :=
  match String.fromUTF8? content with
  | some s => .ok s.toList
  | none => .error .notText

/-- The content of a text in UTF-8. -/
def encode (s : Text) : ByteArray := (String.ofList s).toUTF8

/-- The largest number of bytes in a name. -/
def maxName : Nat := 255

/-- The largest number of bytes in a path. -/
def maxPath : Nat := 4095

/-- The node at the end of a way from the root. -/
def node? (t : FileTree) (names : List Text) : Option FileNode :=
  match t.nodes.lookup names with
  | some node => some node
  | none =>
    if names.isPrefixOf t.here || t.nodes.any (fun (way, _) => names.isPrefixOf way) then
      some .directory
    else
      none

/-- An access, which is granted unless the system denies it. -/
def grant (t : FileTree) (access : Access) (names : List Text) : Except FileError Unit :=
  match t.denials.lookup (access, names) with
  | some error => .error error
  | none => .ok ()

/-- The way to a name in a directory, where there need not be anything yet. -/
def child (names : List Text) (name : Text) : Except FileError (List Text) :=
  if maxName < name.utf8Length then .error .nameTooLong else .ok (names ++ [name])

/-- Follow one part of a path. -/
def follow (t : FileTree) (names : List Text) (part : Text) : Except FileError (List Text) :=
  match t.node? names with
  | some .directory =>
    if part.isEmpty then
      .ok names
    else do
      t.grant .pass names
      if part = ['.'] then
        .ok names
      else if part = ['.', '.'] then
        .ok names.dropLast
      else
        let names ← child names part
        if (t.node? names).isSome then .ok names else .error .notFound
  | _ => .error .notDirectory

/-- What is wrong with a path before it is followed. -/
def refuse (p : Path) : Except FileError Unit :=
  if p.contains '\x00' then .error .nullCharacter
  else if p.isEmpty then .error .notFound
  else if maxPath < p.utf8Length then .error .nameTooLong
  else .ok ()

/-- Follow the parts of a path from where the path begins. -/
def followAll (t : FileTree) (p : Path) (parts : List Text) : Except FileError (List Text) :=
  parts.foldlM t.follow (if p.isAbsolute then [] else t.here)

/-- The way that a path describes. -/
def locate (t : FileTree) (p : Path) : Except FileError (List Text) := do
  refuse p
  t.followAll p (Path.parts p)

/-- Whether a path leads to a file or a directory. -/
def holds (t : FileTree) (p : Path) : Bool := (t.locate p).isOk

/-- The text of the file at a path. -/
def read (t : FileTree) (p : Path) : Except FileError Text := do
  let names ← t.locate p
  t.grant .read names
  match t.node? names with
  | some (.file content) => decode content
  | _ => .error .isDirectory

/-- The way to the file that a path names for writing. -/
def target (t : FileTree) (p : Path) : Except FileError (List Text) := do
  refuse p
  let parts := Path.parts p
  let named := (parts.reverse.dropWhile (·.isEmpty)).reverse
  match named.getLast? with
  | none => .error .isDirectory
  | some name =>
    let around ← t.followAll p named.dropLast
    match t.node? around with
    | some .directory =>
      t.grant .pass around
      if Path.isIdle name || name = ['.', '.'] || named.length < parts.length then
        .error .isDirectory
      else
        let names ← child around name
        match t.node? names with
        | some .directory => .error .isDirectory
        | _ =>
          t.grant .write names
          return names
    | _ => .error .notDirectory

/-- The tree with a node at the end of a way. -/
def put (t : FileTree) (names : List Text) (node : FileNode) : FileTree :=
  { t with nodes := (names, node) :: t.nodes.filter (·.1 ≠ names) }

/-- The tree with an access that the system denies. -/
def deny (t : FileTree) (access : Access) (names : List Text) (error : FileError) : FileTree :=
  { t with denials := ((access, names), error) :: t.denials }

/-- The tree with a text in the file at a path. -/
def write (t : FileTree) (p : Path) (s : Text) : Except FileError FileTree :=
  (t.target p).map fun names => t.put names (.file (encode s))

end FileTree

end Diagnostics
