import Diagnostics.CommandLine.Arguments
import Diagnostics.Files.Tree
import Diagnostics.Options
import Diagnostics.Toml.Document

/-!
# Configuration

A configuration file is a TOML document with the options of a parse and the path of a registry.
Its relative paths begin in the directory of the file.  The file is the one that the arguments
name, or else the one of the project, or else the one of the user; without any of them the
defaults hold.  The first of these files that is there has to be readable and valid.  How a text
is read as a configuration is left open, and the command reads it by `ofText?`.
-/

namespace Diagnostics

/-- What a configuration file says. -/
structure Configuration where
  parse : Options := {}
  /-- The file of the registry. -/
  registry : Option Path := none
  deriving DecidableEq, Repr, Inhabited

namespace Configuration

/-- Why there is no configuration. -/
inductive Error where
  /-- The file that the arguments name is not there. -/
  | missingFile (path : Path)
  /-- The file cannot be read. -/
  | unreadable (error : FileError)
  /-- The file is no configuration. -/
  | invalid
  deriving DecidableEq, Repr

/-- A unit by its name: a string, or the only key of a table, with nothing under it. -/
def unitOfValue? : Toml.Value → Option OffsetUnit
  | .string s => OffsetUnit.ofName? (String.ofList s)
  | .table _ [(name, v)] => if v.isVoid then OffsetUnit.ofName? (String.ofList name) else none
  | _ => none

/-- The options of a parse. -/
def optionsOfValue? (v : Toml.Value) : Option Options := do
  match ← v.record? ["dir", "offsets", "legacy_item_fields"] with
  | [dir, offsets, legacy] =>
    return ⟨← dir.elim (some none) fun v => v.text?.map some,
      ← offsets.elim (some .utf8) unitOfValue?, ← legacy.elim (some false) Toml.Value.bool?⟩
  | _ => none

/-- The path of a registry. -/
def registryOfValue? (v : Toml.Value) : Option (Option Path) := do
  match ← v.record? ["path"] with
  | [path] => path.elim (some none) fun v => v.text?.map some
  | _ => none

/-- The configuration of a document. -/
def ofText? (s : Text) : Option Configuration := do
  match ← (← Toml.ofText? s).record? ["parse", "registry"] with
  | [parse, registry] =>
    return ⟨← parse.elim (some {}) optionsOfValue?, ← registry.elim (some none) registryOfValue?⟩
  | _ => none

/-- A configuration whose relative paths begin in the directory `base`. -/
def resolve (base : Path) (c : Configuration) : Configuration where
  parse := { c.parse with dir := c.parse.dir.map base.join }
  registry := c.registry.map base.join

/-- The configuration in a file. -/
def load (toml : Text → Option Configuration) (files : FileTree) (path : Path) :
    Except Error Configuration :=
  if files.holds path then
    match files.read path with
    | .error error => .error (.unreadable error)
    | .ok s =>
      match toml s with
      | some c => .ok (c.resolve path.parent)
      | none => .error .invalid
  else
    .error (.missingFile path)

/-- The configuration file of a project. -/
def projectFile : Path := "tserr/config.toml".toList

/-- The file that the configuration is taken from, where `userFile` is the one of the user. -/
def choose (files : FileTree) (userFile : Path) (explicit : Option Path) : Option Path :=
  explicit.or ([projectFile, userFile].find? files.holds)

/-- The configuration in force. -/
def find (toml : Text → Option Configuration) (files : FileTree) (userFile : Path)
    (explicit : Option Path) : Except Error Configuration :=
  (choose files userFile explicit).elim (.ok {}) (load toml files)

/-- The options in force: what the arguments say goes before what the configuration says. -/
def options (c : Configuration) (args : Arguments) : Options where
  dir := args.dir.or c.parse.dir
  offsets := if args.utf16 then .utf16 else c.parse.offsets
  legacyItemFields := args.legacyItems || c.parse.legacyItemFields

/-- The file of the registry in force. -/
def registryFile (c : Configuration) (args : Arguments) : Option Path :=
  args.registry.or c.registry

end Configuration

end Diagnostics
