import Diagnostics.CommandLine.Configuration
import Diagnostics.Parser
import Diagnostics.Registry.Reader

/-!
# Runs

A run of the command finds its configuration, its registry and its input, in this order, and
delivers the findings as JSON in one place: the output file, if one is named, and else the
standard output.  The first of these stages that fails makes the run fail, and a run that fails
delivers nothing, except that the standard output may take a part of the text and then no more.
-/

namespace Diagnostics

/-- What becomes of the bytes that are written to the standard output. -/
inductive Reception where
  | accepted
  /-- Some of the bytes are taken, at most as many as `taken` and never all of them. -/
  | refused (taken : Nat) (error : FileError)

namespace Reception

/-- The bytes that are taken. -/
def take (bytes : ByteArray) : Reception → ByteArray
  | accepted => bytes
  | refused taken _ => bytes.extract 0 (min taken (bytes.size - 1))

/-- Why not all bytes are taken. -/
def error? : Reception → Option FileError
  | accepted => none
  | refused _ error => some error

end Reception

/-- What a run finds around it. -/
structure Surroundings where
  files : FileTree
  /-- The content of the standard input, if it can be read. -/
  stdin : Except FileError ByteArray
  stdout : Reception
  /-- The configuration file of the user. -/
  userFile : Path

/-- Why a run fails. -/
inductive RunError where
  | io (error : FileError)
  | registry (error : Registry.LoadError)
  /-- The configuration file that the arguments name is not there. -/
  | missingConfiguration (path : Path)
  | invalidConfiguration
  deriving DecidableEq, Repr

namespace RunError

/-- Why a run without a configuration fails. -/
def ofConfiguration : Configuration.Error → RunError
  | .missingFile path => missingConfiguration path
  | .unreadable error => io error
  | .invalid => invalidConfiguration

/-- What an error says. -/
def message : RunError → Text
  | io error => ("I/O error: " ++ error.message).toList
  | registry error => "Registry error: ".toList ++ error.message
  | missingConfiguration path =>
    "Configuration error: Missing configuration file: ".toList ++ path
  | invalidConfiguration => "Configuration error: Failed to parse TOML configuration".toList

/-- The code of an error. -/
def code : RunError → String
  | io _ => "tserr::io"
  | registry _ => "tserr::registry"
  | missingConfiguration _ | invalidConfiguration => "tserr::config"

/-- What can be done about an error. -/
def help : RunError → String
  | io _ => "check that the input file exists and is readable"
  | registry (.unreadable ..) => "check the --registry flag or the [registry] path setting"
  | registry .notJson =>
    "expected an object mapping each message to \x7b \"category\", \"code\" \x7d"
  | missingConfiguration _ | invalidConfiguration =>
    "check the configuration file or pass --config"

/-- Whether an error goes back to another one. -/
def hasSource : RunError → Bool
  | io _ | registry _ => true
  | missingConfiguration _ | invalidConfiguration => false

end RunError

/-- How a run ends. -/
structure Outcome where
  /-- Why the run failed, if it did. -/
  error : Option RunError
  /-- The bytes that the standard output took. -/
  stdout : ByteArray
  /-- The files after the run. -/
  files : FileTree
  /-- What there is to tell, in order. -/
  notices : List Notice

namespace Arguments

/-- The registry of a run, and what there is to tell about it. -/
def findRegistry (args : Arguments) (files : FileTree) (c : Configuration) :
    Except RunError (Registry × List Registry.Warning) :=
  match c.registryFile args with
  | none => .ok (Corpus.registry, [])
  | some path => (Registry.load files path).mapError .registry

/-- The input of a run. -/
def readInput (args : Arguments) (around : Surroundings) : Except RunError Text :=
  let stdin := around.stdin.bind FileTree.decode
  let content :=
    match args.input with
    | some path => if path = ['-'] then stdin else around.files.read path
    | none => stdin
  content.mapError .io

/-- Findings as a run writes them. -/
def write (args : Arguments) (findings : List Finding) : Text :=
  let json := Finding.listToJson findings
  (if args.pretty then json.pretty else json.compact) ++ ['\n']

/-- The end of a run that has a text to deliver. -/
def deliver (args : Arguments) (around : Surroundings) (text : Text) (notices : List Notice) :
    Outcome :=
  match args.output with
  | none =>
    ⟨around.stdout.error?.map .io, around.stdout.take (FileTree.encode text), around.files,
      notices⟩
  | some path =>
    match around.files.write path text with
    | .error error => ⟨some (.io error), .empty, around.files, notices⟩
    | .ok files => ⟨none, .empty, files, notices⟩

/-- Run the command, where a configuration file is read by `toml`. -/
def run (args : Arguments) (toml : Text → Option Configuration) (around : Surroundings) :
    Outcome :=
  let failed (error : RunError) (notices : List Notice) : Outcome :=
    ⟨some error, .empty, around.files, notices⟩
  match Configuration.find toml around.files around.userFile args.config with
  | .error error => failed (.ofConfiguration error) []
  | .ok c =>
    match args.findRegistry around.files c with
    | .error error => failed error []
    | .ok (registry, warnings) =>
      let notices := warnings.map (·.notice)
      match args.readInput around with
      | .error error => failed error notices
      | .ok blob =>
        let parser := Parser.ofRegistry registry (c.options args) around.files
        args.deliver around (args.write (parser.parse blob))
          (notices ++ (parser.warnings blob).map (·.notice))

end Arguments

end Diagnostics
