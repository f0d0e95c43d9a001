import Diagnostics.CommandLine.Run

/-!
# The command

Collects the part of the file system that a run can look at, runs, and writes what the run
delivers.  What cannot be read or written is denied in the file tree, or refused by the standard
output, and the run says what becomes of it.
-/

namespace Diagnostics

namespace Main

/-- What the command prints about itself. -/
def usage : String :=
  "Usage: tserr [OPTIONS] [INPUT]\n\n" ++
  "Arguments:\n" ++
  "  [INPUT]  Path to the input file, or - for stdin\n\n" ++
  "Options:\n" ++
  "  -o, --output <OUTPUT>        Write the findings to a file\n" ++
  "  -c, --config <CONFIG>        Path to the configuration file\n" ++
  "  -d, --dir <DIR>              Directory of the explanation documents\n" ++
  "  -r, --registry <REGISTRY>    Path to a table of messages\n" ++
  "      --utf16                  Report offsets in UTF-16 code units\n" ++
  "      --legacy-items           Report each item under a name of its own\n" ++
  "      --pretty                 Lay the output out in lines\n" ++
  "      --log-level <LOG_LEVEL>  Level of the log [default: warn]\n" ++
  "  -h, --help                   Print help\n" ++
  "  -V, --version                Print version"

/-- The version of the command. -/
def version : String := "tserr 0.1.0"

/-- What is wrong with the arguments. -/
def usageMessage : UsageError → String
  | .unknownArgument => "unexpected argument found"
  | .invalidValue => "a value is required but none was supplied"
  | .argumentConflict => "an argument cannot be used multiple times"
  | .tooManyValues => "an unexpected value was found"
  | .displayHelp => usage
  | .displayVersion => version

/-- The way that a path describes, whether there is something or not. -/
def wayTo (files : FileTree) (path : Path) : List Text :=
  (Path.parts path).foldl (fun way part =>
    if Path.isIdle part then way
    else if part = ['.', '.'] then way.dropLast
    else way ++ [part]) (if path.isAbsolute then [] else files.here)

/-- Why the system does not do something. -/
def reason (error : IO.Error) : FileError := .system (toString error)

/-- Take a file into a file tree, where reading it may fail. -/
def putFile (files : FileTree) (way : List Text) (content : IO ByteArray) : IO FileTree := do
  try
    return files.put way (.file (← content))
  catch error =>
    return (files.put way (.file .empty)).deny .read way (reason error)

/-- Take what stands at a path into a file tree, where `content` reads a file.  What is not there
is left out, and where the way to it is closed, the directory around it cannot be passed. -/
def lookWith (content : String → IO ByteArray) (files : FileTree) (path : Path) :
    IO FileTree := do
  let name := String.ofList path
  let way := wayTo files path
  try
    if ← (← IO.FS.realPath name).isDir then
      return files.put way .directory
    else
      putFile files way (content name)
  catch error =>
    match error with
    | .permissionDenied .. =>
      let around := way.dropLast
      return (files.put around .directory).deny .pass around (reason error)
    | _ => return files

/-- Take what stands at a path into a file tree. -/
def look (files : FileTree) (path : Path) : IO FileTree :=
  lookWith (fun name => IO.FS.readBinFile name) files path

/-- Take a file that will be written into a file tree, where its content is not asked for. -/
def lookAround (files : FileTree) (path : Path) : IO FileTree := do
  let files ← look files (Path.parent path)
  if (files.node? (wayTo files path)).isSome then
    return files
  else
    lookWith (fun _ => pure .empty) files path

/-- All bytes of a stream. -/
partial def readAll (stream : IO.FS.Stream) (content : ByteArray) : IO ByteArray := do
  let chunk ← stream.read 65536
  if chunk.isEmpty then
    return content
  else
    readAll stream (content ++ chunk)

/-- The configuration file of the user. -/
def userFile : IO Path := do
  let home := ((← IO.getEnv "HOME").getD "").toList
  let config := ((← IO.getEnv "XDG_CONFIG_HOME").map String.toList).filter Path.isAbsolute
  return (config.getD (Path.join home ".config".toList)).join "tserr/config.toml".toList

/-- The files that a run with the given arguments can look at. -/
def collect (args : Arguments) (user : Path) : IO FileTree := do
  let here := ((← IO.getEnv "PWD").getD "/").toList
  let files : FileTree := ⟨(Path.parts here).filter fun part => !Path.isIdle part, [], []⟩
  let files ← (args.config.toList ++ [Configuration.projectFile, user]).foldlM look files
  match Configuration.find Configuration.ofText? files user args.config with
  | .error _ => return files
  | .ok c =>
    let files ← (c.registryFile args).toList.foldlM look files
    let files ← args.input.toList.foldlM look files
    let files ← args.output.toList.foldlM lookAround files
    match args.findRegistry files c, (c.options args).dir with
    | .ok (r, _), some dir =>
      (r.templates.map fun t => dir.join (Explanation.Source.fileName t.code)).foldlM look files
    | _, _ => return files

/-- Write a notice about a run. -/
def report (n : Notice) : IO Unit := do
  let details := n.details.map fun (name, value) => " " ++ name ++ "=" ++ String.ofList value
  IO.eprintln (n.message ++ String.join details)

/-- Whether a run comes as far as its input, and takes it from the standard input. -/
def asksForInput (args : Arguments) (files : FileTree) (user : Path) : Bool :=
  match Configuration.find Configuration.ofText? files user args.config with
  | .error _ => false
  | .ok c => args.readsStdin && (args.findRegistry files c).isOk

/-- The content of the standard input, if it is asked for and can be read. -/
def standardInput (args : Arguments) (files : FileTree) (user : Path) :
    IO (Except FileError ByteArray) := do
  if asksForInput args files user then
    try
      return .ok (← readAll (← IO.getStdin) .empty)
    catch error =>
      return .error (reason error)
  else
    return .ok .empty

/-- Write what a run delivers. -/
def deliver (args : Arguments) (around : Surroundings) (outcome : Outcome) : IO Unit := do
  match args.output with
  | none =>
    let stdout ← IO.getStdout
    stdout.write outcome.stdout
    stdout.flush
  | some path =>
    match outcome.files.node? (wayTo around.files path) with
    | some (.file content) => IO.FS.writeBinFile (String.ofList path) content
    | _ => return

/-- The surroundings in which what a run delivers cannot be written. -/
def refuse (args : Arguments) (around : Surroundings) (error : FileError) : Surroundings :=
  match args.output with
  | none => { around with stdout := .refused 0 error }
  | some path => { around with files := around.files.deny .write (wayTo around.files path) error }

/-- Run the command and write what it delivers. -/
def execute (args : Arguments) : IO UInt32 := do
  let user ← userFile
  let files ← collect args user
  let around : Surroundings := ⟨files, ← standardInput args files user, .accepted, user⟩
  let outcome := args.run Configuration.ofText? around
  let outcome ←
    if outcome.error.isSome then
      pure outcome
    else
      try
        deliver args around outcome
        pure outcome
      catch error =>
        pure (args.run Configuration.ofText? (refuse args around (reason error)))
  outcome.notices.forM report
  match outcome.error with
  | none => return 0
  | some e =>
    IO.eprintln (String.ofList e.message)
    IO.eprintln ("help: " ++ e.help)
    return 1

end Main

end Diagnostics

/-- The command. -/
def main (args : List String) : IO UInt32 := do
  match Diagnostics.Arguments.ofList (args.map String.toList) with
  | .ok args => Diagnostics.Main.execute args
  | .error .displayHelp =>
    IO.println Diagnostics.Main.usage
    return 0
  | .error .displayVersion =>
    IO.println Diagnostics.Main.version
    return 0
  | .error e =>
    IO.eprintln (Diagnostics.Main.usageMessage e)
    return 2
