import Diagnostics.Files.Path

/-!
# Arguments

The arguments of the command.  There is one input and there are options with a value, each of
which is given once at most: `-o out`, `-oout`, `-o=out`, `--output out` and `--output=out` say
the same.  Options without a value have long names only, apart from help and version.  A double
dash ends the options, and a single dash is an input.

An option waits for its value until the next argument comes.  Whatever comes next settles the
options before it, except an argument that nobody knows, which is refused at once.
-/

namespace Diagnostics

/-- What is asked of the command. -/
structure Arguments where
  /-- The file to read, where a dash stands for the standard input. -/
  input : Option Path
  output : Option Path
  config : Option Path
  /-- The directory of the explanation documents. -/
  dir : Option Path
  registry : Option Path
  utf16 : Bool
  legacyItems : Bool
  pretty : Bool
  logLevel : Text
  deriving DecidableEq, Repr

/-- Whether the standard input is read. -/
def Arguments.readsStdin (a : Arguments) : Bool := a.input.all (· = ['-'])

/-- Why arguments are refused, or what they ask for instead of a run. -/
inductive UsageError where
  | unknownArgument
  | invalidValue
  | argumentConflict
  | tooManyValues
  | displayHelp
  | displayVersion
  deriving DecidableEq, Repr

namespace Arguments

/-- An option with a value. -/
inductive Setting where
  | output
  | config
  | dir
  | registry
  | logLevel
  deriving DecidableEq, Repr

/-- An option without a value. -/
inductive Switch where
  | utf16
  | legacyItems
  | pretty
  | help
  | version
  deriving DecidableEq, Repr

/-- An option. -/
inductive Flag where
  | setting (s : Setting)
  | switch (s : Switch)
  deriving DecidableEq, Repr

/-- The options with their long names. -/
def longNames : List (String × Flag) :=
  [("output", .setting .output), ("config", .setting .config), ("dir", .setting .dir),
    ("registry", .setting .registry), ("log-level", .setting .logLevel),
    ("utf16", .switch .utf16), ("legacy-items", .switch .legacyItems),
    ("pretty", .switch .pretty), ("help", .switch .help), ("version", .switch .version)]

/-- The options with their short names. -/
def shortNames : List (Char × Flag) :=
  [('o', .setting .output), ('c', .setting .config), ('d', .setting .dir),
    ('r', .setting .registry), ('h', .switch .help), ('V', .switch .version)]

/-- Whether the value of an option is a path to something, which has a name. -/
def Setting.needsName : Setting → Bool
  | dir | registry => true
  | _ => false

/-- What has been read of the arguments. -/
structure Reading where
  input : Option Path
  settings : List (Setting × Text)
  switches : List Switch
  /-- The last option and its value, as long as it is not settled. -/
  pending : Option (Setting × Option Text)

namespace Reading

/-- Nothing has been read. -/
def empty : Reading := ⟨none, [], [], none⟩

/-- Give an option its value. -/
def assign (r : Reading) (s : Setting) (value : Text) : Except UsageError Reading :=
  if (r.settings.lookup s).isSome then .error .argumentConflict
  else if s.needsName && value.isEmpty then .error .invalidValue
  else .ok { r with settings := (s, value) :: r.settings }

/-- Settle the last option. -/
def settle (r : Reading) : Except UsageError Reading :=
  match r.pending with
  | none => .ok r
  | some (_, none) => .error .invalidValue
  | some (s, some value) => ({ r with pending := none } : Reading).assign s value

/-- An option without a value. -/
def turnOn (r : Reading) (s : Switch) : Except UsageError Reading := do
  let r ← r.settle
  match s with
  | .help => .error .displayHelp
  | .version => .error .displayVersion
  | s =>
    if r.switches.contains s then
      .error .argumentConflict
    else
      .ok { r with switches := s :: r.switches }

/-- An option with the value that is attached to it, or without one so far. -/
def set (r : Reading) (s : Setting) (attached : Option Text) : Except UsageError Reading := do
  let r ← r.settle
  match attached with
  | some value => r.assign s value
  | none => .ok { r with pending := some (s, none) }

/-- An argument that is no option and no value of one. -/
def position (r : Reading) (arg : Text) : Except UsageError Reading :=
  if r.input.isSome then
    .error .unknownArgument
  else
    r.settle.map fun r => { r with input := some arg }

/-- An option by its long name, with the value that is attached to it. -/
def long (r : Reading) (name : Text) (attached : Option Text) : Except UsageError Reading :=
  match longNames.lookup (String.ofList name) with
  | none => .error .unknownArgument
  | some (.setting s) => r.set s attached
  | some (.switch s) => if attached.isSome then .error .tooManyValues else r.turnOn s

/-- Options by their short names, the last of which may have a value attached to it. -/
def short (r : Reading) : Text → Except UsageError Reading
  | [] => .ok r
  | c :: rest =>
    match shortNames.lookup c with
    | none => .error .unknownArgument
    | some (.switch s) => (r.turnOn s).bind fun r => r.short rest
    | some (.setting s) =>
      match rest with
      | [] => r.set s none
      | '=' :: value => r.set s (some value)
      | value => r.set s (some value)

/-- An argument that may be the value of the last option. -/
def plain (r : Reading) (arg : Text) : Except UsageError Reading :=
  match r.pending with
  | some (s, none) => .ok { r with pending := some (s, some arg) }
  | _ => r.position arg

/-- One argument before the double dash. -/
def step (r : Reading) (arg : Text) : Except UsageError Reading :=
  match arg with
  | '-' :: '-' :: body =>
    let name := body.takeWhile (· ≠ '=')
    r.long name (if body.contains '=' then some (body.drop (name.length + 1)) else none)
  | '-' :: c :: rest => r.short (c :: rest)
  | arg => r.plain arg

/-- All arguments. -/
def readAll (r : Reading) : List Text → Except UsageError Reading
  | [] => r.settle
  | arg :: args =>
    if arg = ['-', '-'] then
      (args.foldlM position r).bind settle
    else
      (r.step arg).bind fun r => r.readAll args

end Reading

/-- The arguments of the command. -/
def ofList (args : List Text) : Except UsageError Arguments := do
  let r ← Reading.empty.readAll args
  return {
    input := r.input
    output := r.settings.lookup .output
    config := r.settings.lookup .config
    dir := r.settings.lookup .dir
    registry := r.settings.lookup .registry
    utf16 := r.switches.contains .utf16
    legacyItems := r.switches.contains .legacyItems
    pretty := r.switches.contains .pretty
    logLevel := (r.settings.lookup .logLevel).getD "warn".toList }

end Arguments

end Diagnostics
