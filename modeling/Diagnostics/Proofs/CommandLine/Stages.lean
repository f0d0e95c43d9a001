import Diagnostics.Proofs.CommandLine.Settings
import Diagnostics.Proofs.Text.Cut

/-!
# Stages of runs

A run has four stages, and each of them can fail: the configuration, the registry, the input and the
output.  How a stage fails is said by what is around the run before it, because no stage changes
anything but the last one.  Every stage fails or has a value, and a run that comes as far as a stage
does what the stage says.
-/

namespace Diagnostics

/-- A stage of a run. -/
inductive Stage where
  | configuration
  | registry
  | input
  | output
  deriving DecidableEq, Repr

/-- The number of stages before a stage. -/
def Stage.place : Stage → Nat
  | configuration => 0
  | registry => 1
  | input => 2
  | output => 3

namespace Registry

/-- A file gives no registry, for some reason. -/
inductive Fails (files : FileTree) (path : Path) : LoadError → Prop where
  | unreadable {error : FileError} (hread : files.read path = .error error) :
      Fails files path (.unreadable path error)
  | notJson {content : Text} (hread : files.read path = .ok content)
      (hjson : ofJson? Json.Term.ofText? content = none) : Fails files path .notJson

end Registry

namespace Arguments

open Diagnostics.Configuration (IsChosen)

/-- A stage of a run fails with an error, whatever the other stages do. -/
inductive FailsAt (args : Arguments) (toml : Text → Option Configuration)
    (around : Surroundings) : Stage → RunError → Prop where
  | configuration {path : Path} {error : Configuration.Error}
      (hchosen : IsChosen around.files around.userFile args.config (some path))
      (hfails : Configuration.Fails toml around.files path error) :
      FailsAt args toml around .configuration (.ofConfiguration error)
  | registry {settings : Configuration} {path : Path} {error : Registry.LoadError}
      (hsettings : args.InForce toml around settings) (hpath : settings.registry = some path)
      (hfails : Registry.Fails around.files path error) :
      FailsAt args toml around .registry (.registry error)
  | stdin {error : FileError} (hinput : args.readsStdin = true)
      (hstdin : around.stdin = .error error) : FailsAt args toml around .input (.io error)
  | encoding {content : ByteArray} {error : FileError} (hinput : args.readsStdin = true)
      (hstdin : around.stdin = .ok content) (hdecode : FileTree.decode content = .error error) :
      FailsAt args toml around .input (.io error)
  | input {path : Path} {error : FileError} (hinput : args.input = some path)
      (hstdin : path ≠ ['-']) (hread : around.files.read path = .error error) :
      FailsAt args toml around .input (.io error)
  | stdout {taken : Nat} {error : FileError} (houtput : args.output = none)
      (hstdout : around.stdout = .refused taken error) :
      FailsAt args toml around .output (.io error)
  | output {path : Path} {error : FileError} (houtput : args.output = some path)
      (htarget : around.files.target path = .error error) :
      FailsAt args toml around .output (.io error)

/-- The registry of a run with some settings, and what there is to tell about it. -/
inductive HasRegistry (around : Surroundings) (settings : Configuration) :
    Registry → List Registry.Warning → Prop where
  | corpus (hpath : settings.registry = none) :
      HasRegistry around settings Corpus.registry []
  | file {path : Path} {content : Text} {registry : Registry} {warnings : List Registry.Warning}
      (hpath : settings.registry = some path) (hread : around.files.read path = .ok content)
      (hjson : Registry.ofJson? Json.Term.ofText? content = some (registry, warnings)) :
      HasRegistry around settings registry warnings

/-- The text that a run reads. -/
inductive Reads (args : Arguments) (around : Surroundings) : Text → Prop where
  | stdin {content : ByteArray} {blob : Text} (hinput : args.readsStdin = true)
      (hstdin : around.stdin = .ok content) (hdecode : FileTree.decode content = .ok blob) :
      Reads args around blob
  | input {path : Path} {blob : Text} (hinput : args.input = some path) (hstdin : path ≠ ['-'])
      (hread : around.files.read path = .ok blob) : Reads args around blob

/-- A text is in one place after a run, which is the standard output if there is no other, and
nothing else is changed.  What is there is read as the text. -/
inductive Delivers (args : Arguments) (around : Surroundings) (text : Text) :
    ByteArray → FileTree → Prop where
  | stdout {content : ByteArray} (houtput : args.output = none)
      (hcontent : FileTree.decode content = .ok text) :
      Delivers args around text content around.files
  | file {path : Path} {files : FileTree} {way : List Text} {content : ByteArray}
      (houtput : args.output = some path) (hlocate : files.locate path = .ok way)
      (hnode : files.node? way = some (.file content))
      (hcontent : FileTree.decode content = .ok text)
      (hothers : ∀ other, other ≠ way → files.node? other = around.files.node? other) :
      Delivers args around text .empty files

/-- The standard output breaks off when a text is written to it.  What it has taken is not all of
what is read as the text. -/
def BreaksOff (args : Arguments) (around : Surroundings) (text : Text) (part : ByteArray) : Prop :=
  args.output = none ∧ ∃ taken error rest, around.stdout = .refused taken error
    ∧ part.size ≤ taken ∧ 0 < rest.size ∧ FileTree.decode (part ++ rest) = .ok text

variable {args : Arguments} {toml : Text → Option Configuration} {around : Surroundings}
  {c settings : Configuration} {registry : Registry} {warnings : List Registry.Warning}
  {error : RunError} {text blob : Text} {notices : List Notice} {path : Path}

/-! ### The registry -/

theorem fails_or_hasRegistry (around : Surroundings) (settings : Configuration) :
  (∃ path error, settings.registry = some path ∧ Registry.Fails around.files path error)
    ∨ ∃ registry warnings, HasRegistry around settings registry warnings
  := by
  cases hpath : settings.registry with
  | none => exact .inr ⟨_, _, .corpus hpath⟩
  | some path =>
      cases hread : around.files.read path with
      | error error => exact .inl ⟨path, _, rfl, .unreadable hread⟩
      | ok content =>
          cases hjson : Registry.ofJson? Json.Term.ofText? content with
          | none => exact .inl ⟨path, _, rfl, .notJson hread hjson⟩
          | some result => exact .inr ⟨_, _, .file hpath hread hjson⟩

/-- A registry is known by its templates. -/
theorem hasRegistry_of_templates {content : Text} (hpath : settings.registry = some path)
    (hread : around.files.read path = .ok content)
    (hjson : (Registry.ofJson? Json.Term.ofText? content).map
      (fun result => (result.1.templates, result.2)) = some (registry.templates, warnings)) :
  HasRegistry around settings registry warnings
  := by
  obtain ⟨⟨r, ws⟩, hresult, hpair⟩ := Option.map_eq_some_iff.mp hjson
  obtain ⟨htemplates, rfl⟩ := Prod.mk.inj hpair
  obtain rfl : r = registry := Registry.ext htemplates
  apply HasRegistry.file hpath hread hresult

theorem findRegistry_of_fails {error : Registry.LoadError} (hpath : c.registryFile args = some path)
    (hfails : Registry.Fails around.files path error) :
  args.findRegistry around.files c = .error (.registry error)
  := by
  rw [findRegistry, hpath]
  cases hfails with
  | unreadable hread => simp [Registry.load, hread]
  | notJson hread hjson => simp [Registry.load, hread, hjson]

theorem findRegistry_of_hasRegistry
    (h : HasRegistry around ⟨c.options args, c.registryFile args⟩ registry warnings) :
  args.findRegistry around.files c = .ok (registry, warnings)
  := by
  cases h with
  | corpus hpath =>
      dsimp only at hpath
      rw [findRegistry, hpath]
  | file hpath hread hjson =>
      dsimp only at hpath
      simp [findRegistry, hpath, Registry.load, hread, hjson]

/-! ### The input -/

/-- The input is a file, or else it is the standard input. -/
theorem readsStdin_or_input (args : Arguments) :
  args.readsStdin = true ∨ ∃ path, args.input = some path ∧ path ≠ ['-']
  := by
  rw [readsStdin]
  cases args.input with
  | none => exact .inl rfl
  | some path =>
      rw [Option.all_some, decide_eq_true_eq]
      by_cases hstdin : path = ['-']
      · exact .inl hstdin
      · exact .inr ⟨path, rfl, hstdin⟩

theorem readInput_of_readsStdin (h : args.readsStdin = true) :
  args.readInput around = (around.stdin.bind FileTree.decode).mapError .io
  := by
  rw [readInput]
  cases hinput : args.input with
  | none => rfl
  | some path =>
      rw [readsStdin, hinput, Option.all_some, decide_eq_true_eq] at h
      dsimp only
      rw [if_pos h]

theorem readInput_of_input (hinput : args.input = some path) (hstdin : path ≠ ['-']) :
  args.readInput around = (around.files.read path).mapError .io
  := by
  rw [readInput, hinput]
  dsimp only
  rw [if_neg hstdin]

theorem fails_or_reads (args : Arguments) (toml : Text → Option Configuration)
    (around : Surroundings) :
  (∃ error, args.FailsAt toml around .input error) ∨ ∃ blob, args.Reads around blob
  := by
  rcases readsStdin_or_input args with hinput | ⟨path, hinput, hpath⟩
  · cases hstdin : around.stdin with
    | error error => exact .inl ⟨_, .stdin hinput hstdin⟩
    | ok content =>
        cases hdecode : FileTree.decode content with
        | error error => exact .inl ⟨_, .encoding hinput hstdin hdecode⟩
        | ok blob => exact .inr ⟨blob, .stdin hinput hstdin hdecode⟩
  · cases hread : around.files.read path with
    | error error => exact .inl ⟨_, .input hinput hpath hread⟩
    | ok blob => exact .inr ⟨blob, .input hinput hpath hread⟩

theorem readInput_of_fails (h : args.FailsAt toml around .input error) :
  args.readInput around = .error error
  := by
  cases h with
  | stdin hinput hstdin =>
      rw [readInput_of_readsStdin hinput, hstdin]
      rfl
  | encoding hinput hstdin hdecode =>
      rw [readInput_of_readsStdin hinput, hstdin, Except.bind, hdecode]
      rfl
  | input hinput hpath hread =>
      rw [readInput_of_input hinput hpath, hread]
      rfl

theorem readInput_of_reads (h : args.Reads around blob) :
  args.readInput around = .ok blob
  := by
  cases h with
  | stdin hinput hstdin hdecode =>
      rw [readInput_of_readsStdin hinput, hstdin, Except.bind, hdecode]
      rfl
  | input hinput hpath hread =>
      rw [readInput_of_input hinput hpath, hread]
      rfl

/-! ### The output -/

/-- What is delivered to a file changes nothing elsewhere. -/
theorem Delivers.node?_eq {stdout : ByteArray} {files : FileTree} {other : List Text}
    (h : args.Delivers around text stdout files) (houtput : args.output = some path)
    (hother : files.locate path ≠ .ok other) :
  files.node? other = around.files.node? other
  := by
  cases h with
  | stdout => rfl
  | file hsome hlocate _ _ hothers =>
      apply hothers
      rintro rfl
      rw [houtput] at hsome
      obtain rfl := Option.some.inj hsome
      apply hother hlocate

theorem deliver_of_write_eq_ok {files : FileTree} (houtput : args.output = some path)
    (hwrite : around.files.write path text = .ok files) (notices : List Notice) :
  args.deliver around text notices = ⟨none, .empty, files, notices⟩
  := by
  rw [deliver, houtput]
  dsimp only
  rw [hwrite]

/-- A delivery that fails changes no file, and the standard output takes a part of the text at
most.  Whether it fails does not depend on what is delivered. -/
theorem deliver_of_fails (h : args.FailsAt toml around .output error) (htext : text ≠ [])
    (notices : List Notice) :
  ∃ part, (part = .empty ∨ args.BreaksOff around text part)
    ∧ args.deliver around text notices = ⟨some error, part, around.files, notices⟩
  := by
  cases h with
  | @stdout taken cause houtput hstdout =>
      let content := FileTree.encode text
      let n := min taken (content.size - 1)
      use content.extract 0 n
      constructor
      · have hsize : 0 < content.size := by simp [content, htext]
        right
        use houtput, taken, cause, content.extract n content.size, hstdout
        rw [ByteArray.size_extract, ByteArray.size_extract]
        use by omega, by omega
        have hwhole : content.extract 0 n ++ content.extract n content.size = content := by
          simp [n]
        rw [hwhole, FileTree.decode_encode]
      · rw [deliver, houtput, hstdout]
        rfl
  | output houtput htarget =>
      use .empty, .inl rfl
      simp [deliver, houtput, FileTree.write_eq_error_iff.mpr htarget]

theorem deliver_of_passes (h : ∀ error, ¬ args.FailsAt toml around .output error) (text : Text)
    (notices : List Notice) :
  ∃ stdout files, args.Delivers around text stdout files
    ∧ args.deliver around text notices = ⟨none, stdout, files, notices⟩
  := by
  cases houtput : args.output with
  | none =>
      cases hstdout : around.stdout with
      | accepted =>
          use FileTree.encode text, around.files, .stdout houtput (FileTree.decode_encode text)
          rw [deliver, houtput, hstdout]
          rfl
      | refused taken error => exact absurd (.stdout houtput hstdout) (h _)
  | some path =>
      cases hwrite : around.files.write path text with
      | error error =>
          exact absurd (.output houtput (FileTree.write_eq_error_iff.mp hwrite)) (h _)
      | ok files =>
          obtain ⟨way, hlocate, hnode, hothers⟩ := FileTree.of_write_eq_ok hwrite
          use .empty, files,
            .file houtput hlocate hnode (FileTree.decode_encode text) hothers
          apply deliver_of_write_eq_ok houtput hwrite

/-! ### Runs -/

theorem run_of_fails {error : Configuration.Error}
    (hchosen : IsChosen around.files around.userFile args.config (some path))
    (hfails : Configuration.Fails toml around.files path error) :
  args.run toml around = ⟨some (.ofConfiguration error), .empty, around.files, []⟩
  := by
  rw [run, find_of_fails hchosen hfails]

theorem run_of_registry_fails {error : Registry.LoadError}
    (hsettings : args.InForce toml around settings) (hpath : settings.registry = some path)
    (hfails : Registry.Fails around.files path error) :
  args.run toml around = ⟨some (.registry error), .empty, around.files, []⟩
  := by
  obtain ⟨c, hfind, rfl⟩ := hsettings.exists_find_eq
  simp [run, hfind, findRegistry_of_fails hpath hfails]

theorem run_of_input_fails (hsettings : args.InForce toml around settings)
    (hregistry : HasRegistry around settings registry warnings)
    (hfails : args.FailsAt toml around .input error) :
  args.run toml around = ⟨some error, .empty, around.files, warnings.map (·.notice)⟩
  := by
  obtain ⟨c, hfind, rfl⟩ := hsettings.exists_find_eq
  simp [run, hfind, findRegistry_of_hasRegistry hregistry, readInput_of_fails hfails]

/-- A run with settings, a registry and an input delivers what the parser with this registry, these
settings and the documents in their directory finds in the input. -/
theorem run_of_reads (hsettings : args.InForce toml around settings)
    (hregistry : HasRegistry around settings registry warnings) (hreads : args.Reads around blob) :
  let parser := Parser.mk (.ofRegistry registry) settings.parse
    (settings.parse.dir.map (Explanation.Source.ofDirectory around.files))
  args.run toml around = args.deliver around (args.write (parser.parse blob))
    (warnings.map (·.notice) ++ (parser.warnings blob).map (·.notice))
  := by
  obtain ⟨c, hfind, rfl⟩ := hsettings.exists_find_eq
  simp only [run, hfind, findRegistry_of_hasRegistry hregistry, readInput_of_reads hreads]
  rfl

end Arguments

end Diagnostics
