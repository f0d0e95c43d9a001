import Diagnostics.Proofs.CommandLine.Stages
import Diagnostics.Proofs.Parser.Concat
import Diagnostics.Proofs.Parser.Explained

/-!
# Settings take effect

The settings in force say where the registry and the explanations of a run come from, in which unit
its offsets are reported and how its items are named.  A run without settings fails with its
configuration, and a run whose registry fails says so.  Any other run parses its input with the
registry, the options and the directory of its settings, and every finding shows them.
-/

namespace Diagnostics

/-- A finding reports a recognised message of a blob as some options ask for: in their unit, with
their names of the items, and with the explanation that the document for its code gives in their
directory. -/
structure Finding.Reports (f : Finding) (files : FileTree) (options : Options) (blob : Text)
    (r : Recognition) : Prop where
  code : f.code = r.template.code
  error : f.error = r.template.pattern
  items : f.parseInfo.items = r.items
  cuts : options.offsets.Cuts blob f.parseInfo.startIndex f.parseInfo.endIndex r.window.text
  legacyItemFields : f.parseInfo.legacyItemFields = options.legacyItemFields
  unexplained : options.dir = none → f.improvedError = none
  explained : ∀ dir, options.dir = some dir → ∀ e, f.improvedError = some e
    ↔ ∃ document matter body excerpt,
      files.read (dir.join (Explanation.Source.fileName f.code)) = .ok document
      ∧ FrontMatter.split? document = some (matter, body)
      ∧ Explanation.excerpt? matter = some excerpt
      ∧ e = ⟨Substitution.bare.substitute f.parseInfo.items body,
        Substitution.quoted.substitute f.parseInfo.items excerpt⟩

theorem Explanation.Source.read_ofDirectory_eq_ok_iff {files : FileTree} {dir : Path} {code : Nat}
    {document : Text} :
  (ofDirectory files dir).read code = .ok document
    ↔ files.read (dir.join (fileName code)) = .ok document
  := by
  cases hread : files.read (dir.join (fileName code)) with
  | ok content => simp [ofDirectory, hread]
  | error error => cases error <;> simp [ofDirectory, hread]

namespace Parser

variable {files : FileTree} {options : Options} {blob : Text} {m : Matcher} {found : Recognition}

theorem reports_finding (hfound : found ∈ m.recognizeAll blob) :
  ((Parser.mk m options (options.dir.map (Explanation.Source.ofDirectory files))).finding blob
    found).Reports files options blob found
  := by
  constructor
  · rfl
  · rfl
  · rfl
  · apply OffsetUnit.cuts_of_isPieceOf
    apply Matcher.isPieceOf_of_mem_recognizeAll hfound
  · rfl
  · intro hdir
    simp [finding, explain, hdir]
  · intro dir hdir e
    simp only [finding, explain, hdir, Option.map_some, Option.elim_some]
    rw [Explanation.fst_loadOrWarn_eq_some_iff, Explanation.Source.Explains]
    simp only [Explanation.Source.read_ofDirectory_eq_ok_iff]
    rfl

/-- Every finding reports what is recognised, as the options ask for. -/
theorem forall₂_reports (files : FileTree) (options : Options) (blob : Text) (m : Matcher) :
  List.Forall₂ (fun found f => f.Reports files options blob found) (m.recognizeAll blob)
    ((Parser.mk m options (options.dir.map (Explanation.Source.ofDirectory files))).parse blob)
  := by
  rw [parse, List.forall₂_map_right_iff, List.forall₂_same]
  intro found hfound
  apply reports_finding hfound

end Parser

namespace Arguments

open Diagnostics.Configuration (IsChosen)

/-- The settings of a run are resolved by precedence, and they take effect.  Where the file that the
configuration is taken from fails, the run fails and looks at no other file.  Otherwise there are
settings in force, which are determined.  Where they name a registry that fails, the run fails with
it.  Otherwise the run delivers what the parser with this registry, the options in force and the
documents in their directory finds in its input, and every finding is reported as the options
ask for. -/
theorem run_by_settings (args : Arguments) (toml : Text → Option Configuration)
    (around : Surroundings) :
  (∀ path error, IsChosen around.files around.userFile args.config (some path) →
      Configuration.Fails toml around.files path error →
      args.run toml around = ⟨some (.ofConfiguration error), .empty, around.files, []⟩)
    ∧ ((∃ path error, IsChosen around.files around.userFile args.config (some path)
      ∧ Configuration.Fails toml around.files path error)
        ↔ ¬ ∃ settings, args.InForce toml around settings)
    ∧ (∀ settings other, args.InForce toml around settings → args.InForce toml around other →
      settings = other)
    ∧ (∀ settings path error, args.InForce toml around settings → settings.registry = some path →
      Registry.Fails around.files path error →
      args.run toml around = ⟨some (.registry error), .empty, around.files, []⟩)
    ∧ ∀ settings registry warnings blob, args.InForce toml around settings →
      HasRegistry around settings registry warnings → args.Reads around blob →
      let parser := Parser.mk (.ofRegistry registry) settings.parse
        (settings.parse.dir.map (Explanation.Source.ofDirectory around.files))
      args.run toml around = args.deliver around (args.write (parser.parse blob))
          (warnings.map (·.notice) ++ (parser.warnings blob).map (·.notice))
        ∧ List.Forall₂ (fun found f => f.Reports around.files settings.parse blob found)
          ((Matcher.ofRegistry registry).recognizeAll blob) (parser.parse blob)
  := by
  constructor
  · intro path error hchosen hfails
    apply run_of_fails hchosen hfails
  constructor
  · constructor
    · rintro ⟨path, error, hchosen, hfails⟩ ⟨settings, hsettings⟩
      apply hsettings.not_fails hchosen hfails
    · intro hnone
      apply (fails_or_inForce args toml around).resolve_right hnone
  constructor
  · intro settings other hsettings hother
    apply hsettings.unique hother
  constructor
  · intro settings path error hsettings hpath hfails
    apply run_of_registry_fails hsettings hpath hfails
  · intro settings registry warnings blob hsettings hregistry hreads
    constructor
    · apply run_of_reads hsettings hregistry hreads
    · apply Parser.forall₂_reports

/-- A relative directory in the file of the project begins in the directory of that file, and a
relative path in the arguments does not.  The document is found there, the offsets are those of the
file, and the names of the items are those of the arguments. -/
theorem run_by_settings_project :
  let content := "[parse]\ndir = \"d\"\noffsets = \"utf16\"\n[registry]\npath = \"q\"".toList
  let table := "\x7b\"A \x7b0\x7d\":[\"Error\",1]\x7d".toList
  let document := "---\nexcerpt: e\n---\nB \x7b0\x7d".toList
  let files : FileTree :=
    ⟨[], [(["tserr".toList, "config.toml".toList], .file (FileTree.encode content)),
      (["tserr".toList, "d".toList, "1.md".toList], .file (FileTree.encode document)),
      (["r".toList], .file (FileTree.encode table))], []⟩
  let around : Surroundings := ⟨files, .ok (FileTree.encode "A 😀".toList), .accepted, "/u".toList⟩
  let args : Arguments := ⟨none, none, none, none, some "r".toList, false, true, false, []⟩
  let settings : Configuration := ⟨⟨some "tserr/d".toList, .utf16, true⟩, some "r".toList⟩
  args.InForce Configuration.ofText? around settings
    ∧ (args.run Configuration.ofText? around).error = none
    ∧ (args.run Configuration.ofText? around).stdout = FileTree.encode
      ("[\x7b\"code\":1,\"error\":\"A \x7b0\x7d\",".toList
        ++ "\"improvedError\":\x7b\"body\":\"B 😀\",\"excerpt\":\"e\"\x7d,".toList
        ++ "\"parseInfo\":\x7b\"startIndex\":0,\"endIndex\":4,".toList
        ++ "\"firstItem\":\"😀\"\x7d\x7d]\n".toList)
  := by
  intro content table document files around args settings
  have hread : files.read Configuration.projectFile = .ok content := by decide +kernel
  have hsaid : Configuration.Says Configuration.ofText? files Configuration.projectFile
      ⟨⟨some "d".toList, .utf16, false⟩, some "q".toList⟩ := ⟨content, hread, by decide +kernel⟩
  have hsettings : args.InForce Configuration.ofText? around settings := by
    apply InForce.file (.project (Configuration.holds_of_read_eq_ok hread)) hsaid
    constructor
    · decide +kernel
    · rfl
    · decide
    · decide
  let t : Template :=
    ⟨1, .error, "A \x7b0\x7d".toList, [.literal "A ".toList, .slot 0], by decide, by decide⟩
  let registry : Registry := ⟨[t], by simp⟩
  have hregistry : HasRegistry around settings registry [] := by
    have hread : files.read "r".toList = .ok table := by decide +kernel
    apply hasRegistry_of_templates rfl hread
    decide +kernel
  have hreads : args.Reads around "A 😀".toList := .stdin rfl rfl (by decide +kernel)
  obtain ⟨-, -, -, -, heffect⟩ := run_by_settings args Configuration.ofText? around
  have hrun := (heffect settings registry [] _ hsettings hregistry hreads).1
  use hsettings
  rw [hrun]
  constructor
  · rfl
  · apply congrArg FileTree.encode
    decide +kernel

end Arguments

end Diagnostics
