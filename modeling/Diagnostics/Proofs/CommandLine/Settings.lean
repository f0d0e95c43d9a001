import Diagnostics.CommandLine.Run
import Diagnostics.Proofs.Files.Writing
import Mathlib.Tactic.Use

/-!
# Settings in force

The configuration of a run comes from one file at most, and where that file is no configuration the
run fails, whatever other files there are.  A setting is what the arguments say, or else what the
file says, or else the default.  Paths that the arguments say are taken as they are, and relative
paths that a file says begin in the directory of the file.  The settings in force are determined, or
there are none because a file fails, and all this holds however a text is read as a configuration.
-/

namespace Diagnostics

/-- A path in the directory `base`, if it is relative, and else the path itself. -/
def Path.within (base p : Path) : Path := if p.isAbsolute then p else base.join p

/-- A unit is known by whether it is the one of code units. -/
theorem OffsetUnit.eq_of_iff {u v : OffsetUnit} (h : u = .utf16 ↔ v = .utf16) :
  u = v
  := by
  cases u <;> cases v <;> simp_all

namespace Configuration

/-- The file that the configuration is taken from: the one that the arguments name, and else the
first one that is there of those of the project and of the user. -/
inductive IsChosen (files : FileTree) (userFile : Path) : Option Path → Option Path → Prop where
  | explicit (path : Path) : IsChosen files userFile (some path) (some path)
  | project (hproject : files.holds projectFile = true) :
      IsChosen files userFile none (some projectFile)
  | user (hproject : files.holds projectFile = false) (huser : files.holds userFile = true) :
      IsChosen files userFile none (some userFile)
  | absent (hproject : files.holds projectFile = false) (huser : files.holds userFile = false) :
      IsChosen files userFile none none

/-- A file gives no configuration, for some reason. -/
inductive Fails (toml : Text → Option Configuration) (files : FileTree) (path : Path) :
    Error → Prop where
  | missing (hholds : files.holds path = false) : Fails toml files path (.missingFile path)
  | unreadable {error : FileError} (hholds : files.holds path = true)
      (hread : files.read path = .error error) : Fails toml files path (.unreadable error)
  | invalid {content : Text} (hread : files.read path = .ok content)
      (htext : toml content = none) : Fails toml files path .invalid

/-- What a file says, with its paths as they are written. -/
def Says (toml : Text → Option Configuration) (files : FileTree) (path : Path)
    (said : Configuration) : Prop :=
  ∃ content, files.read path = .ok content ∧ toml content = some said

/-- What a file in the directory `base` says. -/
def within (base : Path) (said : Configuration) : Configuration where
  parse := { said.parse with dir := said.parse.dir.map (Path.within base) }
  registry := said.registry.map (Path.within base)

/-- What the arguments say goes before what a configuration says. -/
structure Overrides (args : Arguments) (c settings : Configuration) : Prop where
  dir : settings.parse.dir = args.dir.or c.parse.dir
  registry : settings.registry = args.registry.or c.registry
  offsets : settings.parse.offsets = .utf16 ↔ args.utf16 = true ∨ c.parse.offsets = .utf16
  legacyItemFields : settings.parse.legacyItemFields = true
    ↔ args.legacyItems = true ∨ c.parse.legacyItemFields = true

variable {toml : Text → Option Configuration} {files : FileTree} {userFile path : Path}
  {explicit chosen : Option Path} {c said settings : Configuration} {error : Error}
  {args : Arguments}

/-! ### The configuration file -/

theorem choose_eq_iff :
  choose files userFile explicit = chosen ↔ IsChosen files userFile explicit chosen
  := by
  constructor
  · rintro rfl
    cases explicit with
    | some path => apply IsChosen.explicit
    | none =>
        rw [choose, Option.none_or]
        cases hproject : files.holds projectFile with
        | true =>
            rw [List.find?_cons_of_pos hproject]
            apply IsChosen.project hproject
        | false =>
            rw [List.find?_cons_of_neg (by simp [hproject])]
            cases huser : files.holds userFile with
            | true =>
                rw [List.find?_cons_of_pos huser]
                apply IsChosen.user hproject huser
            | false =>
                rw [List.find?_cons_of_neg (by simp [huser]), List.find?_nil]
                apply IsChosen.absent hproject huser
  · intro h
    cases h with
    | explicit path => rfl
    | project hproject => simp [choose, hproject]
    | user hproject huser => simp [choose, hproject, huser]
    | absent hproject huser => simp [choose, hproject, huser]

theorem holds_of_read_eq_ok {content : Text} (h : files.read path = .ok content) :
  files.holds path = true
  := by
  obtain ⟨way, hlocate, -⟩ := bind_eq_ok_iff.mp h
  rw [FileTree.holds, hlocate]
  rfl

theorem join_eq_within (base p : Path) :
  base.join p = Path.within base p
  := by
  rw [Path.within]
  split
  · rename_i habsolute
    rw [Path.join, habsolute, Bool.true_or, if_pos rfl]
  · rfl

theorem resolve_eq_within (base : Path) (c : Configuration) :
  c.resolve base = c.within base
  := by
  have hjoin : Path.join base = Path.within base := funext (join_eq_within base)
  rw [resolve, within, hjoin]

/-- A file that fails is not loaded. -/
theorem load_of_fails (h : Fails toml files path error) :
  load toml files path = .error error
  := by
  cases h with
  | missing hholds => rw [load, if_neg (by simp [hholds])]
  | unreadable hholds hread => rw [load, if_pos hholds, hread]
  | invalid hread htext =>
      rw [load, if_pos (holds_of_read_eq_ok hread), hread]
      dsimp only
      rw [htext]

/-- What a file says begins in its directory. -/
theorem load_of_says (h : Says toml files path said) :
  load toml files path = .ok (said.within path.parent)
  := by
  obtain ⟨content, hread, htext⟩ := h
  rw [load, if_pos (holds_of_read_eq_ok hread), hread]
  dsimp only
  rw [htext, ← resolve_eq_within]

theorem fails_or_says (toml : Text → Option Configuration) (files : FileTree) (path : Path) :
  (∃ error, Fails toml files path error) ∨ ∃ said, Says toml files path said
  := by
  cases hholds : files.holds path with
  | false => exact .inl ⟨_, .missing hholds⟩
  | true =>
      cases hread : files.read path with
      | error error => exact .inl ⟨_, .unreadable hholds hread⟩
      | ok content =>
          cases htext : toml content with
          | none => exact .inl ⟨_, .invalid hread htext⟩
          | some said => exact .inr ⟨said, content, hread, htext⟩

theorem find_of_chosen (h : IsChosen files userFile explicit (some path)) :
  find toml files userFile explicit = load toml files path
  := by
  rw [find, choose_eq_iff.mpr h]
  rfl

theorem find_of_absent (h : IsChosen files userFile explicit none) :
  find toml files userFile explicit = .ok {}
  := by
  rw [find, choose_eq_iff.mpr h]
  rfl

/-! ### Flags before the file -/

theorem overrides_options (args : Arguments) (c : Configuration) :
  Overrides args c ⟨c.options args, c.registryFile args⟩
  := by
  constructor
  · rfl
  · rfl
  · cases hutf16 : args.utf16 with
    | true => simp [options, hutf16]
    | false => simp [options, hutf16]
  · rw [options, Bool.or_eq_true]

/-- The settings are determined by the arguments and the configuration. -/
theorem Overrides.eq (h : Overrides args c settings) :
  settings = ⟨c.options args, c.registryFile args⟩
  := by
  obtain ⟨hdir, hregistry, hoffsets, hlegacy⟩ := overrides_options args c
  obtain ⟨⟨dir, offsets, legacy⟩, registry⟩ := settings
  congr
  · exact h.dir
  · apply OffsetUnit.eq_of_iff (h.offsets.trans hoffsets.symm)
  · apply Bool.eq_iff_iff.mpr (h.legacyItemFields.trans hlegacy.symm)
  · exact h.registry

end Configuration

namespace Arguments

open Diagnostics.Configuration (IsChosen Fails Says Overrides)

/-- The settings of a run. -/
inductive InForce (args : Arguments) (toml : Text → Option Configuration)
    (around : Surroundings) : Configuration → Prop where
  | absent {settings : Configuration}
      (hchosen : IsChosen around.files around.userFile args.config none)
      (hoverrides : Overrides args {} settings) : InForce args toml around settings
  | file {path : Path} {said settings : Configuration}
      (hchosen : IsChosen around.files around.userFile args.config (some path))
      (hsaid : Says toml around.files path said)
      (hoverrides : Overrides args (said.within path.parent) settings) :
      InForce args toml around settings

variable {args : Arguments} {toml : Text → Option Configuration} {around : Surroundings}
  {path : Path} {settings : Configuration}
  {error : Configuration.Error}

/-- The settings in force are those of the configuration that is found. -/
theorem InForce.exists_find_eq (h : args.InForce toml around settings) :
  ∃ c, Configuration.find toml around.files around.userFile args.config = .ok c
    ∧ settings = ⟨c.options args, c.registryFile args⟩
  := by
  cases h with
  | absent hchosen hoverrides =>
      exact ⟨_, Configuration.find_of_absent hchosen, hoverrides.eq⟩
  | file hchosen hsaid hoverrides =>
      have hload := Configuration.load_of_says hsaid
      exact ⟨_, (Configuration.find_of_chosen hchosen).trans hload, hoverrides.eq⟩

theorem find_of_fails
    (hchosen : IsChosen around.files around.userFile args.config (some path))
    (hfails : Fails toml around.files path error) :
  Configuration.find toml around.files around.userFile args.config = .error error
  := by
  rw [Configuration.find_of_chosen hchosen, Configuration.load_of_fails hfails]

/-- The file that the configuration is taken from fails, or there are settings in force. -/
theorem fails_or_inForce (args : Arguments) (toml : Text → Option Configuration)
    (around : Surroundings) :
  (∃ path error, IsChosen around.files around.userFile args.config (some path)
      ∧ Fails toml around.files path error)
    ∨ ∃ settings, args.InForce toml around settings
  := by
  generalize hchosen : Configuration.choose around.files around.userFile args.config = chosen
  rw [Configuration.choose_eq_iff] at hchosen
  cases chosen with
  | none => exact .inr ⟨_, .absent hchosen (Configuration.overrides_options args {})⟩
  | some path =>
      rcases Configuration.fails_or_says toml around.files path with ⟨error, herror⟩ | ⟨said, hsaid⟩
      · exact .inl ⟨path, error, hchosen, herror⟩
      · exact .inr ⟨_, .file hchosen hsaid (Configuration.overrides_options args _)⟩

theorem InForce.not_fails (h : args.InForce toml around settings)
    (hchosen : IsChosen around.files around.userFile args.config (some path)) :
  ¬ Fails toml around.files path error
  := by
  intro hfails
  obtain ⟨c, hfind, -⟩ := h.exists_find_eq
  rw [find_of_fails hchosen hfails] at hfind
  cases hfind

theorem InForce.unique {other : Configuration} (h : args.InForce toml around settings)
    (hother : args.InForce toml around other) :
  settings = other
  := by
  obtain ⟨c, hfind, rfl⟩ := h.exists_find_eq
  obtain ⟨d, hfind', rfl⟩ := hother.exists_find_eq
  obtain rfl := Except.ok.inj (hfind.symm.trans hfind')
  rfl

end Arguments

end Diagnostics
