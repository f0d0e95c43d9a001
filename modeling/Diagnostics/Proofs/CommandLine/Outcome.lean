import Diagnostics.Proofs.CommandLine.Stages
import Diagnostics.Proofs.Json.Reading
import Mathlib.Order.WellFounded

/-!
# Outcomes of runs

A run that fails does so with the first stage that fails.  It changes no file, and it writes nothing
but what the standard output takes before it breaks off.  Any other run puts a JSON document, from
which its findings are read back, and a newline behind it into one place.
-/

namespace Diagnostics

/-- Whatever is written is taken as a whole or not at all. -/
def Reception.IsWhole (r : Reception) : Prop := ∀ taken error, r = .refused taken error → taken = 0

namespace Arguments

/-- A stage of a run does not fail. -/
def Passes (args : Arguments) (toml : Text → Option Configuration) (around : Surroundings)
    (stage : Stage) : Prop :=
  ∀ error, ¬ args.FailsAt toml around stage error

/-- The first stage of a run that fails does so with an error. -/
def FailsFirst (args : Arguments) (toml : Text → Option Configuration) (around : Surroundings)
    (error : RunError) : Prop :=
  ∃ stage, args.FailsAt toml around stage error
    ∧ ∀ earlier, earlier.place < stage.place → args.Passes toml around earlier

/-- What a run finds: the findings in its input, with its settings and its registry. -/
inductive Finds (args : Arguments) (toml : Text → Option Configuration) (around : Surroundings) :
    List Finding → Prop where
  | intro {settings : Configuration} {registry : Registry} {warnings : List Registry.Warning}
      {blob : Text} (hsettings : args.InForce toml around settings)
      (hregistry : HasRegistry around settings registry warnings)
      (hreads : args.Reads around blob) :
      Finds args toml around ((Parser.mk (.ofRegistry registry) settings.parse
        (settings.parse.dir.map (Explanation.Source.ofDirectory around.files))).parse blob)

/-- A document is the JSON of some findings, laid out as the arguments ask for. -/
structure Documents (args : Arguments) (findings : List Finding) (document : Text) : Prop where
  eq : document = if args.pretty then (Json.array (findings.map Finding.toJson)).pretty
    else (Json.array (findings.map Finding.toJson)).compact
  /-- The findings are read back from the document, with the newline behind it. -/
  ofText?_eq : Json.ofText? (document ++ ['\n']) = some (.array (findings.map Finding.toJson))

variable {args : Arguments} {toml : Text → Option Configuration} {around : Surroundings}
  {error : RunError} {findings : List Finding} {text : Text} {part : ByteArray}

/-! ### What is written -/

/-- A run writes a document and a newline behind it. -/
theorem exists_documents (args : Arguments) (findings : List Finding) :
  ∃ document, args.Documents findings document ∧ args.write findings = document ++ ['\n']
  := by
  have hnewline : Json.Blank ['\n'] := rfl
  cases hpretty : args.pretty with
  | true =>
      use (Json.array (findings.map Finding.toJson)).pretty
      constructor
      · constructor
        · rw [if_pos hpretty]
        · apply Json.ofText?_pretty _ hnewline
      · rw [write, Finding.listToJson, if_pos hpretty]
  | false =>
      have hcompact : ¬ args.pretty = true := by rw [hpretty]; exact Bool.false_ne_true
      use (Json.array (findings.map Finding.toJson)).compact
      constructor
      · constructor
        · rw [if_neg hcompact]
        · apply Json.ofText?_compact _ hnewline
      · rw [write, Finding.listToJson, if_neg hcompact]

theorem write_ne_nil (args : Arguments) (findings : List Finding) :
  args.write findings ≠ []
  := by
  obtain ⟨document, -, hwrite⟩ := exists_documents args findings
  rw [hwrite]
  apply List.append_ne_nil_of_right_ne_nil
  apply List.cons_ne_nil

/-- A part of what is taken as a whole or not at all is empty. -/
theorem BreaksOff.eq_empty (h : args.BreaksOff around text part) (hwhole : around.stdout.IsWhole) :
  part = .empty
  := by
  obtain ⟨-, taken, cause, rest, hstdout, hsize, -⟩ := h
  rw [hwhole taken cause hstdout, Nat.le_zero] at hsize
  apply ByteArray.size_eq_zero_iff.mp hsize

/-! ### Stages -/

theorem exists_inForce (h : args.Passes toml around .configuration) :
  ∃ settings, args.InForce toml around settings
  := by
  apply (fails_or_inForce args toml around).resolve_left
  rintro ⟨path, error, hchosen, hfails⟩
  apply h _ (.configuration hchosen hfails)

theorem exists_hasRegistry {settings : Configuration}
    (hsettings : args.InForce toml around settings) (h : args.Passes toml around .registry) :
  ∃ registry warnings, HasRegistry around settings registry warnings
  := by
  apply (fails_or_hasRegistry around settings).resolve_left
  rintro ⟨path, error, hpath, hfails⟩
  apply h _ (.registry hsettings hpath hfails)

theorem exists_reads (h : args.Passes toml around .input) :
  ∃ blob, args.Reads around blob
  := by
  apply (fails_or_reads args toml around).resolve_left
  rintro ⟨error, hfails⟩
  apply h error hfails

/-- What passes the stages before the output has findings to deliver. -/
theorem exists_run_eq_deliver (hconfiguration : args.Passes toml around .configuration)
    (hregistry : args.Passes toml around .registry) (hinput : args.Passes toml around .input) :
  ∃ findings notices, args.Finds toml around findings
    ∧ args.run toml around = args.deliver around (args.write findings) notices
  := by
  obtain ⟨settings, hsettings⟩ := exists_inForce hconfiguration
  obtain ⟨registry, warnings, hregistry⟩ := exists_hasRegistry hsettings hregistry
  obtain ⟨blob, hreads⟩ := exists_reads hinput
  exact ⟨_, _, .intro hsettings hregistry hreads, run_of_reads hsettings hregistry hreads⟩

/-! ### Runs -/

/-- A run fails with the first stage that fails.  It changes no file, and the standard output takes
a part of what is found at most. -/
theorem run_of_failsFirst (h : args.FailsFirst toml around error) :
  ∃ part notices, args.run toml around = ⟨some error, part, around.files, notices⟩
    ∧ (part = .empty ∨ ∃ findings, args.Finds toml around findings
      ∧ args.BreaksOff around (args.write findings) part)
  := by
  -- The run comes as far as the stage that fails, because the stages before it have their values.
  obtain ⟨stage, hfails, hearlier⟩ := h
  cases stage with
  | configuration =>
      cases hfails with
      | configuration hchosen hfails =>
          exact ⟨_, _, run_of_fails hchosen hfails, .inl rfl⟩
  | registry =>
      cases hfails with
      | registry hsettings hpath hfails =>
          exact ⟨_, _, run_of_registry_fails hsettings hpath hfails, .inl rfl⟩
  | input =>
      obtain ⟨settings, hsettings⟩ := exists_inForce (hearlier .configuration (by decide))
      obtain ⟨registry, warnings, hregistry⟩ :=
        exists_hasRegistry hsettings (hearlier .registry (by decide))
      exact ⟨_, _, run_of_input_fails hsettings hregistry hfails, .inl rfl⟩
  | output =>
      obtain ⟨findings, notices, hfinds, hrun⟩ := exists_run_eq_deliver
        (hearlier .configuration (by decide)) (hearlier .registry (by decide))
        (hearlier .input (by decide))
      obtain ⟨part, hpart, hdeliver⟩ :=
        deliver_of_fails hfails (write_ne_nil args findings) notices
      use part, notices, hrun.trans hdeliver
      apply hpart.imp_right
      intro hbreaks
      use findings, hfinds

/-- A run that passes all stages delivers what it finds. -/
theorem run_of_passes (h : ∀ stage, args.Passes toml around stage) :
  ∃ findings stdout files notices, args.Finds toml around findings
    ∧ args.Delivers around (args.write findings) stdout files
    ∧ args.run toml around = ⟨none, stdout, files, notices⟩
  := by
  obtain ⟨findings, notices, hfinds, hrun⟩ :=
    exists_run_eq_deliver (h .configuration) (h .registry) (h .input)
  obtain ⟨stdout, files, hdelivers, hdeliver⟩ :=
    deliver_of_passes (h .output) (args.write findings) notices
  exact ⟨findings, stdout, files, notices, hfinds, hdelivers, hrun.trans hdeliver⟩

/-- A run fails first somewhere or passes all stages. -/
theorem failsFirst_or_passes (args : Arguments) (toml : Text → Option Configuration)
    (around : Surroundings) :
  (∃ error, args.FailsFirst toml around error) ∨ ∀ stage, args.Passes toml around stage
  := by
  by_cases hfails : ∃ stage error, args.FailsAt toml around stage error
  · left
    obtain ⟨stage, ⟨error, herror⟩, hleast⟩ := (measure Stage.place).wf.has_min
      {stage | ∃ error, args.FailsAt toml around stage error} hfails
    use error, stage, herror
    intro earlier hearlier other hother
    apply hleast earlier ⟨other, hother⟩ hearlier
  · right
    intro stage error herror
    apply hfails ⟨stage, error, herror⟩

end Arguments

end Diagnostics
