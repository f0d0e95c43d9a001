import Diagnostics.Corpus
import Diagnostics.Finding
import Diagnostics.Matching.Recognition
import Diagnostics.Options

/-!
# Parsing a blob

A parser turns a blob of diagnostics into findings, one for each recognised message and in the
order of `Matcher.recognizeAll`.  Explanations are added where a source has them.  A message
that nothing accounts for is left out and an explanation that cannot be used is missing, so that
parsing never fails; the unusable explanations are told about.
-/

namespace Diagnostics

/-- What is needed to parse a blob. -/
structure Parser where
  matcher : Matcher
  options : Options
  /-- Where explanations come from, if they are asked for. -/
  source : Option Explanation.Source

namespace Parser

/-- The parser of a registry.  Explanations come from the directory that the options name. -/
def ofRegistry (r : Registry) (options : Options) (files : FileTree) : Parser :=
  ⟨.ofRegistry r, options, options.dir.map (Explanation.Source.ofDirectory files)⟩

/-- A parser with explanations from another source. -/
def withSource (p : Parser) (source : Explanation.Source) : Parser :=
  { p with source := some source }

/-- The explanation of a recognised message, and what there is to tell about it. -/
def explain (p : Parser) (r : Recognition) : Option Explanation × List Explanation.Warning :=
  p.source.elim (none, []) fun source => Explanation.loadOrWarn source r.template.code r.items

/-- The finding of a recognised message of a blob. -/
def finding (p : Parser) (blob : Text) (r : Recognition) : Finding where
  code := r.template.code
  error := r.template.pattern
  improvedError := (p.explain r).1
  parseInfo :=
    ⟨p.options.offsets.offset blob r.window.start, p.options.offsets.offset blob r.window.stop,
      r.items, p.options.legacyItemFields⟩

/-- The findings in a blob. -/
def parse (p : Parser) (blob : Text) : List Finding :=
  (p.matcher.recognizeAll blob).map (p.finding blob)

/-- What there is to tell about the explanations of a blob. -/
def warnings (p : Parser) (blob : Text) : List Explanation.Warning :=
  (p.matcher.recognizeAll blob).flatMap fun r => (p.explain r).2

end Parser

/-- The parser of the corpus. -/
def Corpus.parser (options : Options) (files : FileTree) : Parser :=
  .ofRegistry registry options files

end Diagnostics
