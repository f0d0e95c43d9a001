import Diagnostics.Parser
import Mathlib.Data.List.Basic
import Mathlib.Tactic.Use

/-!
# Explanations in isolation

What is found in a blob does not depend on explanations.  Whether a finding has one is a matter of
the document for its code alone, and the explanation is made for its own items.  A document that is
there and gives no explanation is told about once for each finding with its code, and that there is
no document goes without saying.
-/

namespace Diagnostics

namespace Explanation

/-- The explanation that a document of a source gives for some items. -/
def Source.Explains (source : Source) (code : Nat) (items : List Text) (e : Explanation) : Prop :=
  ∃ document matter body excerpt, source.read code = .ok document
    ∧ FrontMatter.split? document = some (matter, body) ∧ source.excerpt? matter = some excerpt
    ∧ e = ⟨Substitution.bare.substitute items body, Substitution.quoted.substitute items excerpt⟩

/-- A source has no document for a code. -/
def Source.Lacks (source : Source) (code : Nat) : Prop :=
  ∃ other, source.read code = .error (.notFound other)

/-- A source has a document for a code that gives no explanation, for some reason. -/
inductive Source.Fails (source : Source) (code : Nat) : Error → Prop where
  | unreadable {error : Error} (hread : source.read code = .error error)
      (herror : ∀ other, error ≠ .notFound other) : Fails source code error
  | missingFrontMatter {document : Text} (hread : source.read code = .ok document)
      (hsplit : FrontMatter.split? document = none) :
      Fails source code (.missingFrontMatter code)
  | frontMatter {document matter body : Text} (hread : source.read code = .ok document)
      (hsplit : FrontMatter.split? document = some (matter, body))
      (hexcerpt : source.excerpt? matter = none) : Fails source code (.frontMatter code)

variable {source : Source} {code : Nat} {items : List Text} {e : Explanation} {error : Error}

/-! ### What loading comes to -/

theorem loadOrWarn_of_explains (h : source.Explains code items e) :
  loadOrWarn source code items = (some e, [])
  := by
  obtain ⟨document, matter, body, excerpt, hread, hsplit, hexcerpt, rfl⟩ := h
  rw [loadOrWarn, load, hread, Except.bind, ofDocument, hsplit]
  dsimp only
  rw [hexcerpt]

theorem loadOrWarn_of_lacks (h : source.Lacks code) :
  loadOrWarn source code items = (none, [])
  := by
  obtain ⟨other, hread⟩ := h
  rw [loadOrWarn, load, hread]
  rfl

theorem loadOrWarn_of_fails (h : source.Fails code error) :
  loadOrWarn source code items = (none, [⟨code, error⟩])
  := by
  cases h with
  | unreadable hread herror =>
      rw [loadOrWarn, load, hread, Except.bind]
      cases error with
      | notFound other => apply absurd rfl (herror other)
      | unreadable path reason => rfl
      | missingFrontMatter other => rfl
      | frontMatter other => rfl
  | missingFrontMatter hread hsplit =>
      rw [loadOrWarn, load, hread, Except.bind, ofDocument, hsplit]
  | frontMatter hread hsplit hexcerpt =>
      rw [loadOrWarn, load, hread, Except.bind, ofDocument, hsplit]
      dsimp only
      rw [hexcerpt]

/-- A source explains a code, has no document for it, or has one that gives no explanation. -/
theorem explains_or_lacks_or_fails (source : Source) (code : Nat) (items : List Text) :
  (∃ e, source.Explains code items e) ∨ source.Lacks code ∨ ∃ error, source.Fails code error
  := by
  cases hread : source.read code with
  | error error =>
      right
      by_cases herror : ∃ other, error = .notFound other
      · obtain ⟨other, rfl⟩ := herror
        left
        use other, hread
      · right
        use error
        apply Source.Fails.unreadable hread (not_exists.mp herror)
  | ok document =>
      cases hsplit : FrontMatter.split? document with
      | none =>
          right; right
          exact ⟨_, .missingFrontMatter hread hsplit⟩
      | some parts =>
          obtain ⟨matter, body⟩ := parts
          cases hexcerpt : source.excerpt? matter with
          | none =>
              right; right
              exact ⟨_, .frontMatter hread hsplit hexcerpt⟩
          | some excerpt =>
              left
              exact ⟨_, document, matter, body, excerpt, hread, hsplit, hexcerpt, rfl⟩

/-- There is an explanation exactly when the source explains the code. -/
theorem fst_loadOrWarn_eq_some_iff :
  (loadOrWarn source code items).1 = some e ↔ source.Explains code items e
  := by
  constructor
  · intro h
    rcases explains_or_lacks_or_fails source code items with ⟨e', he'⟩ | hlacks | ⟨error, herror⟩
    · rw [loadOrWarn_of_explains he'] at h
      obtain rfl := Option.some.inj h
      exact he'
    · rw [loadOrWarn_of_lacks hlacks] at h
      cases h
    · rw [loadOrWarn_of_fails herror] at h
      cases h
  · intro h
    rw [loadOrWarn_of_explains h]

/-- Nothing is told about a code unless its document fails. -/
theorem snd_loadOrWarn_eq_nil (items : List Text) (h : ¬ ∃ error, source.Fails code error) :
  (loadOrWarn source code items).2 = []
  := by
  rcases explains_or_lacks_or_fails source code items with ⟨e, he⟩ | hlacks | hfails
  · rw [loadOrWarn_of_explains he]
  · rw [loadOrWarn_of_lacks hlacks]
  · apply absurd hfails h

theorem not_fails_of_lacks (h : source.Lacks code) :
  ¬ source.Fails code error
  := by
  intro hfails
  have hnone : loadOrWarn source code [] = (none, [⟨code, error⟩]) := loadOrWarn_of_fails hfails
  rw [loadOrWarn_of_lacks h] at hnone
  cases hnone

end Explanation

/-- A finding without its explanation. -/
def Finding.unexplained (f : Finding) : Finding := { f with improvedError := none }

namespace Parser

variable {m : Matcher} {options : Options} {source : Explanation.Source} {blob : Text}

theorem explain_of_source (m : Matcher) (options : Options) (source : Explanation.Source)
    (r : Recognition) :
  (Parser.mk m options (some source)).explain r
    = Explanation.loadOrWarn source r.template.code r.items
  := rfl

/-- But for its explanation, a finding is the same with and without a source. -/
theorem unexplained_finding (r : Recognition) :
  ((Parser.mk m options (some source)).finding blob r).unexplained
    = (Parser.mk m options none).finding blob r
  := rfl

open Classical in
/-- The warnings are about the findings whose documents fail, one for each and in their order. -/
theorem forall₂_warnings (rs : List Recognition) :
  List.Forall₂ (fun f w => w.code = f.code ∧ source.Fails f.code w.error)
    ((rs.map ((Parser.mk m options (some source)).finding blob)).filter
      fun f => ∃ error, source.Fails f.code error)
    (rs.flatMap fun r => ((Parser.mk m options (some source)).explain r).2)
  := by
  induction rs with
  | nil => apply List.Forall₂.nil
  | cons r rs ih =>
      rw [List.map_cons, List.flatMap_cons, explain_of_source]
      have hcode : ((Parser.mk m options (some source)).finding blob r).code = r.template.code :=
        rfl
      rw [List.filter_cons, hcode]
      by_cases hfails : ∃ error, source.Fails r.template.code error
      · obtain ⟨error, herror⟩ := hfails
        rw [if_pos (decide_eq_true ⟨error, herror⟩), Explanation.loadOrWarn_of_fails herror]
        apply List.Forall₂.cons _ ih
        exact ⟨rfl, herror⟩
      · rw [if_neg fun h => hfails (of_decide_eq_true h),
          Explanation.snd_loadOrWarn_eq_nil r.items hfails]
        exact ih

open Classical in
/-- Explanations never disturb a parse, and fail in isolation.  A parser with a source finds what
it finds without one, in the same order and with the same codes, patterns and parse information.  A
finding has an explanation exactly when the document for its code can be read, has a front matter,
and this yields an excerpt; the body and the excerpt are then filled with the items of the finding.
The warnings are about the findings whose documents are there and fail, one for each and in their
order, and there is none where a document is missing. -/
theorem parse_explained (r : Registry) (options : Options) (source : Explanation.Source)
    (blob : Text) :
  let p := Parser.mk (.ofRegistry r) options (some source)
  (p.parse blob).map Finding.unexplained = (Parser.mk (.ofRegistry r) options none).parse blob
    ∧ (∀ f ∈ p.parse blob, ∀ e,
      f.improvedError = some e ↔ source.Explains f.code f.parseInfo.items e)
    ∧ List.Forall₂ (fun f w => w.code = f.code ∧ source.Fails f.code w.error)
      ((p.parse blob).filter fun f => ∃ error, source.Fails f.code error) (p.warnings blob)
    ∧ ∀ f ∈ p.parse blob, source.Lacks f.code →
      f.improvedError = none ∧ ∀ error, ¬ source.Fails f.code error
  := by
  intro p
  have hexplained (f : Finding) (hf : f ∈ p.parse blob) (e : Explanation) :
      f.improvedError = some e ↔ source.Explains f.code f.parseInfo.items e := by
    obtain ⟨found, -, rfl⟩ := List.mem_map.mp hf
    apply Explanation.fst_loadOrWarn_eq_some_iff
  constructor
  · rw [parse, parse, List.map_map]
    apply List.map_congr_left
    intro found _
    apply unexplained_finding
  constructor
  · exact hexplained
  constructor
  · apply forall₂_warnings
  · intro f hf hlacks
    constructor
    · obtain ⟨found, -, rfl⟩ := List.mem_map.mp hf
      exact congrArg Prod.fst (Explanation.loadOrWarn_of_lacks hlacks)
    · intro error
      apply Explanation.not_fails_of_lacks hlacks

/-- The first document explains, the second one has no front matter, and there is no third one. -/
theorem parse_explained_document :
  let a : Template :=
    ⟨1, .error, "A\x7b0\x7d".toList, [.literal ['A'], .slot 0], by decide, by decide⟩
  let b : Template :=
    ⟨2, .error, "B\x7b0\x7d".toList, [.literal ['B'], .slot 0], by decide, by decide⟩
  let c : Template :=
    ⟨3, .error, "C\x7b0\x7d".toList, [.literal ['C'], .slot 0], by decide, by decide⟩
  let r : Registry := ⟨[a, b, c], by decide⟩
  let source := Explanation.Source.ofTable
    [(1, "---\nexcerpt: On '\x7b0\x7d'\n---\nAbout \x7b0\x7d".toList), (2, "About".toList)]
  let p := Parser.mk (.ofRegistry r) {} (some source)
  let blob := "Ax\nBy\nCz".toList
  let e : Explanation := ⟨"About x".toList, "On `x`".toList⟩
  let findings : List Finding := [⟨1, a.pattern, some e, ⟨0, 2, [['x']], false⟩⟩,
    ⟨2, b.pattern, none, ⟨3, 5, [['y']], false⟩⟩, ⟨3, c.pattern, none, ⟨6, 8, [['z']], false⟩⟩]
  p.parse blob = findings ∧ p.warnings blob = [⟨2, .missingFrontMatter 2⟩]
    ∧ (Parser.mk (.ofRegistry r) {} none).parse blob = findings.map Finding.unexplained
    ∧ source.Explains 1 [['x']] e ∧ ∀ error, ¬ source.Fails 3 error
  := by
  intro a b c r source p blob e findings
  have horder : Matcher.ofRegistry r = ⟨[a, b, c]⟩ := by
    rw [Matcher.ofRegistry, Registry.bySpecificity, List.mergeSort_of_pairwise (by decide +kernel)]
  have hparse : p.parse blob = findings := by
    dsimp only [p]
    rw [horder]
    decide +kernel
  obtain ⟨hunexplained, hexplained, -, hlacks⟩ := parse_explained r {} source blob
  rw [hparse] at hunexplained hexplained hlacks
  use hparse
  constructor
  · dsimp only [p]
    rw [horder]
    decide +kernel
  use hunexplained.symm
  constructor
  · exact (hexplained findings[0] (by simp [findings]) e).mp rfl
  · exact (hlacks findings[2] (by simp [findings]) ⟨3, rfl⟩).2

end Parser

end Diagnostics
