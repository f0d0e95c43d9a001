import Diagnostics.Proofs.Message.Folded
import Diagnostics.Proofs.Parser.Chain

/-!
# Renderings read back

What a template renders is recognised again: with the same template and the same items, if no other
choice of items is possible and no template that is tried earlier accounts for the text.  In the
corpus the latter is no condition, as no template shadows the lines of another one.
-/

namespace Diagnostics

open Text (IsWord IsTrimmed IsFolded isBlankText)

namespace Matcher

variable {r : Registry} {t : Template} {items : List Text} {text : Text}

/-- Items that account for a text are recognised in it, unless an earlier template is. -/
theorem exists_recognize?_of_accounts (ht : t ∈ r.templates) (haccounts : t.Accounts items text)
    (hne : text ≠ []) (htrimmed : IsTrimmed text)
    (hfirst : ∀ u ∈ r.templates, u.precedes t = true → u.captures? (Piece.whole text) = none) :
  ∃ found, (ofRegistry r).recognize? (.ofLine (Piece.whole text)) = some found
    ∧ found.template = t ∧ found.items = items ∧ found.window = Piece.whole text
  := by
  have htrim : (Message.ofLine (Piece.whole text)).piece.trim = Piece.whole text :=
    Piece.trim_eq_self htrimmed hne
  have hwhole : t.Accounts items (Piece.whole text).text := haccounts
  obtain ⟨captures, hcaptures, rfl⟩ := Template.captures?_of_accounts hwhole
  use ⟨t, Piece.whole text, captures⟩
  constructor
  · apply recognize?_eq_some
    · rw [htrim]
      exact hne
    · exact htrim.symm
    · exact ht
    · rw [htrim]
      exact hcaptures
    · rw [htrim]
      exact hfirst
  · exact ⟨rfl, rfl, rfl⟩

/-- A rendering that no earlier template accounts for is recognised, with its template and its
items and where it stands, whatever white space is put around it.  It has to be trimmed and folded,
since it would be read without its ends or as several messages otherwise. -/
theorem recognizeAll_render (ht : t ∈ r.templates) (haccounts : t.Accounts items text)
    (hne : text ≠ []) (htrimmed : IsTrimmed text) (hfolded : IsFolded text)
    (hfirst : ∀ u ∈ r.templates, u.precedes t = true → u.captures? (Piece.whole text) = none)
    {pre post : Text} (hpre : isBlankText pre = true) (hpost : isBlankText post = true) :
  ∃ found, (ofRegistry r).recognizeAll (pre ++ text ++ post) = [found]
    ∧ found.template = t ∧ found.captures.map (·.text) = items
    ∧ found.window.span = ⟨pre.utf8Length, pre.utf8Length + text.utf8Length⟩
  := by
  obtain ⟨found, hfound, htemplate, hitems, hwindow⟩ :=
    exists_recognize?_of_accounts ht haccounts hne htrimmed hfirst
  use found.shift pre.utf8Length,
    recognizeAll_padded hpre htrimmed hfolded hpost hfound, htemplate
  constructor
  · rw [← hitems]
    apply Recognition.items_shift
  · rw [Recognition.shift, hwindow]
    simp [Piece.span, Piece.stop, Piece.shift, Piece.whole]

/-- Two lines with braces and quotes in their items, behind a blank line and in front of another;
the template that is tried first does not account for them. -/
theorem recognizeAll_render_lines :
  let s : Template :=
    ⟨1, .error, "é{0}:{1}".toList, [.literal "é".toList, .slot 0, .literal ":".toList, .slot 1],
      by decide, by decide⟩
  let t : Template :=
    ⟨2, .error, "{0}:{1}".toList, [.slot 0, .literal ":".toList, .slot 1], by decide, by decide⟩
  let r : Registry := ⟨[s, t], by decide⟩
  s.precedes t = true
    ∧ ∃ found, (ofRegistry r).recognizeAll "\t\n\x7b0\x7d:é\n ':'\n \n".toList = [found]
      ∧ found.template = t ∧ found.captures.map (·.text) = ["\x7b0\x7d".toList, "é\n ':'".toList]
      ∧ found.window.span = ⟨2, 13⟩
  := by
  intro s t r
  have haccounts : t.Accounts ["\x7b0\x7d".toList, "é\n ':'".toList] "\x7b0\x7d:é\n ':'".toList :=
    Template.accounts_of_captures?
      (by decide : t.captures? (Piece.whole "\x7b0\x7d:é\n ':'".toList)
        = some [⟨0, "\x7b0\x7d".toList⟩, ⟨4, "é\n ':'".toList⟩])
  have htrimmed : IsTrimmed "\x7b0\x7d:é\n ':'".toList := by
    constructor
    · intro c hc
      obtain rfl := Option.some.inj hc
      decide
    · intro c hc
      obtain rfl := Option.some.inj hc
      decide
  have hfolded : IsFolded "\x7b0\x7d:é\n ':'".toList := by
    rw [IsFolded]
    decide
  have hfirst : ∀ u ∈ r.templates, u.precedes t = true →
      u.captures? (Piece.whole "\x7b0\x7d:é\n ':'".toList) = none := by decide
  have hpre : isBlankText "\t\n".toList = true := by decide
  have hpost : isBlankText "\n \n".toList = true := by decide
  use by decide
  exact recognizeAll_render (List.mem_cons_of_mem _ List.mem_cons_self) haccounts (by decide)
    htrimmed hfolded hfirst hpre hpost

end Matcher

namespace Corpus

/-- A line of the corpus is found as what it is: the finding in the rendering of a template with
words has the code and the pattern of the template, these words as its items, and stands for the
whole line.  No other template shadows it, as those that account for the line too are tried later. -/
theorem parse_render (files : FileTree) {t : Template} (ht : t ∈ registry.templates)
    {items : List Text} (hlength : items.length = t.arity)
    (hitems : ∀ item ∈ items, IsWord item) :
  (parser {} files).parse (t.render items)
      = [⟨t.code, t.pattern, none, ⟨0, (t.render items).utf8Length, items, false⟩⟩]
    ∧ ∀ u ∈ registry.templates, u ≠ t →
      (u.captures? (Piece.whole (t.render items))).isSome = true → t.precedes u = true
  := by
  have hplain : Cause.IsPlain registry ⟨t, items⟩ := ⟨ht, hlength, hitems⟩
  have hline := legible.isLine_render ht hitems
  constructor
  · obtain ⟨found, hfound, hfinding⟩ := legible.exists_finding hplain (t.render items) 0
    have hall := Matcher.recognizeAll_of_isFolded (Text.isFolded_of_not_mem hline.not_mem_lineFeed)
      hfound
    rw [Cause.finding, Nat.zero_add] at hfinding
    rw [Parser.parse, parser, Parser.ofRegistry, hall, List.map_singleton]
    exact congrArg (fun f => [f]) hfinding
  · intro u hu hne hcaptures
    rcases Registry.precedes_or_precedes hu ht hne with hprecedes | hprecedes
    · have hshows : t.sketch.Shows (Piece.whole (t.render items)).text :=
        Segment.shows_render hitems t.segments
      rw [Template.captures?_eq_none_of_misses (legible.misses u hu t ht hprecedes)
        (legible.delimited u hu) hshows] at hcaptures
      cases hcaptures
    · exact hprecedes

/-- The longest of the templates for modules, which repeats its slots, against those that begin in
the same way. -/
theorem parse_render_module :
  ∃ t ∈ registry.templates, t.arity = 2
    ∧ t.render ["m".toList, "é".toList]
      = "Module 'm' has no exported member 'é'. Did you mean to use 'import é from m' instead?".toList
    ∧ (parser {} ⟨[], [], []⟩).parse
        "Module 'm' has no exported member 'é'. Did you mean to use 'import é from m' instead?".toList
      = [⟨2614, "Module '{0}' has no exported member '{1}'. Did you mean to use 'import {1} from {0}' instead?".toList,
          none, ⟨0, 87, ["m".toList, "é".toList], false⟩⟩]
  := by
  obtain ⟨t, ht, hcode, hpattern, hsegments⟩ := exists_of_pattern 2614
    "Module '{0}' has no exported member '{1}'. Did you mean to use 'import {1} from {0}' instead?"
    (by simp [entries])
  have harity : t.arity = 2 := by
    rw [Template.arity, hsegments]
    decide +kernel
  have hrender : t.render ["m".toList, "é".toList]
      = "Module 'm' has no exported member 'é'. Did you mean to use 'import é from m' instead?".toList
      := by
    rw [Template.render, hsegments]
    decide +kernel
  have hlength : ["m".toList, "é".toList].length = t.arity := harity.symm
  have hitems : ∀ item ∈ ["m".toList, "é".toList], IsWord item := by decide
  have hstop : Text.utf8Length (t.render ["m".toList, "é".toList]) = 87 := by
    rw [hrender]
    decide +kernel
  have hparse := (parse_render ⟨[], [], []⟩ ht hlength hitems).1
  rw [hstop, hrender, hcode, hpattern] at hparse
  use t, ht, harity, hrender, hparse

end Corpus

end Diagnostics
