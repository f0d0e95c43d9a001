import Diagnostics.Parser
import Diagnostics.Proofs.Corpus.Legible
import Diagnostics.Proofs.Message.Chain

/-!
# Chains of causes

A chain of causes is a message whose lines are renderings of templates.  The matcher tries the
message as a whole first, and a slot may take several lines, so that some chains are absorbed by a
single template.  Which ones are is a matter of the templates of the lines, not of their items: a
chain is absorbed when the chain of the bare templates is.  All other chains are recovered line by
line.
-/

namespace Diagnostics

open Text (IsWord IsIndent IsLine isBlankText below)

/-- A line of a chain: a template and the items that fill it. -/
structure Cause where
  template : Template
  items : List Text

namespace Cause

/-- The line of a cause. -/
def text (c : Cause) : Text := c.template.render c.items

/-- A cause that fills a template of the registry with words. -/
structure IsPlain (r : Registry) (c : Cause) : Prop where
  template_mem : c.template ∈ r.templates
  length_items : c.items.length = c.template.arity
  isWord_items : ∀ item ∈ c.items, IsWord item

/-- The head line of a chain with the other causes below it, each with white space in front. -/
def chain (head : Cause) (causes : List (Text × Cause)) : Text :=
  head.text ++ below (causes.map fun p => (p.1, p.2.text))

/-- The finding that reports a cause whose line stands at an offset. -/
def finding (c : Cause) (start : Nat) : Finding :=
  ⟨c.template.code, c.template.pattern, none,
    ⟨start, start + c.text.utf8Length, c.items, false⟩⟩

/-- The findings that report the causes below a line that ends at an offset, from top to bottom. -/
def findingsBelow : Nat → List (Text × Cause) → List Finding
  | _, [] => []
  | n, (indent, c) :: causes =>
    c.finding (n + 1 + indent.utf8Length)
      :: findingsBelow (n + 1 + indent.utf8Length + c.text.utf8Length) causes

/-- The findings that report a chain line by line, innermost cause first. -/
def findings (head : Cause) (causes : List (Text × Cause)) : List Finding :=
  (head.finding 0 :: findingsBelow head.text.utf8Length causes).reverse

end Cause

namespace Registry

variable {r : Registry} {lines : List Sketch}

/-- A template without items, as a cause. -/
def bare (t : Template) : Cause := ⟨t, []⟩

/-- A chain of templates without items, each line below the first behind a single space. -/
def outline (t : Template) (ts : List Template) : Text :=
  (bare t).chain (ts.map fun t => ([' '], bare t))

/-- Some template of the registry accounts for the outline of a chain as a whole. -/
def Absorbs (r : Registry) (t : Template) (ts : List Template) : Prop :=
  ∃ u ∈ r.templates, (u.captures? (Piece.whole (outline t ts))).isSome = true

namespace Legible

open Text (IsTrimmed)

variable {head : Cause} {causes : List (Text × Cause)} {after : Text}

/-- Whether some template accounts for a chain can be told from the templates of its lines. -/
theorem exists_isSome_chain_iff (h : r.Legible lines) (hne : causes ≠ [])
    (hmem : head.template ∈ r.templates ∧ ∀ p ∈ causes, p.2.template ∈ r.templates)
    (hhead : ∀ item ∈ head.items, IsWord item)
    (hcauses : ∀ p ∈ causes, isBlankText p.1 = true ∧ ∀ item ∈ p.2.items, IsWord item)
    (n : Nat) :
  (∃ u ∈ r.templates, (u.captures? ⟨n, head.chain causes⟩).isSome = true)
    ↔ ∃ u ∈ r.templates, u.IsSettled lines ∧ Segment.joins u.segments head.template.sketch
      ((causes.map (·.2.template)).map Template.sketch) = true
  := by
  apply h.exists_isSome_captures?_iff (h.sketch_mem _ hmem.1) (Segment.shows_render hhead _)
  · intro τ hτ
    rw [List.map_map, List.mem_map] at hτ
    obtain ⟨p, hp, rfl⟩ := hτ
    apply h.sketch_mem _ (hmem.2 p hp)
  · rw [Sketch.ShowBelow, List.map_map, List.forall₂_map_left_iff, List.forall₂_map_right_iff,
      List.forall₂_same]
    intro p hp
    use (hcauses p hp).1
    apply Segment.shows_render (hcauses p hp).2
  · simpa using hne

/-- Whether some template accounts for a chain does not depend on its items. -/
theorem absorbs_iff (h : r.Legible lines) (hne : causes ≠ []) (hhead : head.IsPlain r)
    (hcauses : ∀ p ∈ causes, IsIndent p.1 ∧ p.2.IsPlain r) (n : Nat) :
  r.Absorbs head.template (causes.map (·.2.template))
    ↔ ∃ u ∈ r.templates, (u.captures? ⟨n, head.chain causes⟩).isSome = true
  := by
  have hbare : ((causes.map (·.2.template)).map fun t => ([' '], bare t)).map (·.2.template)
      = causes.map (·.2.template) := by
    rw [List.map_map]
    apply List.map_id
  rw [h.exists_isSome_chain_iff hne ⟨hhead.template_mem, fun p hp => (hcauses p hp).2.template_mem⟩
    hhead.isWord_items fun p hp => ⟨(hcauses p hp).1.isBlankText, (hcauses p hp).2.isWord_items⟩,
    Absorbs, Piece.whole, outline, h.exists_isSome_chain_iff, hbare, bare]
  · simpa using hne
  · use hhead.template_mem
    intro p hp
    obtain ⟨t, ht, rfl⟩ := List.mem_map.mp hp
    obtain ⟨q, hq, rfl⟩ := List.mem_map.mp ht
    apply (hcauses q hq).2.template_mem
  · intro item hitem
    cases hitem
  · intro p hp
    obtain ⟨t, -, rfl⟩ := List.mem_map.mp hp
    use (by decide : isBlankText [' '] = true)
    intro item hitem
    cases hitem

/-- A cause on a line of its own is reported. -/
theorem exists_finding (h : r.Legible lines) {c : Cause} (hc : c.IsPlain r) (blob : Text)
    (n : Nat) :
  ∃ found, (Matcher.ofRegistry r).recognize? (.ofLine ⟨n, c.text⟩) = some found
    ∧ (Parser.mk (.ofRegistry r) {} none).finding blob found = c.finding n
  := by
  have hline := h.isLine_render hc.template_mem hc.isWord_items
  have htrim : (Message.ofLine ⟨n, c.text⟩).piece.trim = ⟨n, c.text⟩ :=
    Piece.trim_eq_self hline.isTrimmed hline.ne_nil
  obtain ⟨found, hfound, htemplate, hwindow, hitems⟩ :=
    h.recognize?_render hc.template_mem hc.length_items hc.isWord_items htrim
  use found, hfound
  rw [Parser.finding, htemplate, hwindow, hitems]
  rfl

/-- The lines below a head line are reported one by one. -/
theorem map_finding_below (h : r.Legible lines) (hcauses : ∀ p ∈ causes, p.2.IsPlain r)
    (blob : Text) (n : Nat) :
  (((Message.placeBelow n (causes.map fun p => (p.1, p.2.text))).map
      Message.ofLine).filterMap (Matcher.ofRegistry r).recognize?).map
      ((Parser.mk (.ofRegistry r) {} none).finding blob)
    = Cause.findingsBelow n causes
  := by
  induction causes generalizing n with
  | nil => rfl
  | cons p causes ih =>
      obtain ⟨indent, c⟩ := p
      obtain ⟨hc, hcauses⟩ := List.forall_mem_cons.mp hcauses
      obtain ⟨found, hfound, hfinding⟩ :=
        h.exists_finding hc blob (n + 1 + indent.utf8Length)
      rw [List.map_cons, Message.placeBelow, List.map_cons, List.filterMap_cons, hfound,
        List.map_cons, hfinding, ih hcauses, Cause.findingsBelow]

/-- The lines of a chain. -/
theorem isLine_causes (h : r.Legible lines) (hcauses : ∀ p ∈ causes, IsIndent p.1 ∧ p.2.IsPlain r) :
  ∀ p ∈ causes.map fun p => (p.1, p.2.text), IsIndent p.1 ∧ IsLine p.2
  := by
  intro p hp
  obtain ⟨⟨indent, c⟩, hc, rfl⟩ := List.mem_map.mp hp
  obtain ⟨hindent, hplain⟩ := hcauses _ hc
  use hindent
  apply h.isLine_render hplain.template_mem hplain.isWord_items

/-- The message of a chain, with its lines. -/
def message (head : Cause) (causes : List (Text × Cause)) (after : Text) : Message :=
  ⟨⟨0, head.chain causes ++ after⟩, ⟨0, head.text⟩
    :: Message.placeBelow head.text.utf8Length (causes.map fun p => (p.1, p.2.text))⟩

theorem recognizeAll_chain (h : r.Legible lines) (hhead : head.IsPlain r)
    (hcauses : ∀ p ∈ causes, IsIndent p.1 ∧ p.2.IsPlain r) (hafter : isBlankText after = true) :
  (Matcher.ofRegistry r).recognizeAll (head.chain causes ++ after)
    = (Matcher.ofRegistry r).recognitions (message head causes after)
  := by
  have hline := h.isLine_render hhead.template_mem hhead.isWord_items
  have htext : Message.ofText (head.chain causes ++ after) = [message head causes after] :=
    Message.ofText_below hline (h.isLine_causes hcauses) hafter
  rw [Matcher.recognizeAll, htext, List.flatMap_singleton]

theorem trim_message (h : r.Legible lines) (hhead : head.IsPlain r)
    (hcauses : ∀ p ∈ causes, IsIndent p.1 ∧ p.2.IsPlain r) (hafter : isBlankText after = true) :
  (message head causes after).piece.trim = ⟨0, head.chain causes⟩ ∧ head.chain causes ≠ []
  := by
  have hline := h.isLine_render hhead.template_mem hhead.isWord_items
  have hne : head.chain causes ≠ [] := List.append_ne_nil_of_left_ne_nil hline.ne_nil _
  use Piece.trim_append (Text.isTrimmed_append_below hline (h.isLine_causes hcauses)) hne hafter

/-- The lines of a chain are reported one by one, from bottom to top. -/
theorem map_finding_links (h : r.Legible lines) (hhead : head.IsPlain r)
    (hcauses : ∀ p ∈ causes, p.2.IsPlain r) (blob : Text) :
  (((message head causes after).links.filterMap (Matcher.ofRegistry r).recognize?).reverse).map
      ((Parser.mk (.ofRegistry r) {} none).finding blob)
    = head.findings causes
  := by
  obtain ⟨found, hfound, hfinding⟩ := h.exists_finding hhead blob 0
  rw [List.map_reverse, Cause.findings, Message.links, message, List.map_cons,
    List.filterMap_cons, hfound, List.map_cons, hfinding, h.map_finding_below hcauses blob]

/-- A chain is recognised as a whole when some template absorbs it. -/
theorem recognize?_message_eq_none_iff (h : r.Legible lines) (hne : causes ≠ [])
    (hhead : head.IsPlain r) (hcauses : ∀ p ∈ causes, IsIndent p.1 ∧ p.2.IsPlain r)
    (hafter : isBlankText after = true) :
  (Matcher.ofRegistry r).recognize? (message head causes after) = none
    ↔ ¬ r.Absorbs head.template (causes.map (·.2.template))
  := by
  obtain ⟨htrim, hsome⟩ := h.trim_message hhead hcauses hafter
  rw [h.absorbs_iff hne hhead hcauses 0, Matcher.recognize?_eq_none_iff, htrim]
  constructor
  · rintro (hempty | hnone) ⟨t, ht, hcaptures⟩
    · apply hsome hempty
    · rw [hnone t ht] at hcaptures
      cases hcaptures
  · intro hnone
    right
    intro t ht
    by_contra hcaptures
    apply hnone
    use t, ht
    rwa [Option.isSome_iff_ne_none]

/-- A chain that no template absorbs is reported line by line, innermost cause first. -/
theorem parse_of_not_absorbs (h : r.Legible lines) (hne : causes ≠ []) (hhead : head.IsPlain r)
    (hcauses : ∀ p ∈ causes, IsIndent p.1 ∧ p.2.IsPlain r) (hafter : isBlankText after = true)
    (habsorbs : ¬ r.Absorbs head.template (causes.map (·.2.template))) :
  (Parser.mk (.ofRegistry r) {} none).parse (head.chain causes ++ after) = head.findings causes
  := by
  have hnone := (h.recognize?_message_eq_none_iff hne hhead hcauses hafter).mpr habsorbs
  have hchain : (message head causes after).isChain = true := by
    obtain ⟨p, causes, rfl⟩ := List.exists_cons_of_ne_nil hne
    rfl
  rw [Parser.parse, h.recognizeAll_chain hhead hcauses hafter, Matcher.recognitions, hnone]
  dsimp only
  rw [if_pos hchain, h.map_finding_links hhead fun p hp => (hcauses p hp).2]

/-- A chain that some template absorbs is reported as one finding. -/
theorem parse_of_absorbs (h : r.Legible lines) (hne : causes ≠ []) (hhead : head.IsPlain r)
    (hcauses : ∀ p ∈ causes, IsIndent p.1 ∧ p.2.IsPlain r) (hafter : isBlankText after = true)
    (habsorbs : r.Absorbs head.template (causes.map (·.2.template))) :
  ∃ f, (Parser.mk (.ofRegistry r) {} none).parse (head.chain causes ++ after) = [f]
    ∧ f.parseInfo.startIndex = 0 ∧ f.parseInfo.endIndex = (head.chain causes).utf8Length
  := by
  rw [Parser.parse, h.recognizeAll_chain hhead hcauses hafter, Matcher.recognitions]
  cases hfound : (Matcher.ofRegistry r).recognize? (message head causes after) with
  | none =>
      rw [h.recognize?_message_eq_none_iff hne hhead hcauses hafter] at hfound
      apply absurd habsorbs hfound
  | some found =>
      obtain ⟨-, hwindow, -⟩ := Matcher.of_recognize?_eq_some hfound
      rw [(h.trim_message hhead hcauses hafter).1] at hwindow
      use (Parser.mk (.ofRegistry r) {} none).finding (head.chain causes ++ after) found, rfl
      rw [Parser.finding, hwindow]
      simp [OffsetUnit.offset, Piece.stop]

end Legible

end Registry

namespace Corpus

/-- A chain of the corpus is recovered line by line, innermost cause first, unless some template
absorbs the chain of its templates; it is reported as one finding then. -/
theorem parse_chain (files : FileTree) {head : Cause} {causes : List (Text × Cause)} {after : Text}
    (hne : causes ≠ []) (hhead : head.IsPlain registry)
    (hcauses : ∀ p ∈ causes, IsIndent p.1 ∧ p.2.IsPlain registry)
    (hafter : isBlankText after = true) :
  (¬ registry.Absorbs head.template (causes.map (·.2.template)) →
      (parser {} files).parse (head.chain causes ++ after) = head.findings causes)
    ∧ (registry.Absorbs head.template (causes.map (·.2.template)) →
      ∃ f, (parser {} files).parse (head.chain causes ++ after) = [f]
        ∧ f.parseInfo.startIndex = 0
        ∧ f.parseInfo.endIndex = (head.chain causes).utf8Length)
  := ⟨legible.parse_of_not_absorbs hne hhead hcauses hafter,
    legible.parse_of_absorbs hne hhead hcauses hafter⟩

set_option maxRecDepth 10000 in
/-- No template takes two assignments for one message. -/
theorem not_absorbs_assignment {t : Template}
    (h : t.segments = Segment.ofText "Type '{0}' is not assignable to type '{1}'.".toList) :
  ¬ registry.Absorbs t [t]
  := by
  have hcatalogue : (catalogue.all fun p => (Segment.read p.2
      ("Type '{0}' is not assignable to type '{1}'.".toList
        ++ "\n Type '{0}' is not assignable to type '{1}'.".toList)).isNone) = true := by
    simp only [catalogue, entries, error, message, List.map_cons, List.map_nil]
    repeat rw [String.toList_ofList]
    decide +kernel
  have houtline : Registry.outline t [t] = "Type '{0}' is not assignable to type '{1}'.".toList
      ++ "\n Type '{0}' is not assignable to type '{1}'.".toList := by
    simp only [Registry.outline, Registry.bare, Cause.chain, Cause.text, Template.render, h,
      List.map_cons, List.map_nil]
    decide +kernel
  rintro ⟨u, hu, hcaptures⟩
  obtain ⟨r, hread, -⟩ := Template.isSome_captures?_iff.mp hcaptures
  have hnone := List.all_eq_true.mp hcatalogue _ (numbered_mem hu)
  rw [Piece.whole, houtline] at hread
  rw [hread] at hnone
  cases hnone

/-- Two assignments are recovered one by one. -/
theorem parse_chain_assignments :
  (parser {} ⟨[], [], []⟩).parse
      "Type 'a' is not assignable to type 'b'.\n  Type 'c' is not assignable to type 'd'.".toList
    = [⟨2322, "Type '{0}' is not assignable to type '{1}'.".toList, none,
        ⟨42, 81, ["c".toList, "d".toList], false⟩⟩,
      ⟨2322, "Type '{0}' is not assignable to type '{1}'.".toList, none,
        ⟨0, 39, ["a".toList, "b".toList], false⟩⟩]
  := by
  obtain ⟨t, ht, hcode, hpattern, hsegments⟩ := exists_of_pattern 2322
    "Type '{0}' is not assignable to type '{1}'." (by simp [entries])
  have hplain : ∀ items : List Text, items.length = 2 → (∀ item ∈ items, IsWord item) →
      Cause.IsPlain registry ⟨t, items⟩ := by
    intro items hlength hitems
    use ht
    rw [hlength, Template.arity, hsegments]
    decide +kernel
  let head : Cause := ⟨t, ["a".toList, "b".toList]⟩
  let causes : List (Text × Cause) := [("  ".toList, ⟨t, ["c".toList, "d".toList]⟩)]
  have hhead : head.IsPlain registry := hplain _ rfl (by decide)
  have hcauses : ∀ p ∈ causes, IsIndent p.1 ∧ p.2.IsPlain registry := by
    rw [List.forall_mem_singleton]
    exact ⟨(by decide : IsIndent "  ".toList), hplain _ rfl (by decide)⟩
  have hchain : head.chain causes
      = "Type 'a' is not assignable to type 'b'.\n  Type 'c' is not assignable to type 'd'.".toList
      := by
    simp only [head, causes, Cause.chain, Cause.text, Template.render, hsegments, List.map_cons,
      List.map_nil]
    decide +kernel
  have hfindings : head.findings causes
      = [⟨2322, "Type '{0}' is not assignable to type '{1}'.".toList, none,
          ⟨42, 81, ["c".toList, "d".toList], false⟩⟩,
        ⟨2322, "Type '{0}' is not assignable to type '{1}'.".toList, none,
          ⟨0, 39, ["a".toList, "b".toList], false⟩⟩] := by
    simp only [head, causes, Cause.findings, Cause.finding, Cause.findingsBelow, Cause.text,
      Template.render, hcode, hpattern, hsegments]
    decide +kernel
  have hparse := (parse_chain ⟨[], [], []⟩ (List.cons_ne_nil _ []) hhead hcauses
    (by decide : isBlankText [] = true)).1 (not_absorbs_assignment hsegments)
  rw [List.append_nil, hchain, hfindings] at hparse
  exact hparse

/-- A null check above an expected token is one finding, as the slot of the latter takes both lines:
its literals stand at the front and at the back. -/
theorem parse_absorbed_chain :
  ∃ head cause : Cause, head.template.code = 18047 ∧ cause.template.code = 1005
    ∧ head.IsPlain registry ∧ cause.IsPlain registry
    ∧ head.chain [([' '], cause)] = "'a' is possibly 'null'.\n 'b' expected.".toList
    ∧ (parser {} ⟨[], [], []⟩).parse (head.chain [([' '], cause)]) ≠ head.findings [([' '], cause)]
  := by
  obtain ⟨s, hs, hscode, -, hssegments⟩ := exists_of_pattern 18047 "'{0}' is possibly 'null'."
    (by simp [entries])
  obtain ⟨t, ht, htcode, -, htsegments⟩ := exists_of_pattern 1005 "'{0}' expected."
    (by simp [entries])
  have hhead : Cause.IsPlain registry ⟨s, ["a".toList]⟩ := by
    use hs
    · show 1 = Segment.arity s.segments
      rw [hssegments]
      decide +kernel
    · exact (by decide : ∀ item ∈ ["a".toList], IsWord item)
  have hcause : Cause.IsPlain registry ⟨t, ["b".toList]⟩ := by
    use ht
    · show 1 = Segment.arity t.segments
      rw [htsegments]
      decide +kernel
    · exact (by decide : ∀ item ∈ ["b".toList], IsWord item)
  use ⟨s, ["a".toList]⟩, ⟨t, ["b".toList]⟩, hscode, htcode, hhead, hcause
  constructor
  · simp only [Cause.chain, Cause.text, Template.render, hssegments, htsegments, List.map_cons,
      List.map_nil]
    decide +kernel
  · have habsorbs : registry.Absorbs s [t] := by
      use t, ht
      rw [Template.isSome_captures?_of_nodup (by rw [htsegments]; decide +kernel)]
      simp only [Registry.outline, Registry.bare, Cause.chain, Cause.text, Template.render,
        hssegments, htsegments, List.map_cons, List.map_nil, Piece.whole]
      decide +kernel
    have hcauses : ∀ p ∈ [([' '], (⟨t, ["b".toList]⟩ : Cause))],
        IsIndent p.1 ∧ p.2.IsPlain registry := by
      rw [List.forall_mem_singleton]
      exact ⟨(by decide : IsIndent [' ']), hcause⟩
    obtain ⟨f, hf, -⟩ := legible.parse_of_absorbs (List.cons_ne_nil _ []) hhead hcauses
      (by decide : isBlankText [] = true) habsorbs
    rw [List.append_nil] at hf
    intro hfindings
    have hlength := congrArg List.length (hf.symm.trans hfindings)
    cases hlength

end Corpus

end Diagnostics
