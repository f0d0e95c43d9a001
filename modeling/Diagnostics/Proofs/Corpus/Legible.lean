import Diagnostics.Corpus
import Diagnostics.Proofs.Registry.Entries
import Diagnostics.Proofs.Registry.Legible

/-!
# The corpus is legible

Every condition of legibility is a finite check of the segments in the corpus, with their codes.
`isLegible` is that check, which the kernel runs, and `legible` draws the conclusion for the
registry of the corpus.
-/

namespace Diagnostics

namespace Corpus

/-- Segments with the code of their template. -/
abbrev Numbered := Nat × List Segment

namespace Numbered

/-- Whether the template of these segments is tried before that of the others. -/
def precedes (p q : Numbered) : Bool :=
  Segment.arity q.2 < Segment.arity p.2
    || (Segment.arity p.2 = Segment.arity q.2
      && (literalLength q.2 < literalLength p.2
        || (literalLength p.2 = literalLength q.2 && p.1 < q.1)))
  where literalLength (segments : List Segment) : Nat :=
    segments.foldr (fun s n => s.literalLength + n) 0

/-- Whether the segments read chains of lines settledly, and no two slots have one index. -/
def isSettled (lines : List Sketch) (p : Numbered) : Bool :=
  (Segment.indices p.2).Nodup && Segment.settled lines (p.2.length + 1) p.2

/-- Whether the segments are the others up to a slot. -/
def opens (p q : Numbered) : Bool :=
  p.2.isPrefixOf q.2 && (p.2.getLast?.bind Segment.index?).isSome

/-- Whether the segments of a registry make it legible. -/
def isLegible (ps : List Numbered) : Bool :=
  let lines := ps.map fun p => Segment.sketch p.2
  (ps.all fun p => (Template.fault? p.1 p.2).isNone)
    && (lines.all Sketch.isLine)
    && (ps.all fun p => Segment.delimited p.2)
    && (ps.all fun p => ps.all fun q =>
      Segment.misses p.2 (Segment.sketch q.2) || !precedes p q)
    && (ps.all fun p => isSettled lines p || Segment.stuck lines p.2
      || ps.any fun q => opens q p && isSettled lines q)

end Numbered

/-- The segments of the corpus. -/
def catalogue : List Numbered := entries.map fun e => (e.code, Segment.ofText e.pattern)

set_option maxRecDepth 10000 in
theorem isLegible_catalogue :
  Numbered.isLegible catalogue = true
  := by
  simp only [catalogue, entries, error, message, List.map_cons, List.map_nil]
  repeat rw [String.toList_ofList]
  decide +kernel

/-! ### The registry of the corpus -/

theorem nodup_codes :
  (entries.map (·.code)).Nodup
  := by decide

theorem mem_registry_iff {t : Template} :
  t ∈ registry.templates ↔ ∃ e ∈ entries, e.template.1 = some t
  := by
  rw [registry]
  apply Registry.mem_ofTable_iff nodup_codes

/-- The templates of the corpus have the segments of the catalogue. -/
theorem numbered_mem {t : Template} (ht : t ∈ registry.templates) :
  (t.code, t.segments) ∈ catalogue
  := by
  obtain ⟨e, he, htemplate⟩ := mem_registry_iff.mp ht
  obtain ⟨hcode, hpattern⟩ := Registry.Entry.of_template_eq_some htemplate
  rw [t.segments_eq, hcode, hpattern]
  apply List.mem_map_of_mem he

/-- Every entry of the corpus has a template. -/
theorem exists_template {e : Registry.Entry} (he : e ∈ entries) :
  ∃ t ∈ registry.templates, t.code = e.code ∧ t.pattern = e.pattern
  := by
  have hlegible := isLegible_catalogue
  simp only [Numbered.isLegible, Bool.and_eq_true, List.all_eq_true] at hlegible
  have hfault := hlegible.1.1.1.1 _ (List.mem_map_of_mem he)
  obtain ⟨t, ht⟩ := Registry.Entry.exists_template (Option.isNone_iff_eq_none.mp hfault)
  use t, mem_registry_iff.mpr ⟨e, he, ht⟩
  apply Registry.Entry.of_template_eq_some ht

/-- The template of an entry, by its code and its pattern. -/
theorem exists_of_pattern (code : Nat) (pattern : String) (h : error code pattern ∈ entries) :
  ∃ t ∈ registry.templates, t.code = code ∧ t.pattern = pattern.toList
    ∧ t.segments = Segment.ofText pattern.toList
  := by
  obtain ⟨t, ht, hcode, hpattern⟩ := exists_template h
  use t, ht, hcode, hpattern
  rw [t.segments_eq, hpattern]
  rfl

/-- The segments of the catalogue are those of templates of the corpus. -/
theorem exists_of_numbered_mem {p : Numbered} (hp : p ∈ catalogue) :
  ∃ t ∈ registry.templates, t.code = p.1 ∧ t.segments = p.2
  := by
  obtain ⟨e, he, rfl⟩ := List.mem_map.mp hp
  obtain ⟨t, ht, hcode, hpattern⟩ := exists_template he
  use t, ht, hcode
  rw [t.segments_eq, hpattern]

/-- The sketches of the templates of the corpus. -/
def lines : List Sketch := catalogue.map fun p => Segment.sketch p.2

theorem isSettled_of_numbered {t : Template}
    (h : Numbered.isSettled lines (t.code, t.segments) = true) :
  t.IsSettled lines
  := by
  rw [Numbered.isSettled, Bool.and_eq_true, decide_eq_true_iff] at h
  exact ⟨h.1, _, h.2⟩

theorem opens_of_numbered {t u : Template}
    (h : Numbered.opens (u.code, u.segments) (t.code, t.segments) = true) :
  u.Opens t
  := by
  rw [Numbered.opens, Bool.and_eq_true, List.isPrefixOf_iff_prefix, Option.isSome_bind,
    Option.any_eq_true] at h
  obtain ⟨⟨more, hmore⟩, s, hlast, hindex⟩ := h
  obtain ⟨segments, hsegments⟩ := List.getLast?_eq_some_iff.mp hlast
  cases s with
  | literal l => cases hindex
  | slot i =>
      dsimp only at hmore hsegments
      use segments, i, more, hsegments
      rw [← hmore, hsegments, List.append_assoc]
      rfl

/-- The corpus is legible. -/
theorem legible :
  registry.Legible lines
  := by
  have hlegible := isLegible_catalogue
  simp only [Numbered.isLegible, Bool.and_eq_true, List.all_eq_true] at hlegible
  obtain ⟨⟨⟨⟨-, hlines⟩, hdelimited⟩, hmisses⟩, hchains⟩ := hlegible
  constructor
  · intro t ht
    exact List.mem_map.mpr ⟨_, numbered_mem ht, rfl⟩
  · exact hlines
  · intro t ht
    apply hdelimited _ (numbered_mem ht)
  · intro s hs t ht hprecedes
    have hst := hmisses _ (numbered_mem hs) _ (numbered_mem ht)
    have hnumbered : Numbered.precedes (s.code, s.segments) (t.code, t.segments) = true :=
      hprecedes
    rw [hnumbered, Bool.not_true, Bool.or_false] at hst
    exact hst
  · intro t ht
    have ht' := hchains _ (numbered_mem ht)
    rw [Bool.or_eq_true, Bool.or_eq_true, List.any_eq_true] at ht'
    rcases ht' with (hsettled | hstuck) | ⟨q, hq, hopens⟩
    · exact .inl (isSettled_of_numbered hsettled)
    · exact .inr (.inl hstuck)
    · obtain ⟨u, hu, hcode, hsegments⟩ := exists_of_numbered_mem hq
      obtain ⟨code, segments⟩ := q
      subst hcode hsegments
      rw [Bool.and_eq_true] at hopens
      exact .inr (.inr ⟨u, hu, isSettled_of_numbered hopens.2, opens_of_numbered hopens.1⟩)

end Corpus

end Diagnostics
