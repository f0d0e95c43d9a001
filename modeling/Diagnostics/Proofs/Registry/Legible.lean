import Diagnostics.Proofs.Sketch.Chain
import Diagnostics.Proofs.Sketch.Rendering

/-!
# Legible registries

A registry is legible when the sketches of its templates tell what becomes of their renderings,
whatever words fill them.  A line is then recognised by the template that it comes from, and
whether some template accounts for a chain of lines depends on the templates of the lines only.
-/

namespace Diagnostics

open Text (IsWord below)

namespace Template

variable {lines : List Sketch} {t u : Template}

/-- No two slots of the template have one index, and the words of the lines never decide how far
it comes over a chain of them. -/
structure IsSettled (lines : List Sketch) (t : Template) : Prop where
  nodup : (Segment.indices t.segments).Nodup
  settled : ∃ n, Segment.settled lines n t.segments = true

/-- The template `u` is the template `t` up to a slot, with which it ends. -/
def Opens (u t : Template) : Prop :=
  ∃ segments i more, u.segments = segments ++ [.slot i] ∧ t.segments = segments ++ .slot i :: more

/-- A template reads all that a template reads which it opens. -/
theorem Opens.isSome_read {s : Text} (h : u.Opens t)
    (hread : (Segment.read t.segments s).isSome = true) :
  (Segment.read u.segments s).isSome = true
  := by
  obtain ⟨segments, i, more, hu, ht⟩ := h
  rw [ht] at hread
  rw [hu]
  apply Segment.isSome_read_of_append hread

end Template

namespace Registry

/-- The sketches of the templates, which are among `lines`, tell what becomes of renderings. -/
structure Legible (r : Registry) (lines : List Sketch) : Prop where
  sketch_mem : ∀ t ∈ r.templates, t.sketch ∈ lines
  isLine : ∀ σ ∈ lines, σ.isLine = true
  delimited : ∀ t ∈ r.templates, Segment.delimited t.segments = true
  /-- A template does not read the lines of those that it precedes. -/
  misses : ∀ s ∈ r.templates, ∀ t ∈ r.templates, s.precedes t = true →
    Segment.misses s.segments t.sketch = true
  /-- A template is settled, accounts for no chain, or accounts only for chains that a settled
  template reads as well. -/
  chains : ∀ t ∈ r.templates, t.IsSettled lines ∨ Segment.stuck lines t.segments = true
    ∨ ∃ u ∈ r.templates, u.IsSettled lines ∧ u.Opens t

namespace Legible

variable {r : Registry} {lines : List Sketch} {t : Template} {items : List Text}
  {message : Message} {n : Nat}

/-- The rendering of a template with words is a line. -/
theorem isLine_render (h : r.Legible lines) (ht : t ∈ r.templates)
    (hitems : ∀ item ∈ items, IsWord item) :
  (t.render items).IsLine
  := by
  apply Sketch.Shows.isLine (Segment.shows_render hitems t.segments)
  apply h.isLine _ (h.sketch_mem t ht)

/-- The rendering of a template with words is recognised by the template, with these words. -/
theorem recognize?_render (h : r.Legible lines) (ht : t ∈ r.templates)
    (hlength : items.length = t.arity) (hitems : ∀ item ∈ items, IsWord item)
    (htrim : message.piece.trim = ⟨n, t.render items⟩) :
  ∃ found, (Matcher.ofRegistry r).recognize? message = some found ∧ found.template = t
    ∧ found.window = ⟨n, t.render items⟩ ∧ found.items = items
  := by
  have haccounts : t.Accounts items (Piece.mk n (t.render items)).text :=
    Template.accounts_of_words (h.delimited t ht) hlength hitems
  obtain ⟨captures, hcaptures, rfl⟩ := Template.captures?_of_accounts haccounts
  use ⟨t, ⟨n, t.render (captures.map (·.text))⟩, captures⟩
  constructor
  · apply Matcher.recognize?_eq_some
    · rw [htrim]
      apply (h.isLine_render ht hitems).ne_nil
    · exact htrim.symm
    · exact ht
    · rw [htrim]
      exact hcaptures
    · intro u hu hprecedes
      rw [htrim]
      apply Template.captures?_eq_none_of_misses (h.misses u hu t ht hprecedes) (h.delimited u hu)
      apply Segment.shows_render hitems
  · exact ⟨rfl, rfl, rfl⟩

/-- Whether some template accounts for a chain of lines can be told from their sketches. -/
theorem exists_isSome_captures?_iff (h : r.Legible lines) {σ : Sketch} {τs : List Sketch}
    {s : Text} {ls : List (Text × Text)} (hσ : σ ∈ lines) (hs : σ.Shows s)
    (hτs : ∀ τ ∈ τs, τ ∈ lines) (hls : Sketch.ShowBelow τs ls) (hne : ls ≠ []) :
  (∃ t ∈ r.templates, (t.captures? ⟨n, s ++ below ls⟩).isSome = true)
    ↔ ∃ t ∈ r.templates, t.IsSettled lines ∧ Segment.joins t.segments σ τs = true
  := by
  have hjoins : ∀ t ∈ r.templates, t.IsSettled lines →
      (Segment.read t.segments (s ++ below ls)).isSome = Segment.joins t.segments σ τs := by
    intro t ht hsettled
    obtain ⟨m, hm⟩ := hsettled.settled
    apply Segment.isSome_read_below hm (h.delimited t ht) hσ hs hτs hls
  constructor
  · rintro ⟨t, ht, hcaptures⟩
    obtain ⟨reading, hread, hagrees⟩ := Template.isSome_captures?_iff.mp hcaptures
    rcases h.chains t ht with hsettled | hstuck | ⟨u, hu, hsettled, hopens⟩
    · use t, ht, hsettled
      rw [← hjoins t ht hsettled, hread]
      rfl
    · apply absurd hagrees
      apply Segment.not_agrees_of_stuck hstuck (h.delimited t ht) _ hσ hs hτs hls hne hread
      intro σ hσ hmem
      have hline := h.isLine σ hσ
      rw [Sketch.isLine, Bool.and_eq_true] at hline
      simp [hmem] at hline
    · use u, hu, hsettled
      rw [← hjoins u hu hsettled]
      apply hopens.isSome_read
      rw [hread]
      rfl
  · rintro ⟨t, ht, hsettled, hjoin⟩
    use t, ht
    rw [Template.isSome_captures?_of_nodup hsettled.nodup, hjoins t ht hsettled]
    exact hjoin

end Legible

end Registry

end Diagnostics
