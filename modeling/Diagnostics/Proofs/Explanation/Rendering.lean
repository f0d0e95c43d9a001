import Diagnostics.Proofs.Explanation.Rewriting
import Diagnostics.Proofs.Matching.Account
import Diagnostics.Proofs.Template.Segments

/-!
# Rendering as substitution

The pattern of a template and the body of an explanation are read in different ways, the pattern
once into segments and the body from brace to brace, but they hold the same placeholders.  With an
item for every slot the template is rendered to its pattern with the items substituted.
-/

namespace Diagnostics

namespace Segment

variable {items : List Text} {s : Text}

/-- A text whose placeholders all have items is rendered as it is substituted. -/
theorem flatMap_render_ofText (h : ∀ i ∈ indices (ofText s), i < items.length) :
  (ofText s).flatMap (render items) = Substitution.bare.substitute items s
  := by
  induction s using Token.induction_on_text with
  | nil =>
      rw [Substitution.substitute_of_not_mem List.not_mem_nil]
      rfl
  | slot numeral s hnumeral ih =>
      rw [ofText_spell_append hnumeral] at h ⊢
      obtain ⟨hvalue, hs⟩ := List.forall_mem_cons.mp h
      obtain ⟨item, hitem⟩ : ∃ item, items[Placeholder.value numeral]? = some item :=
        ⟨_, List.getElem?_eq_getElem hvalue⟩
      simp [ih hs, Substitution.substitute_replace (.bare hnumeral hitem), render, hitem]
  | char c s hnone ih =>
      have hcopy : ∀ token written, Substitution.Replaces items .bare token written →
          ¬ token <+: c :: s := by
        intro token written htoken
        cases htoken with
        | bare hnumeral hitem => apply Placeholder.numeral?_eq_none_iff.mp hnone _ hnumeral
      rw [ofText_cons hnone, indices_pushChar] at h
      simp [hnone, ih h, Substitution.substitute_copy hcopy]

end Segment

namespace Template

variable {t : Template} {items : List Text} {code : Nat} {pattern : Text}

/-- With an item for every slot a template is rendered to its pattern with the items substituted
for the placeholders. -/
theorem render_eq_substitute (h : ofPattern code pattern = .ok t)
    (hitems : t.arity ≤ items.length) :
  t.render items = Substitution.bare.substitute items pattern
  := by
  obtain ⟨-, rfl⟩ := of_ofPattern_eq_ok h
  rw [render, t.segments_eq]
  apply Segment.flatMap_render_ofText
  intro i hi
  rw [← t.segments_eq, Segment.mem_indices_iff] at hi
  apply Nat.lt_of_lt_of_le (Segment.lt_arity_of_mem hi) hitems

/-- A pattern with a placeholder between braces, a leading zero, a numeral that is too large and a
brace that is not closed. -/
theorem render_eq_substitute_braces :
  let pattern : Text := "\x7b{00}\x7d {1}{18446744073709551616}\x7b\x7b1".toList
  let t : Template :=
    ⟨7, .error, pattern,
      [.literal "\x7b".toList, .slot 0, .literal "\x7d ".toList, .slot 1,
        .literal "{18446744073709551616}\x7b\x7b1".toList],
      by decide, by decide⟩
  let items : List Text := ["{1}".toList, "b".toList, "c".toList]
  ofPattern 7 pattern = .ok t ∧ t.arity ≤ items.length
    ∧ t.render items = "\x7b{1}\x7d b{18446744073709551616}\x7b\x7b1".toList
    ∧ t.render items = Substitution.bare.substitute items pattern
  := by
  intro pattern t items
  have hpattern : ofPattern 7 pattern = .ok t := rfl
  have hitems : t.arity ≤ items.length := by decide
  use hpattern, hitems, by decide
  apply render_eq_substitute hpattern hitems

end Template

end Diagnostics
