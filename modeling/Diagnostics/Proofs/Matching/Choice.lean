import Diagnostics.Matching.Recognition
import Diagnostics.Proofs.Matching.Account
import Diagnostics.Proofs.Registry.Order
import Diagnostics.Proofs.Text.Trim

/-!
# The most specific match

A message is recognised when some template of the registry accounts for it.  Of the templates
that do, the recognition names the one that precedes all others, so that it does not depend on
the order in which the templates were given.
-/

namespace Diagnostics

namespace Matcher

variable {r : Registry} {message : Message} {found : Recognition}

/-- A message is not recognised when it is blank or no template accounts for it. -/
theorem recognize?_eq_none_iff :
  (ofRegistry r).recognize? message = none ↔
    message.piece.trim.text = [] ∨ ∀ t ∈ r.templates, t.captures? message.piece.trim = none
  := by
  rw [recognize?, ofRegistry]
  by_cases hempty : message.piece.trim.text = []
  · simp [hempty]
  · simp [hempty, Registry.mem_bySpecificity]

/-- The recognition of a message comes from a template of the registry that no other template
accounting for the message precedes. -/
theorem of_recognize?_eq_some (h : (ofRegistry r).recognize? message = some found) :
  message.piece.trim.text ≠ [] ∧ found.window = message.piece.trim
    ∧ found.template ∈ r.templates
    ∧ found.template.captures? message.piece.trim = some found.captures
    ∧ ∀ t ∈ r.templates, t.precedes found.template = true →
      t.captures? message.piece.trim = none
  := by
  rw [recognize?] at h
  by_cases hempty : message.piece.trim.text = []
  · simp [hempty] at h
  rw [if_neg (by simpa using hempty), List.findSome?_eq_some_iff] at h
  obtain ⟨before, t, after, horder, hfound, hbefore⟩ := h
  obtain ⟨captures, hcaptures, rfl⟩ := Option.map_eq_some_iff.mp hfound
  have hmem : ∀ s, s ∈ r.templates ↔ s ∈ before ++ t :: after := by
    intro s
    rw [← Registry.mem_bySpecificity, ← horder, ofRegistry]
  use hempty, rfl, (hmem t).mpr (List.mem_append_right _ List.mem_cons_self), hcaptures
  intro s hs hprecedes
  have hsorted := r.pairwise_bySpecificity
  rw [show r.bySpecificity = before ++ t :: after from horder, List.pairwise_append,
    List.pairwise_cons] at hsorted
  rcases List.mem_append.mp ((hmem s).mp hs) with hs | hs
  · simpa using hbefore s hs
  rcases List.mem_cons.mp hs with rfl | hs
  · apply absurd hprecedes (Registry.not_precedes_self _)
  · apply absurd hprecedes (hsorted.2.1.1 s hs)

/-- A template that accounts for a message, and that no other one precedes, recognises it. -/
theorem recognize?_eq_some (hempty : message.piece.trim.text ≠ [])
    (hwindow : found.window = message.piece.trim) (hmem : found.template ∈ r.templates)
    (hcaptures : found.template.captures? message.piece.trim = some found.captures)
    (hfirst : ∀ t ∈ r.templates, t.precedes found.template = true →
      t.captures? message.piece.trim = none) :
  (ofRegistry r).recognize? message = some found
  := by
  cases hother : (ofRegistry r).recognize? message with
  | none =>
      rcases recognize?_eq_none_iff.mp hother with h | h
      · apply absurd h hempty
      · rw [h _ hmem] at hcaptures
        cases hcaptures
  | some other =>
      obtain ⟨-, hwindow', hmem', hcaptures', hfirst'⟩ := of_recognize?_eq_some hother
      have htemplate : other.template = found.template := by
        by_contra hne
        rcases Registry.precedes_or_precedes hmem' hmem hne with h | h
        · rw [hfirst _ hmem' h] at hcaptures'
          cases hcaptures'
        · rw [hfirst' _ hmem h] at hcaptures
          cases hcaptures
      obtain ⟨template, window, captures⟩ := found
      obtain ⟨template', window', captures'⟩ := other
      obtain rfl : template' = template := htemplate
      obtain rfl : captures' = captures := Option.some.inj (hcaptures'.symm.trans hcaptures)
      rw [show window' = window from hwindow'.trans hwindow.symm]

/-- A message is recognised unless it is blank or no template matches it; the recognition names
the template that is more specific than every other one that matches, with its captures, and
does not depend on the order in which templates with distinct codes are given. -/
theorem recognize?_most_specific (r : Registry) {source : Text} {message : Message}
    (h : message.piece.IsPieceOf source) :
  ((ofRegistry r).recognize? message = none ↔
      message.piece.trim.span.isEmpty = true
        ∨ ∀ t ∈ r.templates, t.matchSpan source message.piece.trim.span = .unmatched)
    ∧ (∀ found, (ofRegistry r).recognize? message = some found →
      found.template ∈ r.templates ∧ found.window = message.piece.trim
        ∧ found.template.matchSpan source message.piece.trim.span = .matched found.captures
        ∧ ∀ t ∈ r.templates, t ≠ found.template →
          (∃ captures, t.matchSpan source message.piece.trim.span = .matched captures) →
          t.arity < found.template.arity ∨ t.arity = found.template.arity
            ∧ (t.literalLength < found.template.literalLength
              ∨ t.literalLength = found.template.literalLength
                ∧ found.template.code < t.code))
    ∧ ∀ ts us : List Template, ts.Perm us → (ts.map (·.code)).Nodup →
      (ofRegistry (Registry.ofTemplates ts).1).recognize? message
        = (ofRegistry (Registry.ofTemplates us).1).recognize? message
  := by
  have hwindow := h.trim
  simp only [Template.matchSpan_eq_matched_iff hwindow,
    Template.matchSpan_eq_unmatched_iff hwindow, Piece.isEmpty_span, List.isEmpty_iff]
  use recognize?_eq_none_iff
  constructor
  · intro found hfound
    obtain ⟨-, hwindow, hmem, hcaptures, hfirst⟩ := of_recognize?_eq_some hfound
    use hmem, hwindow, hcaptures
    rintro t ht hne ⟨captures, ht'⟩
    rcases Registry.precedes_or_precedes ht hmem hne with hprecedes | hprecedes
    · rw [hfirst t ht hprecedes] at ht'
      cases ht'
    · have := Registry.precedes_iff.mp hprecedes
      omega
  · intro ts us hperm hnodup
    rw [Registry.ofTemplates_eq_of_perm hperm hnodup]

/-- Both `{0}.` and `{0}{1}` match `a.`, which is recognised, and alike in both orders. -/
theorem recognize?_most_specific_overlap :
  let s : Template :=
    ⟨1, .error, "{0}.".toList, [.slot 0, .literal ".".toList], by decide, by decide⟩
  let t : Template := ⟨2, .error, "{0}{1}".toList, [.slot 0, .slot 1], by decide, by decide⟩
  let message := Message.ofLine (Piece.whole "a.".toList)
  message.piece.IsPieceOf "a.".toList
    ∧ (ofRegistry (Registry.ofTemplates [s, t]).1).recognize? message ≠ none
    ∧ (ofRegistry (Registry.ofTemplates [s, t]).1).recognize? message
      = (ofRegistry (Registry.ofTemplates [t, s]).1).recognize? message
  := by
  intro s t message
  have hpiece : message.piece.IsPieceOf "a.".toList := Piece.isPieceOf_whole _
  obtain ⟨hnone, -, horder⟩ := recognize?_most_specific (Registry.ofTemplates [s, t]).1 hpiece
  use hpiece
  constructor
  · rw [ne_eq, hnone]
    decide
  · apply horder [s, t] [t, s] (.swap _ _ _) (by decide)

end Matcher

end Diagnostics
