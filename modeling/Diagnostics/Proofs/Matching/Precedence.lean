import Diagnostics.Proofs.Matching.Choice
import Diagnostics.Proofs.Template.Parts

/-!
# Templates and their parts

The pattern of one template can be a part of the pattern of another, cut out of it between its
placeholders.  The larger pattern has all slots and all literals of the part, so that the larger
template is tried first as soon as it has anything more.  A message that both match is then never
recognised as the part.
-/

namespace Diagnostics

open Placeholder (EndsInside)

/-- A template precedes a part of itself that lacks one of its literal characters or slots. -/
theorem Template.precedes_part {s g : Template} {a b : Text}
    (hpattern : s.pattern = a ++ g.pattern ++ b) (ha : ¬ EndsInside s.pattern a)
    (hb : ¬ EndsInside s.pattern (a ++ g.pattern))
    (hmore : (∃ x c y, s.pattern = x ++ c :: y ∧ ¬ Fragment.InPlaceholder s.pattern x
        ∧ (x.length < a.length ∨ (a ++ g.pattern).length ≤ x.length))
      ∨ g.arity < s.arity) :
  s.precedes g = true
  := by
  rw [Registry.precedes_iff]
  rcases hmore with ⟨x, c, y, hp, hliteral, hx⟩ | hslots
  · have hslots := arity_part_le hpattern ha hb
    have hlonger := literalLength_part_lt hpattern ha hb hp hliteral hx
    omega
  · exact .inl hslots

namespace Matcher

variable {r : Registry}

/-- A template is tried before each part of itself that lacks one of its literal characters or
slots, so that a message it matches is recognised unless it is blank, but never as such a part. -/
theorem tried_before_part {s g : Template} {a b : Text} (hs : s ∈ r.templates)
    (hg : g ∈ r.templates) (hpattern : s.pattern = a ++ g.pattern ++ b)
    (ha : ¬ EndsInside s.pattern a) (hb : ¬ EndsInside s.pattern (a ++ g.pattern))
    (hmore : (∃ x c y, s.pattern = x ++ c :: y ∧ ¬ Fragment.InPlaceholder s.pattern x
        ∧ (x.length < a.length ∨ (a ++ g.pattern).length ≤ x.length))
      ∨ g.arity < s.arity) :
  [s, g].Sublist (ofRegistry r).order
    ∧ ∀ (source : Text) (message : Message), message.piece.IsPieceOf source →
      (∃ captures, s.matchSpan source message.piece.trim.span = .matched captures) →
      ((ofRegistry r).recognize? message = none ↔ message.piece.trim.span.isEmpty = true)
        ∧ ∀ found, (ofRegistry r).recognize? message = some found → found.template ≠ g
  := by
  have hprecedes := Template.precedes_part hpattern ha hb hmore
  use Registry.sublist_bySpecificity hs hg hprecedes
  rintro source message hpiece ⟨captures, hmatched⟩
  rw [Template.matchSpan_eq_matched_iff hpiece.trim] at hmatched
  constructor
  · rw [recognize?_eq_none_iff, Piece.isEmpty_span, List.isEmpty_iff, or_iff_left_iff_imp]
    intro hnone
    rw [hnone s hs] at hmatched
    cases hmatched
  · rintro found hfound rfl
    obtain ⟨-, -, -, -, hfirst⟩ := of_recognize?_eq_some hfound
    rw [hfirst s hs hprecedes] at hmatched
    cases hmatched

/-- The braces of `{{0}.` do not hide that `{0}` is a part of it: `{a.`, which both match, is
recognised, but not as the part. -/
theorem tried_before_part_brace :
  let s : Template :=
    ⟨2, .error, "\x7b{0}.".toList, [.literal "\x7b".toList, .slot 0, .literal ".".toList],
      by decide, by decide⟩
  let g : Template := ⟨1, .error, "{0}".toList, [.slot 0], by decide, by decide⟩
  let matcher := ofRegistry (Registry.ofTemplates [g, s]).1
  let message := Message.ofLine (Piece.whole "\x7ba.".toList)
  [s, g].Sublist matcher.order
    ∧ ∃ found, matcher.recognize? message = some found ∧ found.template ≠ g
  := by
  intro s g matcher message
  have hpattern : s.pattern = "\x7b".toList ++ g.pattern ++ ".".toList := by decide
  have ha : ¬ EndsInside s.pattern "\x7b".toList := by
    rw [hpattern, List.append_assoc, Token.not_endsInside_iff]
    exact ⟨[.char _], [.slot _, .char _], rfl, rfl⟩
  have hb : ¬ EndsInside s.pattern ("\x7b".toList ++ g.pattern) := by
    rw [hpattern, Token.not_endsInside_iff]
    exact ⟨[.char _, .slot _], [.char _], rfl, rfl⟩
  have hliteral : ¬ Fragment.InPlaceholder s.pattern [] := by
    rintro ⟨b, numeral, hnumeral, hstands, hb, -⟩
    obtain rfl := List.prefix_nil.mp hb
    exact Placeholder.numeral?_eq_none_iff.mp rfl numeral hnumeral hstands
  obtain ⟨horder, hmatched⟩ := tried_before_part (r := (Registry.ofTemplates [g, s]).1)
    (by decide) (by decide) hpattern ha hb (.inl ⟨[], _, _, rfl, hliteral, .inl (by decide)⟩)
  obtain ⟨hnone, hnever⟩ := hmatched "\x7ba.".toList message (Piece.isPieceOf_whole _)
    ⟨[⟨1, "a".toList⟩], by decide⟩
  have hsome : matcher.recognize? message ≠ none := by
    rw [ne_eq, hnone]
    decide
  obtain ⟨found, hfound⟩ := Option.ne_none_iff_exists'.mp hsome
  use horder, found, hfound, hnever found hfound

end Matcher

end Diagnostics
