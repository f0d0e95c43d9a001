import Diagnostics.Proofs.Bytewise.Basic
import Diagnostics.Proofs.Message.Tiling

/-!
# Trimming a span

A span of a text is trimmed to a span inside of it.  What is left out at both ends is blank, and
what is left neither begins nor ends with a blank character, so that trimming it again changes
nothing.  The start of the trimmed span is computed from what is left out at the front, and its end
from the length of what is left.  Of a blank span everything is left out at the front, and so the
empty span that it is trimmed to stands at its end, not at its start.
-/

namespace Diagnostics

namespace Span

/-- What is left of a span of a text when blank text at both ends is left out. -/
structure Trims (source : Text) (w v : Span) : Prop where
  within : v.Within w
  front : ∃ a, source.slice? ⟨w.start, v.start⟩ = some a ∧ Text.isBlankText a = true
  inside : ∃ t, source.slice? v = some t ∧ t.IsTrimmed
  back : ∃ b, source.slice? ⟨v.stop, w.stop⟩ = some b ∧ Text.isBlankText b = true

end Span

namespace Piece

variable {p : Piece} {source : Text}

theorem trims_span_trim (h : p.IsPieceOf source) :
  Span.Trims source p.span p.trim.span
  := by
  have hinside := slice?_span h.trim
  obtain ⟨before, after, hsource, hstart⟩ := h
  obtain ⟨b, htext, hb⟩ := Text.exists_eq_append_trim_append p.text
  have hwhole : source
      = before ++ p.text.takeWhile Text.isBlank ++ p.trim.text ++ b ++ after := by
    rw [hsource]
    conv => lhs; rw [htext]
    simp only [List.append_assoc, trim]
  have hstop : p.stop = p.trim.stop + Text.utf8Length b := by
    rw [stop, htext]
    simp [stop, trim, Nat.add_assoc]
  constructor
  · apply within_trim
  · use p.text.takeWhile Text.isBlank
    constructor
    · apply Text.slice?_eq_some_iff.mpr ⟨before, p.trim.text ++ b ++ after, _, hstart, rfl⟩
      simp only [hwhole, List.append_assoc]
    · apply List.all_takeWhile
  · exact ⟨p.trim.text, hinside, Text.isTrimmed_trim p.text⟩
  · use b
    constructor
    · apply Text.slice?_eq_some_iff.mpr
      use before ++ p.text.takeWhile Text.isBlank ++ p.trim.text, after, hwhole
      constructor
      · simp [span, trim, hstart, stop, Nat.add_assoc]
      · exact hstop
    · exact hb

/-- Trimming what is trimmed changes nothing. -/
theorem trim_trim (p : Piece) :
  p.trim.trim = p.trim
  := by
  by_cases h : p.trim.text = []
  · have hempty : p.trim = ⟨p.trim.start, []⟩ := by rw [← h]
    rw [hempty]
    rfl
  · exact trim_eq_self (Text.isTrimmed_trim p.text) h

/-- A blank piece is trimmed to the empty span at its end. -/
theorem span_trim_of_blank (h : Text.isBlankText p.text = true) :
  p.trim.span = ⟨p.stop, p.stop⟩
  := by
  have htext := Text.takeWhile_append_trimStart p.text
  rw [Text.trimStart_of_blank h, List.append_nil] at htext
  rw [span, stop, trim, htext, Text.trim_of_blank h]
  rfl

end Piece

namespace Bytewise

variable {source : Text} {w : Span}

/-- A span between two boundaries of a text is trimmed to a span inside of it.  Only blank text is
left out, and what is left is trimmed, so that trimming it again changes nothing.  It is empty when
the whole text of the span is blank, and then it stands at the end of the span. -/
theorem trim?_narrows (hstart : source.IsBoundary w.start) (hstop : source.IsBoundary w.stop)
    (hle : w.start ≤ w.stop) :
  ∃ p : Piece, source.piece? w = some p ∧ trim? source w = some p.trim.span
    ∧ Span.Trims source w p.trim.span
    ∧ trim? source p.trim.span = some p.trim.span
    ∧ p.trim.span.isEmpty = Text.isBlankText p.text
    ∧ (Text.isBlankText p.text = true → p.trim.span = ⟨w.stop, w.stop⟩)
  := by
  obtain ⟨p, hp, rfl⟩ := Text.exists_piece hstart hstop hle
  use p, Piece.piece?_span hp, trim?_span hp, Piece.trims_span_trim hp
  constructor
  · rw [trim?_span hp.trim, Piece.trim_trim]
  constructor
  · rw [Piece.isEmpty_span, ← Text.isEmpty_trim]
    rfl
  · apply Piece.span_trim_of_blank

/-- White space of three bytes is left out on both sides. -/
theorem trim?_narrows_wide :
  let source : Text := "é\u2003 b\u3000\nc".toList
  source.IsBoundary 2 ∧ source.IsBoundary 11 ∧ trim? source ⟨2, 11⟩ = some ⟨6, 7⟩
    ∧ Span.Trims source ⟨2, 11⟩ ⟨6, 7⟩ ∧ trim? source ⟨6, 7⟩ = some ⟨6, 7⟩
  := by
  intro source
  have hstart : source.IsBoundary 2 := by
    use "é".toList, "\u2003 b\u3000\nc".toList
    decide
  have hstop : source.IsBoundary 11 := by
    use "é\u2003 b\u3000\n".toList, "c".toList
    decide
  have hspan : trim? source ⟨2, 11⟩ = some ⟨6, 7⟩ := by decide
  obtain ⟨p, -, hp, htrims, hagain, -⟩ := trim?_narrows hstart hstop (w := ⟨2, 11⟩) (by decide)
  rw [hspan] at hp
  rw [← Option.some.inj hp] at htrims hagain
  exact ⟨hstart, hstop, hspan, htrims, hagain⟩

/-- The empty span that a blank span is trimmed to does not stand at its start. -/
theorem trim?_blank_ne_start :
  let source : Text := "   \n".toList
  source.slice? ⟨0, 4⟩ = some source ∧ Text.isBlankText source = true
    ∧ (source.piece? ⟨0, 4⟩).map (·.trim.span) = some ⟨4, 4⟩
    ∧ trim? source ⟨0, 4⟩ = some ⟨4, 4⟩ ∧ trim? source ⟨0, 4⟩ ≠ some ⟨0, 0⟩
  := by decide

end Bytewise

end Diagnostics
