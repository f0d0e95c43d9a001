import Diagnostics.Proofs.Template.Tokens
import Diagnostics.Template.Basic
import Mathlib.Data.List.Chain

/-!
# Segments of a pattern

The segments of a pattern are joined from its tokens, and the tokens are read from the pattern.
What a literal holds therefore stands in the pattern, and no literal stands directly behind another
one.
-/

namespace Diagnostics

namespace Token

theorem mem_of_mem_ofTextFrom {c : Char} {n : Nat} {s : Text} (h : char c ∈ ofTextFrom n s) :
  c ∈ s
  := by
  fun_induction ofTextFrom n s with
  | case1 => cases h
  | case2 n d s ih => apply List.mem_cons_of_mem _ (ih h)
  | case3 d s numeral hnumeral ih =>
      apply List.mem_cons_of_mem _ (ih _)
      simpa using h
  | case4 d s hnumeral ih =>
      rcases List.mem_cons.mp h with hd | h
      · rw [char.inj hd]
        apply List.mem_cons_self
      · apply List.mem_cons_of_mem _ (ih h)

end Token

namespace Segment

@[simp]
theorem ofText_spell_append {numeral : Text} (h : Placeholder.IsNumeral numeral) (s : Text) :
  ofText (Placeholder.spell numeral ++ s) = .slot (Placeholder.value numeral) :: ofText s
  := by
  simp [ofText, h, ofTokens]

@[simp]
theorem ofText_cons {c : Char} {s : Text} (h : Placeholder.numeral? (c :: s) = none) :
  ofText (c :: s) = pushChar c (ofText s)
  := by
  simp [ofText, h, ofTokens]

theorem mem_of_mem_pushChar {c d : Char} {l : Text} {segments : List Segment}
    (hl : literal l ∈ pushChar d segments) (hc : c ∈ l) :
  c = d ∨ ∃ l', literal l' ∈ segments ∧ c ∈ l'
  := by
  -- a literal at the front takes the character in, otherwise it is a literal of its own
  have hself (h : .literal l ∈ (literal [d] :: segments)) :
      c = d ∨ ∃ l', literal l' ∈ segments ∧ c ∈ l' := by
    rcases List.mem_cons.mp h with h | h
    · obtain rfl := literal.inj h
      exact .inl (List.mem_singleton.mp hc)
    · exact .inr ⟨l, h, hc⟩
  cases segments with
  | nil => exact hself hl
  | cons s segments =>
      cases s with
      | slot i => exact hself hl
      | literal l' =>
          rcases List.mem_cons.mp hl with hl | hl
          · obtain rfl := literal.inj hl
            rcases List.mem_cons.mp hc with hc | hc
            · exact .inl hc
            · exact .inr ⟨l', List.mem_cons_self, hc⟩
          · exact .inr ⟨l, List.mem_cons_of_mem _ hl, hc⟩

/-- The literals hold characters of the tokens only. -/
theorem mem_of_mem_ofTokens {c : Char} {l : Text} {tokens : List Token}
    (hl : literal l ∈ ofTokens tokens) (hc : c ∈ l) :
  Token.char c ∈ tokens
  := by
  induction tokens generalizing l with
  | nil => cases hl
  | cons token tokens ih =>
      cases token with
      | char d =>
          rcases mem_of_mem_pushChar hl hc with rfl | ⟨l', hl', hc'⟩
          · apply List.mem_cons_self
          · apply List.mem_cons_of_mem _ (ih hl' hc')
      | slot numeral =>
          rcases List.mem_cons.mp hl with hslot | hl
          · cases hslot
          · apply List.mem_cons_of_mem _ (ih hl hc)

@[simp]
theorem flatMap_render_pushChar (items : List Text) (c : Char) (segments : List Segment) :
  (pushChar c segments).flatMap (render items) = c :: segments.flatMap (render items)
  := by
  cases segments with
  | nil => rfl
  | cons s segments =>
      cases s with
      | literal l => rfl
      | slot i => rfl

@[simp]
theorem indices_pushChar (c : Char) (segments : List Segment) :
  indices (pushChar c segments) = indices segments
  := by
  cases segments with
  | nil => rfl
  | cons s segments =>
      cases s with
      | literal l => rfl
      | slot i => rfl

/-- Of two segments in a row at least one is a slot. -/
def Separated (segments : List Segment) : Prop :=
  segments.IsChain fun a b => a.index?.isSome || b.index?.isSome

theorem separated_pushChar {segments : List Segment} (c : Char) (h : Separated segments) :
  Separated (pushChar c segments)
  := by
  cases segments with
  | nil => apply List.IsChain.singleton
  | cons s segments =>
      cases s with
      | slot i => exact List.isChain_cons_cons.mpr ⟨rfl, h⟩
      | literal l =>
          -- the character only makes the literal at the front longer
          cases segments with
          | nil => apply List.IsChain.singleton
          | cons s segments => exact List.isChain_cons_cons.mpr (List.isChain_cons_cons.mp h)

theorem separated_ofTokens (tokens : List Token) :
  Separated (ofTokens tokens)
  := by
  induction tokens with
  | nil => apply List.IsChain.nil
  | cons token tokens ih =>
      cases token with
      | char c => apply separated_pushChar c ih
      | slot numeral => exact List.isChain_cons.mpr ⟨fun _ _ => rfl, ih⟩

end Segment

/-- A template that is made of a pattern has it. -/
theorem Template.of_ofPattern_eq_ok {code : Nat} {pattern : Text} {t : Template}
    (h : ofPattern code pattern = .ok t) :
  t.code = code ∧ t.pattern = pattern
  := by
  rw [ofPattern] at h
  split at h
  · cases h
  · obtain rfl := Except.ok.inj h
    exact ⟨rfl, rfl⟩

/-- A pattern whose segments break no rule has a template. -/
theorem Template.exists_ofPattern {code : Nat} {pattern : Text}
    (h : fault? code (Segment.ofText pattern) = none) :
  ∃ t, ofPattern code pattern = .ok t
  := by
  rw [ofPattern]
  split
  case h_1 error herror =>
      rw [h] at herror
      cases herror
  case h_2 => exact ⟨_, rfl⟩

/-- A pattern is refused for what is wrong with its segments only. -/
theorem Template.map_segments_ofPattern (code : Nat) (pattern : Text) :
  (ofPattern code pattern).map (·.segments)
    = match fault? code (Segment.ofText pattern) with
      | some e => .error e
      | none => .ok (Segment.ofText pattern)
  := by
  rw [ofPattern]
  split
  case h_1 e he =>
      rw [he]
      rfl
  case h_2 hnone =>
      dsimp only [Except.map]
      rw [hnone]

/-- The literals of a template are separated by slots. -/
theorem Template.separated_segments (t : Template) :
  Segment.Separated t.segments
  := by
  rw [t.segments_eq]
  apply Segment.separated_ofTokens

/-- The literals of a template hold characters of its pattern only. -/
theorem Template.mem_pattern_of_mem_literal {t : Template} {c : Char} {l : Text}
    (hl : .literal l ∈ t.segments) (hc : c ∈ l) :
  c ∈ t.pattern
  := by
  rw [t.segments_eq] at hl
  apply Token.mem_of_mem_ofTextFrom (Segment.mem_of_mem_ofTokens hl hc)

end Diagnostics
