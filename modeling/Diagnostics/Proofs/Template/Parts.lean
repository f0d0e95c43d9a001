import Diagnostics.Proofs.Template.Fragments
import Diagnostics.Proofs.Template.Measures

/-!
# Parts of a pattern

A placeholder is read from its own characters, whatever stands around it.  A pattern that is cut
outside of its placeholders is therefore read part by part: its tokens are those of the first part
and those of the second.  Its indices and its literal bytes are then put together from those of the
parts as well.
-/

namespace Diagnostics

open Placeholder (IsNumeral spell)

/-- A text at the front of a pattern ends inside a placeholder. -/
def Placeholder.EndsInside (p a : Text) : Prop :=
  ∃ b numeral, IsNumeral numeral ∧ b ++ spell numeral <+: p
    ∧ b.length < a.length ∧ a.length < (b ++ spell numeral).length

open Placeholder (EndsInside)

namespace Token

variable {p a b s x y : Text} {c : Char} {token : Token} {front back left right : List Token}

/-! ### Cuts between tokens -/

/-- A text that does not end inside a placeholder does not show in how the text behind it is
read. -/
theorem ofText_append (h : ¬ EndsInside (a ++ s) a) :
  ofText (a ++ s) = ofText a ++ ofText s
  := by
  induction a using induction_on_text with
  | nil => rfl
  | slot numeral a hnumeral ih =>
      have htail : ¬ EndsInside (a ++ s) a := by
        rintro ⟨b, other, hother, hstands, hbegins, hends⟩
        apply h
        use spell numeral ++ b, other, hother
        rw [List.append_assoc, List.append_assoc, List.prefix_append_right_inj]
        simp only [List.length_append] at hends ⊢
        exact ⟨hstands, by omega, by omega⟩
      simp [hnumeral, ih htail]
  | char c a hnone ih =>
      have htail : ¬ EndsInside (a ++ s) a := by
        rintro ⟨b, other, hother, hstands, hbegins, hends⟩
        apply h
        use c :: b, other, hother
        rw [List.cons_append, List.cons_append, List.prefix_cons_inj]
        simp only [List.length_append, List.length_cons] at hends ⊢
        exact ⟨hstands, by omega, by omega⟩
      have hchar : Placeholder.numeral? (c :: (a ++ s)) = none := by
        rw [Placeholder.numeral?_eq_none_iff] at hnone ⊢
        intro other hother hstands
        apply h
        use [], other, hother, hstands
        -- a placeholder that does not reach beyond the text would open it
        by_contra hends
        have hle : (spell other).length ≤ (c :: a).length := by
          simp only [List.length_nil, List.length_cons, List.nil_append] at hends ⊢
          omega
        apply hnone other hother
        apply List.prefix_of_prefix_length_le hstands (List.prefix_append (c :: a) s) hle
      simp [hchar, hnone, ih htail]

theorem text_ne_nil (token : Token) :
  token.text ≠ []
  := by
  cases token with
  | char c => simp [text]
  | slot numeral => simp [text, spell]

/-- A token that begins in the text of the left ones is one of them. -/
theorem exists_left (h : left ++ right = front ++ token :: back)
    (hlt : (front.flatMap text).length < (left.flatMap text).length) :
  ∃ between, left = front ++ token :: between
  := by
  rcases List.append_eq_append_iff.mp h with ⟨ms, rfl, -⟩ | ⟨ms, rfl, hms⟩
  · simp only [List.flatMap_append, List.length_append] at hlt
    omega
  · cases ms with
    | nil => simp at hlt
    | cons other ms =>
        obtain ⟨rfl, -⟩ := List.cons.inj hms
        exact ⟨ms, rfl⟩

/-- A token that begins behind the text of the left ones is one of the right ones. -/
theorem mem_right (h : left ++ right = front ++ token :: back)
    (hle : (left.flatMap text).length ≤ (front.flatMap text).length) :
  token ∈ right
  := by
  rcases List.append_eq_append_iff.mp h with ⟨ms, rfl, rfl⟩ | ⟨ms, rfl, hms⟩
  · simp
  · cases ms with
    | nil => simp [← show token :: back = right from hms]
    | cons other ms =>
        have := List.length_pos_iff.mpr other.text_ne_nil
        simp only [List.flatMap_append, List.flatMap_cons, List.length_append] at hle
        omega

/-- A placeholder of a pattern is one of its tokens. -/
theorem exists_slot {numeral : Text} (hnumeral : IsNumeral numeral)
    (hstands : b ++ spell numeral <+: p) :
  ∃ front back, ofText p = front ++ slot numeral :: back ∧ front.flatMap text = b
  := by
  obtain ⟨fragments, -, -, htokens⟩ := Fragment.exists_split 0 p
  obtain ⟨before, behind, rfl, rfl⟩ := Fragment.exists_slot htokens hnumeral hstands
  use before.flatMap Fragment.tokens, behind.flatMap Fragment.tokens
  rw [← htokens, List.flatMap_append, Fragment.flatMap_text_eq]
  exact ⟨rfl, rfl⟩

/-- A character that stands in no placeholder of a pattern is a token of its own. -/
theorem exists_char (hp : p = x ++ c :: y) (h : ¬ Fragment.InPlaceholder p x) :
  ∃ front back, ofText p = front ++ char c :: back ∧ front.flatMap text = x
  := by
  obtain ⟨fragments, -, -, htokens⟩ := Fragment.exists_split 0 p
  obtain ⟨before, l, behind, l₁, l₂, rfl, rfl, rfl⟩ := (Fragment.inLiteral_iff htokens hp).mpr h
  use before.flatMap Fragment.tokens ++ l₁.map char,
    l₂.map char ++ behind.flatMap Fragment.tokens
  rw [← htokens, List.flatMap_append, List.flatMap_append, Fragment.flatMap_text_eq]
  simp [Fragment.tokens, List.flatMap_map, text]

/-- A text does not end inside a placeholder of a pattern just when it ends between two of its
tokens. -/
theorem not_endsInside_iff :
  ¬ EndsInside (a ++ s) a ↔ ∃ left right, ofText (a ++ s) = left ++ right ∧ left.flatMap text = a
  := by
  constructor
  · intro h
    use ofText a, ofText s, ofText_append h, flatMap_text_ofText a
  · rintro ⟨left, right, hsplit, hleft⟩ ⟨b, numeral, hnumeral, hstands, hbegins, hends⟩
    obtain ⟨front, back, hslot, rfl⟩ := exists_slot hnumeral hstands
    rw [← hleft] at hbegins hends
    -- the placeholder begins in front of the cut, so that it is a token in front of it
    obtain ⟨between, rfl⟩ := exists_left (hsplit.symm.trans hslot) hbegins
    simp only [List.flatMap_append, List.flatMap_cons, text, List.length_append] at hends
    omega

theorem endsInside_of_append (h : EndsInside (a ++ b) a) :
  EndsInside (a ++ b ++ s) a
  := by
  obtain ⟨x, numeral, hnumeral, hstands, hlt⟩ := h
  exact ⟨x, numeral, hnumeral, hstands.trans (List.prefix_append _ _), hlt⟩

/-- A pattern that is cut twice outside of its placeholders is read in three parts. -/
theorem ofText_append_append (ha : ¬ EndsInside (a ++ b ++ s) a)
    (hb : ¬ EndsInside (a ++ b ++ s) (a ++ b)) :
  ofText (a ++ b ++ s) = ofText a ++ ofText b ++ ofText s
  := by
  rw [ofText_append hb, ofText_append fun h => ha (endsInside_of_append h)]

theorem sum_literalLength_pos (h : char c ∈ left) :
  0 < (left.map literalLength).sum
  := by
  obtain ⟨front, back, rfl⟩ := List.append_of_mem h
  have := c.utf8Size_pos
  simp only [List.map_append, List.map_cons, List.sum_append, List.sum_cons, literalLength]
  omega

end Token

namespace Template

variable {s g : Template} {a b : Text}

/-- A template has no fewer slots than a template of some of its indices. -/
theorem arity_le_of_subset (h : Placeholder.numerals g.pattern ⊆ Placeholder.numerals s.pattern) :
  g.arity ≤ s.arity
  := by
  by_contra hlt
  rw [not_le, arity, arity, Segment.lt_arity_iff, g.segments_eq, Segment.indices_ofText] at hlt
  obtain ⟨i, hi, hle⟩ := hlt
  have hmem : i ∈ Segment.indices s.segments := by
    rw [s.segments_eq, Segment.indices_ofText]
    apply List.map_subset _ h hi
  have := Segment.lt_arity_iff.mpr ⟨i, hmem, le_rfl⟩
  omega

section

variable (hpattern : s.pattern = a ++ g.pattern ++ b) (ha : ¬ EndsInside s.pattern a)
  (hb : ¬ EndsInside s.pattern (a ++ g.pattern))

include hpattern ha hb

theorem ofText_pattern :
  Token.ofText s.pattern = Token.ofText a ++ Token.ofText g.pattern ++ Token.ofText b
  := by
  rw [hpattern] at ha hb ⊢
  apply Token.ofText_append_append ha hb

/-- The slots of a part of a pattern are slots of the pattern. -/
theorem arity_part_le :
  g.arity ≤ s.arity
  := by
  apply arity_le_of_subset
  rw [Placeholder.numerals, Placeholder.numerals, ofText_pattern hpattern ha hb]
  apply List.filterMap_subset
  simp

/-- The literal bytes of a pattern are those of its parts. -/
theorem literalLength_part :
  s.literalLength
    = ((Token.ofText a).map Token.literalLength).sum + g.literalLength
      + ((Token.ofText b).map Token.literalLength).sum
  := by
  rw [literalLength_eq, ofText_pattern hpattern ha hb, List.map_append, List.map_append,
    List.sum_append, List.sum_append, ← literalLength_eq]

/-- A literal character of a pattern in front of a part or behind it makes its literals longer. -/
theorem literalLength_part_lt {x y : Text} {c : Char} (hp : s.pattern = x ++ c :: y)
    (hliteral : ¬ Fragment.InPlaceholder s.pattern x)
    (hx : x.length < a.length ∨ (a ++ g.pattern).length ≤ x.length) :
  g.literalLength < s.literalLength
  := by
  obtain ⟨front, back, htokens, rfl⟩ := Token.exists_char hp hliteral
  rw [ofText_pattern hpattern ha hb] at htokens
  rw [literalLength_part hpattern ha hb]
  rcases hx with hx | hx
  · rw [List.append_assoc] at htokens
    rw [← Token.flatMap_text_ofText a] at hx
    obtain ⟨between, hleft⟩ := Token.exists_left htokens hx
    have hmem : .char c ∈ Token.ofText a := by simp [hleft]
    have := Token.sum_literalLength_pos hmem
    omega
  · have hle : ((Token.ofText a ++ Token.ofText g.pattern).flatMap Token.text).length
        ≤ (front.flatMap Token.text).length := by
      rwa [List.flatMap_append, Token.flatMap_text_ofText, Token.flatMap_text_ofText]
    have := Token.sum_literalLength_pos (Token.mem_right htokens hle)
    omega

end

end Template

end Diagnostics
