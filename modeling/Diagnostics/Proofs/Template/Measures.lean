import Diagnostics.Proofs.Template.Segments
import Mathlib.Algebra.GroupWithZero.Nat
import Mathlib.Order.MinMax

/-!
# Measures of a pattern

The indices of a pattern are the values of its numerals, and its arity is the least number above all
of them.  The literals of a pattern hold the bytes of the characters that belong to no placeholder:
together with the placeholders as they are written these are all bytes of the pattern.
-/

namespace Diagnostics

namespace Token

/-- The numeral of a placeholder. -/
def numeral? : Token → Option Text
  | char _ => none
  | slot numeral => some numeral

/-- The number of bytes that a token asks for as they stand. -/
def literalLength : Token → Nat
  | char c => c.utf8Size
  | slot _ => 0

/-- The bytes of some tokens are those of the characters and those of the placeholders. -/
theorem utf8Length_flatMap_text (tokens : List Token) :
  Text.utf8Length (tokens.flatMap text)
    = (tokens.map literalLength).sum
      + ((tokens.filterMap numeral?).map fun n => (Placeholder.spell n).utf8Length).sum
  := by
  induction tokens with
  | nil => rfl
  | cons token tokens ih =>
      cases token with
      | char c => simp [text, literalLength, numeral?, List.filterMap_cons, ih, Nat.add_assoc]
      | slot numeral => simp [text, literalLength, numeral?, ih, Nat.add_left_comm]

end Token

/-- The numerals of the placeholders of a pattern, in order. -/
def Placeholder.numerals (p : Text) : List Text := (Token.ofText p).filterMap Token.numeral?

theorem Placeholder.mem_numerals_iff {p numeral : Text} :
  numeral ∈ numerals p ↔ .slot numeral ∈ Token.ofText p
  := by
  rw [numerals, List.mem_filterMap]
  constructor
  · rintro ⟨token, htoken, hnumeral⟩
    cases token with
    | char c => cases hnumeral
    | slot other =>
        obtain rfl := Option.some.inj hnumeral
        exact htoken
  · intro h
    use .slot numeral, h
    rfl

namespace Segment

variable {segments : List Segment} {i : Nat}

/-! ### Indices -/

theorem mem_indices_iff :
  i ∈ indices segments ↔ .slot i ∈ segments
  := by
  rw [indices, List.mem_filterMap]
  constructor
  · rintro ⟨s, hs, hi⟩
    cases s with
    | literal l => cases hi
    | slot j =>
        obtain rfl := Option.some.inj hi
        exact hs
  · intro h
    use .slot i, h
    rfl

/-- The numbers below the arity are those that some index is at least as large as. -/
theorem lt_arity_iff :
  i < arity segments ↔ ∃ j ∈ indices segments, i ≤ j
  := by
  rw [arity]
  induction indices segments with
  | nil => simp
  | cons j js ih =>
      rw [List.foldr_cons, lt_max_iff, ih, List.exists_mem_cons_iff, Nat.lt_succ_iff]

/-- The index of a slot is below the arity. -/
theorem lt_arity_of_mem (h : .slot i ∈ segments) :
  i < arity segments
  := lt_arity_iff.mpr ⟨i, mem_indices_iff.mpr h, le_rfl⟩

@[simp]
theorem indices_append (front back : List Segment) :
  indices (front ++ back) = indices front ++ indices back
  := List.filterMap_append

theorem arity_append (front back : List Segment) :
  arity (front ++ back) = max (arity front) (arity back)
  := by
  apply eq_of_forall_lt_iff
  intro i
  rw [lt_max_iff, lt_arity_iff, lt_arity_iff, lt_arity_iff, indices_append]
  simp only [List.mem_append, or_and_right, exists_or]

/-- The indices of a pattern are the values of its numerals. -/
theorem indices_ofTokens (tokens : List Token) :
  indices (ofTokens tokens) = (tokens.filterMap Token.numeral?).map Placeholder.value
  := by
  induction tokens with
  | nil => rfl
  | cons token tokens ih =>
      cases token with
      | char c => simp [ofTokens, ih, Token.numeral?, List.filterMap_cons]
      | slot numeral =>
          rw [ofTokens, List.filterMap_cons_some (f := Token.numeral?) rfl, List.map_cons, ← ih]
          rfl

theorem indices_ofText (p : Text) :
  indices (ofText p) = (Placeholder.numerals p).map Placeholder.value
  := indices_ofTokens (Token.ofText p)

/-! ### Literal bytes -/

theorem sum_literalLength_pushChar (c : Char) (segments : List Segment) :
  ((pushChar c segments).map literalLength).sum
    = c.utf8Size + (segments.map literalLength).sum
  := by
  cases segments with
  | nil => rfl
  | cons s segments =>
      cases s with
      | literal l => simp [pushChar, literalLength, Nat.add_assoc]
      | slot i => rfl

/-- The literals of a pattern hold the bytes of the characters outside its placeholders. -/
theorem sum_literalLength_ofTokens (tokens : List Token) :
  ((ofTokens tokens).map literalLength).sum = (tokens.map Token.literalLength).sum
  := by
  induction tokens with
  | nil => rfl
  | cons token tokens ih =>
      cases token with
      | char c =>
          rw [ofTokens, sum_literalLength_pushChar, ih, List.map_cons, List.sum_cons]
          rfl
      | slot numeral =>
          rw [ofTokens, List.map_cons, List.sum_cons, ih, List.map_cons, List.sum_cons]
          rfl

end Segment

namespace Template

theorem literalLength_eq_sum (t : Template) :
  t.literalLength = (t.segments.map Segment.literalLength).sum
  := by
  rw [literalLength, List.sum_eq_foldr, List.foldr_map]

/-- The literal bytes of a template are those of the characters outside the placeholders of its
pattern. -/
theorem literalLength_eq (t : Template) :
  t.literalLength = ((Token.ofText t.pattern).map Token.literalLength).sum
  := by
  rw [literalLength_eq_sum, t.segments_eq, Segment.ofText, Segment.sum_literalLength_ofTokens]

/-- A pattern is made up of the literal bytes of its template and of its placeholders. -/
theorem utf8Length_pattern (t : Template) :
  t.pattern.utf8Length
    = t.literalLength
      + ((Placeholder.numerals t.pattern).map fun n => (Placeholder.spell n).utf8Length).sum
  := by
  have h := Token.utf8Length_flatMap_text (Token.ofText t.pattern)
  rwa [Token.flatMap_text_ofText, ← literalLength_eq] at h

end Template

end Diagnostics
