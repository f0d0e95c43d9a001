import Diagnostics.Proofs.Template.Measures
import Diagnostics.Proofs.Template.Numerals
import Diagnostics.Proofs.Text.Cut

/-!
# Printed patterns

A template is rendered to its pattern with items in place of the placeholders.  A placeholder
without an item is printed with its numeral reduced, so that everything else of the pattern is kept
just when no such placeholder has a zero in front of its numeral.  What is printed without items is
read again into the same segments, because nothing of a literal is read together with a printed
placeholder.
-/

namespace Diagnostics

open Placeholder (IsNumeral numerals reduce spell value)

namespace Token

variable {items : List Text} {numeral : Text}

/-- A token as text, with an item in place of its placeholder.  What stands for a placeholder
without an item is made from its numeral. -/
def fill (items : List Text) (unfilled : Text → Text) : Token → Text
  | char c => [c]
  | slot numeral => (items[value numeral]?).getD (unfilled numeral)

/-- Without items every token is left as it is written. -/
theorem fill_nil_spell :
  fill [] spell = text
  := by
  funext token
  cases token with
  | char c => rfl
  | slot numeral => rfl

/-- A placeholder that has an item, or whose numeral is reduced, does not show the difference
between its two spellings. -/
theorem fill_reduce_eq_iff :
  fill items (fun n => spell (reduce n)) (slot numeral) = fill items spell (slot numeral)
    ↔ (items.length ≤ value numeral → reduce numeral = numeral)
  := by
  rw [fill, fill]
  by_cases hvalue : value numeral < items.length
  · rw [List.getElem?_eq_getElem hvalue]
    simp only [Option.getD_some, true_iff]
    omega
  · rw [List.getElem?_eq_none (Nat.le_of_not_lt hvalue), Option.getD_none, Option.getD_none]
    simp [spell, Nat.le_of_not_lt hvalue]

/-- Printing a numeral reduced makes no token longer. -/
theorem length_fill_reduce_le (h : IsNumeral numeral) :
  (fill items (fun n => spell (reduce n)) (slot numeral)).length
    ≤ (fill items spell (slot numeral)).length
  := by
  rw [fill, fill]
  cases items[value numeral]? with
  | some item => apply Nat.le_refl
  | none =>
      simp only [Option.getD_none, Placeholder.length_spell]
      have := Placeholder.length_reduce_le h
      omega

end Token

namespace Segment

variable {s w : Text}

/-- What is rendered is the pattern with items in place of the placeholders and reduced numerals in
the others. -/
theorem flatMap_render_eq_fill (items : List Text) (s : Text) :
  (ofText s).flatMap (render items)
    = (Token.ofText s).flatMap (Token.fill items fun n => spell (reduce n))
  := by
  induction s using Token.induction_on_text with
  | nil => rfl
  | slot numeral s hnumeral ih =>
      simp [hnumeral, ih, render, Placeholder.write_value hnumeral, Token.fill]
  | char c s hnone ih => simp [hnone, ih, Token.fill]

/-- Nothing but the items is new in what is rendered just when no placeholder without an item has a
zero in front of its numeral. -/
theorem flatMap_render_eq_fill_iff (items : List Text) (s : Text) :
  (ofText s).flatMap (render items) = (Token.ofText s).flatMap (Token.fill items spell)
    ↔ ∀ numeral ∈ numerals s, items.length ≤ value numeral → reduce numeral = numeral
  := by
  -- no token is longer reduced than as it is written, so that the two agree token by token
  have hlength (token : Token) (htoken : token ∈ Token.ofText s) :
      (Token.fill items (fun n => spell (reduce n)) token).length
        ≤ (Token.fill items spell token).length := by
    cases token with
    | char c => apply Nat.le_refl
    | slot numeral => apply Token.length_fill_reduce_le (Token.isNumeral_of_slot_mem htoken)
  rw [flatMap_render_eq_fill, flatMap_eq_flatMap_iff hlength]
  constructor
  · intro hall numeral hnumeral
    apply Token.fill_reduce_eq_iff.mp (hall _ (Placeholder.mem_numerals_iff.mp hnumeral))
  · intro hall token htoken
    cases token with
    | char c => rfl
    | slot numeral =>
        apply Token.fill_reduce_eq_iff.mpr (hall _ (Placeholder.mem_numerals_iff.mpr htoken))

/-- A text without an opening brace that stands at the front of what is printed stands at the front
of the pattern, where no placeholder is. -/
theorem prefix_of_prefix_printed (hw : '\x7b' ∉ w) (h : w <+: (ofText s).flatMap (render [])) :
  w <+: s
  := by
  induction s using Token.induction_on_text generalizing w with
  | nil => exact h
  | slot numeral s hnumeral ih =>
      rw [ofText_spell_append hnumeral, List.flatMap_cons] at h
      cases w with
      | nil => apply List.nil_prefix
      | cons d w =>
          obtain rfl : d = '\x7b' := (List.cons_prefix_cons.mp h).1
          exact absurd List.mem_cons_self hw
  | char c s hnone ih =>
      rw [ofText_cons hnone, flatMap_render_pushChar] at h
      cases w with
      | nil => apply List.nil_prefix
      | cons d w =>
          obtain ⟨rfl, hrest⟩ := List.cons_prefix_cons.mp h
          rw [List.mem_cons, not_or] at hw
          apply List.cons_prefix_cons.mpr ⟨rfl, ih hw.2 hrest⟩

/-- A character that opens no placeholder of the pattern opens none of what is printed. -/
theorem numeral?_printed {c : Char} (h : Placeholder.numeral? (c :: s) = none) :
  Placeholder.numeral? (c :: (ofText s).flatMap (render [])) = none
  := by
  rw [Placeholder.numeral?_eq_none_iff] at h ⊢
  intro numeral hnumeral hstands
  obtain ⟨rfl, hrest⟩ := List.cons_prefix_cons.mp hstands
  have hclean : '\x7b' ∉ numeral ++ ['\x7d'] := by
    rw [List.mem_append, not_or]
    exact ⟨fun hmem => absurd (hnumeral.isDigit _ hmem) (by decide), by decide⟩
  apply h numeral hnumeral (List.cons_prefix_cons.mpr ⟨rfl, prefix_of_prefix_printed hclean hrest⟩)

/-- What is printed without items is read into the segments that it was printed from. -/
theorem ofText_flatMap_render (s : Text) :
  ofText ((ofText s).flatMap (render [])) = ofText s
  := by
  induction s using Token.induction_on_text with
  | nil => rfl
  | slot numeral s hnumeral ih =>
      have hwritten := Placeholder.isNumeral_toDigits hnumeral.value_lt
      simp [hnumeral, hwritten, ih, render, Placeholder.write, Placeholder.value_toDigits]
  | char c s hnone ih => simp [hnone, numeral?_printed hnone, ih]

end Segment

namespace Template

variable {t : Template} {code : Nat} {p : Text}

/-- A template is rendered to its pattern with items in place of the placeholders and reduced
numerals in those that have no item.  Nothing but the items is new, and without items the pattern is
given back, just when no placeholder without an item has a zero in front of its numeral. -/
theorem render_eq_fill_iff (h : ofPattern code p = .ok t) (items : List Text) :
  t.render items = (Token.ofText p).flatMap (Token.fill items fun n => spell (reduce n))
    ∧ (t.render items = (Token.ofText p).flatMap (Token.fill items spell)
      ↔ ∀ numeral ∈ numerals p, items.length ≤ value numeral → reduce numeral = numeral)
    ∧ (t.render [] = p ↔ ∀ numeral ∈ numerals p, reduce numeral = numeral)
  := by
  obtain ⟨-, rfl⟩ := of_ofPattern_eq_ok h
  have hnil := Segment.flatMap_render_eq_fill_iff [] t.pattern
  rw [Token.fill_nil_spell, Token.flatMap_text_ofText] at hnil
  rw [render, render, t.segments_eq, hnil]
  use Segment.flatMap_render_eq_fill items t.pattern
  use Segment.flatMap_render_eq_fill_iff items t.pattern
  simp

/-- The zero in front of a numeral does not matter where there is an item, and a placeholder without
an item is left as it is when its numeral has none. -/
theorem render_eq_fill_iff_filled :
  let pattern : Text := "{00} {1}\x7b-\x7d{1}".toList
  let t : Template :=
    ⟨7, .error, pattern,
      [.slot 0, .literal " ".toList, .slot 1, .literal "\x7b-\x7d".toList, .slot 1],
      by decide, by decide⟩
  ofPattern 7 pattern = .ok t ∧ t.render ["a".toList] = "a {1}\x7b-\x7d{1}".toList
  := by
  intro pattern t
  have hpattern : ofPattern 7 pattern = .ok t := rfl
  have hkept := (render_eq_fill_iff hpattern ["a".toList]).2.1.mpr (by decide)
  exact ⟨hpattern, hkept.trans (by decide)⟩

/-- A placeholder without an item is not left as it is written when there is a zero in front of its
numeral. -/
theorem render_leading_zero :
  ∃ t, ofPattern 1 "{00}".toList = .ok t ∧ t.render [] = "{0}".toList
    ∧ t.render [] ≠ (Token.ofText "{00}".toList).flatMap (Token.fill [] spell)
    ∧ t.render [] ≠ "{00}".toList
  := by
  use ⟨1, .error, "{00}".toList, [.slot 0], by decide, by decide⟩, rfl
  decide

/-- What a template is rendered to without items is a pattern with the same code, segments, arity and
literal bytes, and rendered without items it is given back. -/
theorem ofPattern_render_nil (h : ofPattern code p = .ok t) :
  ∃ u, ofPattern code (t.render []) = .ok u ∧ u.code = t.code ∧ u.pattern = t.render []
    ∧ u.segments = t.segments ∧ u.arity = t.arity ∧ u.literalLength = t.literalLength
    ∧ u.render [] = t.render []
  := by
  obtain ⟨rfl, rfl⟩ := of_ofPattern_eq_ok h
  have hsegments : Segment.ofText (t.render []) = t.segments := by
    rw [render, t.segments_eq, Segment.ofText_flatMap_render]
  obtain ⟨u, hu⟩ : ∃ u, ofPattern t.code (t.render []) = .ok u := by
    apply exists_ofPattern
    rw [hsegments, t.fault?_eq]
  obtain ⟨hcode, hpattern⟩ := of_ofPattern_eq_ok hu
  have hsame : u.segments = t.segments := by
    rw [u.segments_eq, hpattern, hsegments]
  use u, hu, hcode, hpattern, hsame
  rw [arity, arity, literalLength, literalLength, render, render, hsame]
  exact ⟨rfl, rfl, rfl⟩

/-- Braces and digits around the placeholders do not become a part of them. -/
theorem ofPattern_render_nil_braces :
  let pattern : Text := "\x7b{00}0\x7d\x7b01{1}{18446744073709551616}".toList
  let t : Template :=
    ⟨7, .error, pattern,
      [.literal "\x7b".toList, .slot 0, .literal "0\x7d\x7b01".toList, .slot 1,
        .literal "{18446744073709551616}".toList],
      by decide, by decide⟩
  ofPattern 7 pattern = .ok t
    ∧ t.render [] = "\x7b{0}0\x7d\x7b01{1}{18446744073709551616}".toList
    ∧ ∃ u, ofPattern 7 (t.render []) = .ok u ∧ u.segments = t.segments
  := by
  intro pattern t
  have hpattern : ofPattern 7 pattern = .ok t := rfl
  obtain ⟨u, hu, -, -, hsame, -⟩ := ofPattern_render_nil hpattern
  use hpattern, by decide, u, hu, hsame

end Template

end Diagnostics
