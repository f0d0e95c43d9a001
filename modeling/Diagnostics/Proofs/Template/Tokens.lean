import Diagnostics.Template.Segment
import Mathlib.Data.List.Basic
import Mathlib.Tactic.Use

/-!
# Tokens of a pattern

A text opens with a placeholder exactly when the spelling of a numeral stands at its front.  A text
is therefore read into tokens from left to right: where a placeholder stands, it is one token, and
every other character is a token of its own.
-/

namespace Diagnostics

namespace Placeholder

variable {s numeral other : Text}

/-- Numerals that name a placeholder: decimal digits with a value below the bound. -/
structure IsNumeral (numeral : Text) : Prop where
  ne_nil : numeral ≠ []
  isDigit : ∀ c ∈ numeral, c.isDigit = true
  value_lt : value numeral < indexBound

theorem isNumeral_of_numeral? (h : numeral? s = some numeral) :
  IsNumeral numeral
  := by
  cases s with
  | nil => cases h
  | cons c s =>
      rw [numeral?, Option.ite_none_right_eq_some] at h
      obtain ⟨⟨hne, -, hvalue⟩, h⟩ := Option.ite_none_right_eq_some.mp h.2
      obtain rfl := Option.some.inj h
      use hne, List.all_eq_true.mp List.all_takeWhile, hvalue

theorem spell_append (numeral s : Text) :
  spell numeral ++ s = '\x7b' :: (numeral ++ '\x7d' :: s)
  := by
  simp [spell]

@[simp]
theorem length_spell (numeral : Text) :
  (spell numeral).length = numeral.length + 2
  := by
  simp [spell]

theorem numeral?_spell_append (h : IsNumeral numeral) (s : Text) :
  numeral? (spell numeral ++ s) = some numeral
  := by
  have hdigits : (numeral ++ '\x7d' :: s).takeWhile Char.isDigit = numeral := by
    rw [List.takeWhile_append_of_pos h.isDigit, List.takeWhile_cons_of_neg (by decide),
      List.append_nil]
  rw [spell_append, numeral?, if_pos rfl, hdigits]
  dsimp only
  rw [List.drop_left, if_pos ⟨h.ne_nil, rfl, h.value_lt⟩]

/-- A text opens with a placeholder when the spelling of a numeral stands at its front. -/
theorem numeral?_eq_some_iff :
  numeral? s = some numeral ↔ IsNumeral numeral ∧ spell numeral <+: s
  := by
  constructor
  · intro h
    use isNumeral_of_numeral? h, s.drop (numeral.length + 2), (spell_of_numeral? h).symm
  · rintro ⟨hnumeral, s, rfl⟩
    apply numeral?_spell_append hnumeral

theorem numeral?_eq_none_iff :
  numeral? s = none ↔ ∀ numeral, IsNumeral numeral → ¬ spell numeral <+: s
  := by
  rw [Option.eq_none_iff_forall_ne_some]
  simp only [ne_eq, numeral?_eq_some_iff, not_and]

/-- No two placeholders stand at the front of a text. -/
theorem eq_of_spell_prefix (h : IsNumeral numeral) (h' : IsNumeral other)
    (hs : spell numeral <+: s) (hs' : spell other <+: s) :
  numeral = other
  := by
  have hnumeral := numeral?_eq_some_iff.mpr ⟨h, hs⟩
  rw [numeral?_eq_some_iff.mpr ⟨h', hs'⟩] at hnumeral
  exact (Option.some.inj hnumeral).symm

end Placeholder

open Placeholder (IsNumeral spell numeral?)

namespace Token

variable {s numeral : Text} {c : Char}

@[simp]
theorem ofText_spell_append (h : IsNumeral numeral) (s : Text) :
  ofText (spell numeral ++ s) = slot numeral :: ofText s
  := by
  have hdrop : (numeral ++ '\x7d' :: s).drop (numeral.length + 1) = s := by
    rw [← List.drop_drop, List.drop_left]
    rfl
  have hnumeral := Placeholder.numeral?_spell_append h s
  rw [Placeholder.spell_append] at hnumeral ⊢
  rw [ofText, ofTextFrom, hnumeral]
  dsimp only
  rw [ofTextFrom_eq_ofText_drop, hdrop]

@[simp]
theorem ofText_cons (h : numeral? (c :: s) = none) :
  ofText (c :: s) = char c :: ofText s
  := by
  rw [ofText, ofTextFrom, h]
  rfl

/-- A text is empty, or it opens with a placeholder or with a character that opens none. -/
@[elab_as_elim]
theorem induction_on_text {motive : Text → Prop} (nil : motive [])
    (slot : ∀ numeral s, IsNumeral numeral → motive s → motive (spell numeral ++ s))
    (char : ∀ c s, numeral? (c :: s) = none → motive s → motive (c :: s)) (s : Text) :
  motive s
  := by
  induction hlength : s.length using Nat.strongRecOn generalizing s with
  | _ n ih =>
      cases s with
      | nil => exact nil
      | cons c s =>
          cases hnumeral : numeral? (c :: s) with
          | none => apply char c s hnumeral (ih s.length (by simp [← hlength]) s rfl)
          | some numeral =>
              obtain ⟨hnumeral, rest, hrest⟩ := Placeholder.numeral?_eq_some_iff.mp hnumeral
              have hlt : rest.length < n := by
                rw [← hlength, ← hrest, List.length_append, Placeholder.length_spell]
                omega
              rw [← hrest]
              apply slot numeral rest hnumeral (ih rest.length hlt rest rfl)

/-- The tokens of a text put together are the text. -/
theorem flatMap_text_ofText (s : Text) :
  (ofText s).flatMap text = s
  := by
  induction s using induction_on_text with
  | nil => rfl
  | slot numeral s hnumeral ih => simp [hnumeral, ih, text]
  | char c s hnone ih => simp [hnone, ih, text]

theorem isNumeral_of_slot_mem (h : slot numeral ∈ ofText s) :
  IsNumeral numeral
  := by
  induction s using induction_on_text with
  | nil => cases h
  | slot other s hother ih =>
      rw [ofText_spell_append hother] at h
      rcases List.mem_cons.mp h with h | h
      · rwa [slot.inj h]
      · apply ih h
  | char c s hnone ih =>
      rw [ofText_cons hnone] at h
      rcases List.mem_cons.mp h with h | h
      · cases h
      · apply ih h

/-- What is left of a text behind some of its tokens is read into its other tokens. -/
theorem ofText_flatMap_text {front back : List Token} (h : ofText s = front ++ back) :
  ofText (back.flatMap text) = back
  := by
  induction s using induction_on_text generalizing front with
  | nil =>
      obtain ⟨-, rfl⟩ := List.append_eq_nil_iff.mp h.symm
      rfl
  | slot numeral s hnumeral ih =>
      cases front with
      | nil => rw [← h.trans (List.nil_append back), flatMap_text_ofText]
      | cons t front =>
          rw [ofText_spell_append hnumeral] at h
          apply ih (List.cons.inj h).2
  | char c s hnone ih =>
      cases front with
      | nil => rw [← h.trans (List.nil_append back), flatMap_text_ofText]
      | cons t front =>
          rw [ofText_cons hnone] at h
          apply ih (List.cons.inj h).2

/-- No placeholder opens at a character that is a token of its own. -/
theorem numeral?_of_char {front back : List Token} (h : ofText s = front ++ char c :: back) :
  numeral? (c :: back.flatMap text) = none
  := by
  have hback : ofText (c :: back.flatMap text) = char c :: back := ofText_flatMap_text h
  rw [Option.eq_none_iff_forall_ne_some]
  intro numeral hnumeral
  obtain ⟨hnumeral, rest, hrest⟩ := Placeholder.numeral?_eq_some_iff.mp hnumeral
  rw [← hrest, ofText_spell_append hnumeral] at hback
  cases hback

end Token

end Diagnostics
