import Diagnostics.Text.Basic

/-!
# Placeholders

A placeholder is a decimal numeral between braces.  `numeral?` reads the placeholder that a
text opens with; a numeral of value `2 ^ 64` or more names no placeholder, and an opening brace
without a placeholder is an ordinary character.  `write` is the placeholder of an index.
-/

namespace Diagnostics

namespace Placeholder

/-- Placeholder indices are smaller than this. -/
def indexBound : Nat := Nat.pow 2 64

/-- The value of a decimal numeral. -/
def value (numeral : Text) : Nat := Nat.ofDigitChars 10 numeral 0

/-- The text of the placeholder with a numeral. -/
def spell (numeral : Text) : Text := '\x7b' :: numeral ++ ['\x7d']

/-- The placeholder of an index. -/
def write (index : Nat) : Text := spell (Nat.toDigits 10 index)

/-- The numeral of the placeholder that a text opens with. -/
def numeral? : Text → Option Text
  | [] => none
  | c :: s =>
    if c = '\x7b' then
      let numeral := s.takeWhile Char.isDigit
      if numeral ≠ [] ∧ (s.drop numeral.length).head? = some '\x7d'
          ∧ value numeral < indexBound then
        some numeral
      else
        none
    else
      none

/-- The placeholder that a text opens with is a part of the text. -/
theorem spell_of_numeral? {s numeral : Text} (h : numeral? s = some numeral) :
  s = spell numeral ++ s.drop (numeral.length + 2)
  := by
  cases s with
  | nil => simp [numeral?] at h
  | cons c s =>
    simp only [numeral?] at h
    by_cases hc : c = '\x7b'
    · rw [if_pos hc] at h
      split at h
      case isFalse => simp at h
      rename_i hopen
      obtain ⟨-, hclose, -⟩ := hopen
      subst hc
      cases h
      have hsplit := @List.takeWhile_append_dropWhile _ Char.isDigit s
      have hdrop : s.drop (s.takeWhile Char.isDigit).length = s.dropWhile Char.isDigit :=
        (congrArg (List.drop _) hsplit.symm).trans List.drop_left
      rw [hdrop] at hclose
      obtain ⟨t, ht⟩ := List.head?_eq_some_iff.1 hclose
      have htail : s.drop ((s.takeWhile Char.isDigit).length + 1) = t := by
        rw [← List.drop_drop, hdrop, ht]
        rfl
      conv => lhs; rw [← hsplit, ht]
      simp [spell, htail]
    · simp [hc] at h

end Placeholder

end Diagnostics
