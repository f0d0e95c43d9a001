import Diagnostics.Placeholder

/-!
# Substitution

The placeholders of an explanation stand for the items of a message.  In a body every
placeholder is replaced by its item.  In an excerpt only a placeholder between apostrophes is
replaced, together with the apostrophes, by its item between backticks.  A placeholder without
an item stays as it is, and items are not searched for placeholders.

`substitute` goes from one opening brace to the next.
-/

namespace Diagnostics

/-- Which placeholders are replaced. -/
inductive Substitution where
  /-- All of them, as in a body. -/
  | bare
  /-- Those between apostrophes, as in an excerpt. -/
  | quoted
  deriving DecidableEq, Repr

namespace Substitution

/-- The item of the placeholder that a text opens with, and the text after the placeholder. -/
def item? (items : List Text) (s : Text) : Option (Text × Text) := do
  let numeral ← Placeholder.numeral? s
  let item ← items[Placeholder.value numeral]?
  return (item, s.drop (numeral.length + 2))

/-- What the opening brace between two texts leads to, if it leads to a replacement: the text in
place of all that is replaced and the text after it. -/
def replacement? (mode : Substitution) (items : List Text) (before tail : Text) :
    Option (Text × Text) := do
  let (item, rest) ← item? items tail
  match mode with
  | bare => return (before ++ item, rest)
  | quoted =>
    if before.getLast? = some '\'' ∧ rest.head? = some '\'' then
      return (before.dropLast ++ '`' :: item ++ ['`'], rest.drop 1)
    else
      none

theorem length_of_item? {items : List Text} {s item rest : Text}
    (h : item? items s = some (item, rest)) :
  rest.length < s.length
  := by
  simp only [item?, Option.bind_eq_bind, Option.bind_eq_some_iff] at h
  obtain ⟨numeral, hnumeral, a, -, ha⟩ := h
  have hs := congrArg List.length (Placeholder.spell_of_numeral? hnumeral)
  cases ha
  simp only [List.length_append, Placeholder.spell, List.length_cons] at hs
  omega

theorem length_of_replacement? {mode : Substitution} {items : List Text}
    {before tail a rest : Text} (h : replacement? mode items before tail = some (a, rest)) :
  rest.length < tail.length
  := by
  simp only [replacement?, Option.bind_eq_bind, Option.bind_eq_some_iff] at h
  obtain ⟨⟨item, after⟩, hitem, h⟩ := h
  have := length_of_item? hitem
  cases mode with
  | bare => cases h; exact this
  | quoted =>
    simp only at h
    split at h
    · cases h
      simp only [List.length_drop]
      omega
    · simp at h

/-- A text with items in place of its placeholders. -/
def substitute (mode : Substitution) (items : List Text) (s : Text) : Text :=
  let before := s.takeWhile (· ≠ '\x7b')
  match _h : s.drop before.length with
  | [] => before
  | c :: after =>
    match _hr : replacement? mode items before (c :: after) with
    | some (a, rest) => a ++ substitute mode items rest
    | none => before ++ c :: substitute mode items after
termination_by s.length
decreasing_by
  · have h₁ := length_of_replacement? _hr
    have h₂ := congrArg List.length _h
    simp only [List.length_drop] at h₂
    omega
  · have h₂ := congrArg List.length _h
    simp only [List.length_drop, List.length_cons] at h₂
    omega

end Substitution

end Diagnostics
