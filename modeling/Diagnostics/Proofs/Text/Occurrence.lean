import Diagnostics.Text.Search
import Mathlib.Data.List.Basic
import Mathlib.Tactic.Use

/-!
# Occurrences

`a.IsClosedBy l` says that in `a ++ l` the text `l` does not occur before the end of `a`.  The
first occurrence of `l` in a text is the one after such an `a`, and there is none exactly when
`l` is no part of the text.
-/

namespace Diagnostics

namespace Text

/-- In `a` followed by `l`, the first occurrence of `l` is the one that follows `a`. -/
def IsClosedBy (a l : Text) : Prop :=
  ∀ p q, a ++ l = p ++ l ++ q → a.length ≤ p.length

/-- What `isPrefixOf?` leaves of a text is what follows the prefix. -/
theorem isPrefixOf?_eq_some_iff {l s rest : Text} :
  l.isPrefixOf? s = some rest ↔ s = l ++ rest
  := by
  induction l generalizing s with
  | nil => simp [List.isPrefixOf?, eq_comm]
  | cons d l ih =>
      cases s with
      | nil => simp [List.isPrefixOf?]
      | cons c s =>
          by_cases hdc : d = c
          · subst hdc
            simp [List.isPrefixOf?, ih]
          · simp [List.isPrefixOf?, hdc, Ne.symm hdc]

theorem isPrefixOf?_eq_none_iff {l s : Text} :
  l.isPrefixOf? s = none ↔ ¬ l <+: s
  := by
  rw [Option.eq_none_iff_forall_ne_some]
  constructor
  · rintro h ⟨rest, hrest⟩
    apply h rest (isPrefixOf?_eq_some_iff.mpr hrest.symm)
  · intro h rest hrest
    apply h ⟨rest, (isPrefixOf?_eq_some_iff.mp hrest).symm⟩

/-- Where a literal stands, its first occurrence is there. -/
theorem splitAtFirst?_cons_of_eq_append {c : Char} {l s rest : Text} (h : c :: s = l ++ rest) :
  splitAtFirst? l (c :: s) = some ([], rest)
  := by
  rw [splitAtFirst?, isPrefixOf?_eq_some_iff.mpr h]

/-- Where a literal does not stand, its first occurrence is further on. -/
theorem splitAtFirst?_cons_of_absent {c : Char} {l s : Text} (h : ¬ l <+: c :: s) :
  splitAtFirst? l (c :: s) = (splitAtFirst? l s).map fun (a, b) => (c :: a, b)
  := by
  rw [splitAtFirst?, isPrefixOf?_eq_none_iff.mpr h]

theorem isClosedBy_nil (l : Text) :
  IsClosedBy [] l
  := fun _ _ _ => Nat.zero_le _

/-- A text is closed by `l` when `l` does not stand at its front and its tail is closed. -/
theorem isClosedBy_cons {c : Char} {a l : Text} :
  IsClosedBy (c :: a) l ↔ ¬ l <+: c :: (a ++ l) ∧ IsClosedBy a l
  := by
  constructor
  · intro h
    constructor
    · rintro ⟨q, hq⟩
      have := h [] q (by simpa using hq.symm)
      simp at this
    · intro p q hpq
      have := h (c :: p) q (by simp [hpq])
      simpa using this
  · rintro ⟨hfront, htail⟩ p q hpq
    cases p with
    | nil =>
        apply absurd _ hfront
        use q
        simpa using hpq.symm
    | cons d p =>
        have := htail p q (by simpa using (List.cons.inj hpq).2)
        simpa using this

/-- A text closed by `l` leaves `l` no place at the front of what follows. -/
theorem IsClosedBy.not_prefix {c : Char} {a l b : Text} (h : IsClosedBy (c :: a) l) :
  ¬ l <+: c :: (a ++ l ++ b)
  := by
  intro hl
  apply (isClosedBy_cons.mp h).1
  apply List.prefix_of_prefix_length_le hl
  · use b
    simp
  · simp only [List.length_cons, List.length_append]
    omega

/-- The first occurrence of `l` follows a text that is closed by `l`. -/
theorem splitAtFirst?_eq_some_iff {l s a b : Text} :
  splitAtFirst? l s = some (a, b) ↔ s = a ++ l ++ b ∧ a.IsClosedBy l
  := by
  induction s generalizing a with
  | nil =>
      simp only [splitAtFirst?, Option.ite_none_right_eq_some, Option.some.injEq, Prod.mk.injEq,
        List.nil_eq, List.append_eq_nil_iff]
      constructor
      · rintro ⟨rfl, rfl, rfl⟩
        exact ⟨⟨⟨rfl, rfl⟩, rfl⟩, isClosedBy_nil _⟩
      · rintro ⟨⟨⟨rfl, rfl⟩, rfl⟩, -⟩
        exact ⟨rfl, rfl, rfl⟩
  | cons c s ih =>
      by_cases hfront : l <+: c :: s
      · obtain ⟨rest, hs⟩ := hfront
        rw [splitAtFirst?_cons_of_eq_append hs.symm, Option.some.injEq, Prod.mk.injEq]
        constructor
        · rintro ⟨rfl, rfl⟩
          exact ⟨hs.symm, isClosedBy_nil l⟩
        · rintro ⟨hab, hclosed⟩
          cases a with
          | nil =>
              use rfl
              apply List.append_cancel_left (hs.trans hab)
          | cons d a =>
              obtain ⟨rfl, rfl⟩ := List.cons.inj hab
              apply absurd ⟨rest, hs⟩ hclosed.not_prefix
      · rw [splitAtFirst?_cons_of_absent hfront]
        simp only [Option.map_eq_some_iff, Prod.exists, Prod.mk.injEq]
        constructor
        · rintro ⟨a', b', hsplit, rfl, rfl⟩
          obtain ⟨rfl, hclosed⟩ := ih.mp hsplit
          use rfl
          apply isClosedBy_cons.mpr
          use fun hl => hfront (hl.trans ⟨b', by simp⟩)
        · rintro ⟨hab, hclosed⟩
          cases a with
          | nil => apply absurd ⟨b, hab.symm⟩ hfront
          | cons d a =>
              obtain ⟨rfl, rfl⟩ := List.cons.inj hab
              use a, b, ih.mpr ⟨rfl, (isClosedBy_cons.mp hclosed).2⟩

/-- Without an occurrence of `l` there is no first one. -/
theorem splitAtFirst?_eq_none_iff {l s : Text} :
  splitAtFirst? l s = none ↔ ¬ l <:+: s
  := by
  induction s with
  | nil => simp [splitAtFirst?]
  | cons c s ih =>
      rw [List.infix_cons_iff, not_or, ← ih]
      by_cases hfront : l <+: c :: s
      · obtain ⟨rest, hs⟩ := hfront
        rw [splitAtFirst?_cons_of_eq_append hs.symm]
        simp only [reduceCtorEq, false_iff, not_and]
        intro hnot
        apply absurd ⟨rest, hs⟩ hnot
      · rw [splitAtFirst?_cons_of_absent hfront, Option.map_eq_none_iff]
        simp [hfront]

/-- Where a literal occurs, its first occurrence is no further on: it leaves a part of what stands in
front, and all of what stands behind. -/
theorem exists_splitAtFirst?_of_eq_append {l s p q : Text} (h : s = p ++ l ++ q) :
  ∃ a b, splitAtFirst? l s = some (a, b) ∧ a <+: p ∧ q <:+ b
  := by
  have hsome : splitAtFirst? l s ≠ none := by
    rw [ne_eq, splitAtFirst?_eq_none_iff, not_not]
    use p, q, h.symm
  obtain ⟨⟨a, b⟩, hsplit⟩ := Option.ne_none_iff_exists'.mp hsome
  obtain ⟨hs, hclosed⟩ := splitAtFirst?_eq_some_iff.mp hsplit
  have hfirst : a ++ l <+: s := ⟨b, hs.symm⟩
  have hother : p ++ l <+: s := ⟨q, h.symm⟩
  have hle : a.length ≤ p.length := by
    by_contra hlt
    have hshorter : (p ++ l).length ≤ (a ++ l).length := by
      rw [List.length_append, List.length_append]
      omega
    obtain ⟨rest, hrest⟩ := List.prefix_of_prefix_length_le hother hfirst hshorter
    apply hlt (hclosed p rest hrest.symm)
  have hlength := congrArg List.length (hs.symm.trans h)
  rw [List.length_append, List.length_append, List.length_append, List.length_append] at hlength
  have hbehind : b <:+ s := ⟨a ++ l, hs.symm⟩
  have hrest : q <:+ s := ⟨p ++ l, h.symm⟩
  use a, b, hsplit
  constructor
  · apply List.prefix_of_prefix_length_le ((List.prefix_append a l).trans hfirst)
      ((List.prefix_append p l).trans hother) hle
  · apply List.suffix_of_suffix_length_le hrest hbehind (by omega)

end Text

end Diagnostics
