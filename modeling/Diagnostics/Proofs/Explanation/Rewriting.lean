import Diagnostics.Explanation.Substitution
import Diagnostics.Proofs.Template.Tokens

/-!
# Substitution as rewriting

`substitute` goes from one opening brace to the next and looks back from a brace for the apostrophe
in front of it.  What it comes to is the rewriting of the text from left to right in a single pass:
where a token stands that is replaced, what it is replaced with is written and the text behind it is
rewritten, and elsewhere one character is copied.
-/

namespace Diagnostics

open Placeholder (IsNumeral spell)

namespace Substitution

variable {mode : Substitution} {items : List Text} {s t before token written : Text} {c : Char}

/-! ### From brace to brace -/

theorem takeWhile_append_of_not_mem (h : '\x7b' ∉ before) (s : Text) :
  (before ++ s).takeWhile (· ≠ '\x7b') = before ++ s.takeWhile (· ≠ '\x7b')
  := by
  apply List.takeWhile_append_of_pos
  intro c hc
  rw [decide_eq_true_iff]
  rintro rfl
  apply h hc

theorem substitute_of_not_mem (h : '\x7b' ∉ s) :
  mode.substitute items s = s
  := by
  have hall := takeWhile_append_of_not_mem h []
  rw [List.append_nil, List.takeWhile_nil, List.append_nil] at hall
  rw [substitute]
  split
  case h_1 => exact hall
  case h_2 hdrop =>
      rw [hall, List.drop_length] at hdrop
      cases hdrop

/-- What is written for the text up to an opening brace and what the brace leads to, and the text
after it.  A brace that leads to no replacement is written as it is. -/
def step (mode : Substitution) (items : List Text) (before after : Text) : Text × Text :=
  (mode.replacement? items before ('\x7b' :: after)).getD (before ++ ['\x7b'], after)

/-- A step goes past the brace. -/
theorem length_step (mode : Substitution) (items : List Text) (before after : Text) :
  (mode.step items before after).2.length ≤ after.length
  := by
  rw [step]
  cases hreplacement : mode.replacement? items before ('\x7b' :: after) with
  | none => apply Nat.le_refl
  | some written => apply Nat.le_of_lt_succ (length_of_replacement? hreplacement)

/-- A text with an opening brace is substituted step by step. -/
theorem substitute_brace (h : '\x7b' ∉ before) (after : Text) :
  mode.substitute items (before ++ '\x7b' :: after)
    = (mode.step items before after).1 ++ mode.substitute items (mode.step items before after).2
  := by
  have hbefore := takeWhile_append_of_not_mem h ('\x7b' :: after)
  rw [List.takeWhile_cons_of_neg (by simp), List.append_nil] at hbefore
  have hdrop : (before ++ '\x7b' :: after).drop before.length = '\x7b' :: after := List.drop_left
  rw [substitute, step]
  split
  case h_1 hnil =>
      rw [hbefore, hdrop] at hnil
      cases hnil
  case h_2 c rest hcons =>
      rw [hbefore, hdrop] at hcons
      obtain ⟨rfl, rfl⟩ := List.cons.inj hcons
      split
      case h_1 a rest hsome =>
          rw [hbefore] at hsome
          rw [hsome, Option.getD_some]
      case h_2 hnone =>
          rw [hbefore] at hnone
          rw [hnone, hbefore, Option.getD_none, List.append_assoc]
          rfl

/-! ### Tokens and their replacements -/

/-- The tokens that are replaced, and what they are replaced with: the placeholders that there are
items for, and in an excerpt such placeholders with the apostrophes around them. -/
inductive Replaces (items : List Text) : Substitution → Text → Text → Prop where
  | bare {numeral item : Text} (hnumeral : IsNumeral numeral)
      (hitem : items[Placeholder.value numeral]? = some item) :
      Replaces items .bare (spell numeral) item
  | quoted {numeral item : Text} (hnumeral : IsNumeral numeral)
      (hitem : items[Placeholder.value numeral]? = some item) :
      Replaces items .quoted ('\'' :: spell numeral ++ ['\'']) ('`' :: item ++ ['`'])

theorem Replaces.ne_nil (h : Replaces items mode token written) :
  token ≠ []
  := by
  cases h with
  | bare => simp [spell]
  | quoted => simp

/-- A placeholder with an item stands at the front of a text. -/
theorem item?_eq_some_iff {item rest : Text} :
  item? items s = some (item, rest)
    ↔ ∃ numeral, IsNumeral numeral ∧ items[Placeholder.value numeral]? = some item
      ∧ s = spell numeral ++ rest
  := by
  simp only [item?, Option.bind_eq_bind, Option.bind_eq_some_iff, Option.some.injEq,
    Prod.mk.injEq, Option.pure_def]
  constructor
  · rintro ⟨numeral, hnumeral, _, hitem, rfl, rfl⟩
    use numeral, Placeholder.isNumeral_of_numeral? hnumeral, hitem
    apply Placeholder.spell_of_numeral? hnumeral
  · rintro ⟨numeral, hnumeral, hitem, rfl⟩
    use numeral, Placeholder.numeral?_spell_append hnumeral rest, item, hitem, rfl
    rw [← Placeholder.length_spell, List.drop_left]

/-! ### One character at a time -/

/-- A token at the front of a text is replaced. -/
theorem substitute_replace (h : Replaces items mode token written) (s : Text) :
  mode.substitute items (token ++ s) = written ++ mode.substitute items s
  := by
  cases h with
  | @bare numeral _ hnumeral hitem =>
      have hfound : item? items (spell numeral ++ s) = some (written, s) :=
        item?_eq_some_iff.mpr ⟨numeral, hnumeral, hitem, rfl⟩
      rw [Placeholder.spell_append] at hfound ⊢
      have hstep : bare.step items [] (numeral ++ '\x7d' :: s) = (written, s) := by
        rw [step, replacement?, hfound]
        rfl
      rw [← List.nil_append ('\x7b' :: _), substitute_brace List.not_mem_nil, hstep]
  | @quoted numeral item hnumeral hitem =>
      have hfound : item? items (spell numeral ++ '\'' :: s) = some (item, '\'' :: s) :=
        item?_eq_some_iff.mpr ⟨numeral, hnumeral, hitem, rfl⟩
      have htext : '\'' :: spell numeral ++ ['\''] ++ s
          = ['\''] ++ (spell numeral ++ '\'' :: s) := by simp
      rw [htext]
      rw [Placeholder.spell_append] at hfound ⊢
      have hstep : quoted.step items ['\''] (numeral ++ '\x7d' :: '\'' :: s)
          = ('`' :: item ++ ['`'], s) := by
        rw [step, replacement?, hfound]
        rfl
      rw [substitute_brace (by simp), hstep]

/-- A character in front of the text up to a brace does not show in what the brace leads to, unless
a token begins with it. -/
theorem replacement?_cons {tail : Text}
    (h : ∀ token written, Replaces items mode token written → ¬ token <+: c :: (before ++ tail)) :
  mode.replacement? items (c :: before) tail
    = (mode.replacement? items before tail).map fun (a, rest) => (c :: a, rest)
  := by
  rw [replacement?, replacement?]
  cases hitem : item? items tail with
  | none => rfl
  | some found =>
      obtain ⟨item, rest⟩ := found
      dsimp only [Option.bind_eq_bind, Option.bind_some]
      cases mode with
      | bare => rfl
      | quoted =>
          cases before with
          | cons d before =>
              dsimp only
              rw [List.getLast?_cons_cons, List.dropLast_cons_cons]
              split
              · rfl
              · rfl
          | nil =>
              -- nothing but the character itself can be the apostrophe in front of the brace
              have hnone : ¬ ([c].getLast? = some '\'' ∧ rest.head? = some '\'') := by
                rintro ⟨hc, hrest⟩
                obtain rfl := Option.some.inj hc
                obtain ⟨after, rfl⟩ := List.head?_eq_some_iff.mp hrest
                obtain ⟨numeral, hnumeral, hvalue, rfl⟩ := item?_eq_some_iff.mp hitem
                apply h _ _ (.quoted hnumeral hvalue)
                use after
                simp
              dsimp only
              rw [if_neg hnone, if_neg (by simp)]
              rfl

/-- A brace at which no token begins leads to no replacement, without a text in front of it. -/
theorem replacement?_nil
    (h : ∀ token written, Replaces items mode token written → ¬ token <+: s) :
  mode.replacement? items [] s = none
  := by
  rw [Option.eq_none_iff_forall_ne_some]
  rintro ⟨a, rest⟩ hreplacement
  rw [replacement?, Option.bind_eq_bind] at hreplacement
  obtain ⟨⟨item, after⟩, hitem, hreplacement⟩ := Option.bind_eq_some_iff.mp hreplacement
  cases mode with
  | bare =>
      obtain ⟨numeral, hnumeral, hvalue, heq⟩ := item?_eq_some_iff.mp hitem
      apply h _ _ (.bare hnumeral hvalue)
      use after, heq.symm
  | quoted => simp at hreplacement

/-- A character at which no token begins is written in front of what a step writes. -/
theorem step_cons {after : Text}
    (h : ∀ token written, Replaces items mode token written
      → ¬ token <+: c :: (before ++ '\x7b' :: after)) :
  mode.step items (c :: before) after
    = (c :: (mode.step items before after).1, (mode.step items before after).2)
  := by
  rw [step, step, replacement?_cons h]
  cases mode.replacement? items before ('\x7b' :: after) with
  | none => rfl
  | some written => rfl

/-- A character at which no token begins is copied. -/
theorem substitute_copy
    (h : ∀ token written, Replaces items mode token written → ¬ token <+: c :: s) :
  mode.substitute items (c :: s) = c :: mode.substitute items s
  := by
  by_cases hc : c = '\x7b'
  · subst hc
    have hstep : mode.step items [] s = (['\x7b'], s) := by
      rw [step, replacement?_nil h]
      rfl
    rw [← List.nil_append ('\x7b' :: s), substitute_brace List.not_mem_nil, hstep]
    rfl
  · have hcopy (before : Text) (hbefore : '\x7b' ∉ before) : '\x7b' ∉ c :: before := by
      rw [List.mem_cons, not_or]
      exact ⟨Ne.symm hc, hbefore⟩
    by_cases hopen : '\x7b' ∈ s
    · obtain ⟨before, after, rfl, hbefore⟩ := List.eq_append_cons_of_mem hopen
      rw [← List.cons_append, substitute_brace (hcopy before hbefore), step_cons h,
        substitute_brace hbefore]
      rfl
    · rw [substitute_of_not_mem hopen, substitute_of_not_mem (hcopy s hopen)]

/-- A text is rewritten from left to right.  Where a token stands that is replaced, what it is
replaced with is written and the text behind the token is rewritten; elsewhere one character is
copied. -/
inductive Rewrites (mode : Substitution) (items : List Text) : Text → Text → Prop where
  | nil : Rewrites mode items [] []
  | replace {token written s t : Text} (htoken : Replaces items mode token written)
      (h : Rewrites mode items s t) : Rewrites mode items (token ++ s) (written ++ t)
  | copy {c : Char} {s t : Text}
      (hnone : ∀ token written, Replaces items mode token written → ¬ token <+: c :: s)
      (h : Rewrites mode items s t) : Rewrites mode items (c :: s) (c :: t)

/-- Every text is rewritten to the text with its placeholders substituted. -/
theorem rewrites_substitute (mode : Substitution) (items : List Text) (s : Text) :
  Rewrites mode items s (mode.substitute items s)
  := by
  -- the induction is on the length, as a token is replaced as a whole
  induction hlength : s.length using Nat.strongRecOn generalizing s with
  | _ n ih =>
      by_cases hfound : ∃ token written, Replaces items mode token written ∧ token <+: s
      · obtain ⟨token, written, htoken, s, rfl⟩ := hfound
        have hlt : s.length < n := by
          have := List.length_pos_iff.mpr htoken.ne_nil
          rw [← hlength, List.length_append]
          omega
        rw [substitute_replace htoken]
        apply Rewrites.replace htoken (ih _ hlt s rfl)
      · cases s with
        | nil =>
            rw [substitute_of_not_mem List.not_mem_nil]
            apply Rewrites.nil
        | cons c s =>
            have hnone : ∀ token written, Replaces items mode token written
                → ¬ token <+: c :: s := by
              intro token written htoken hprefix
              apply hfound ⟨token, written, htoken, hprefix⟩
            rw [substitute_copy hnone]
            apply Rewrites.copy hnone (ih _ (by simp [← hlength]) s rfl)

/-- Substitution is the rewriting of a text from left to right in a single pass: what a text is
rewritten to is the text with its placeholders substituted, and nothing else. -/
theorem rewrites_iff (mode : Substitution) (items : List Text) (s t : Text) :
  Rewrites mode items s t ↔ t = mode.substitute items s
  := by
  constructor
  · intro h
    induction h with
    | nil => rw [substitute_of_not_mem List.not_mem_nil]
    | replace htoken _ ih => rw [substitute_replace htoken, ih]
    | copy hnone _ ih => rw [substitute_copy hnone, ih]
  · rintro rfl
    apply rewrites_substitute

/-- The apostrophe behind a token is taken with it, so that the next placeholder has none in front
of it. -/
example :
    quoted.substitute ["a".toList, "{0}".toList] "'{0}'{1}' and '{01}'".toList
      = "`a`{1}' and `{0}`".toList := by
  cbv

end Substitution

end Diagnostics
