import Diagnostics.Proofs.Bytewise.Basic
import Diagnostics.Proofs.Explanation.Rewriting
import Diagnostics.Proofs.Text.Encoding

/-!
# Substitution by bytes

A placeholder is found by counting the bytes that are decimal digits behind its brace, and replaced
by cutting the text around it.  No character but the digits themselves has a byte that is a digit,
so that the cuts fall between characters, and the text with its items is the one of
`Substitution.substitute`.
-/

namespace Diagnostics

namespace Bytewise

open OffsetUnit (utf8)

/-- Whether a byte is a decimal digit. -/
def isDigitByte (b : Nat) : Bool := 0x30 ≤ b && b ≤ 0x39

/-- The number of decimal digits among the bytes at the front of a text. -/
def countDigits (s : Text) : Nat := ((utf8.encode s).takeWhile isDigitByte).length

/-- The length of the placeholder that a text opens with, and its index. -/
def placeholder? : Text → Option (Option (Nat × Nat))
  | [] => some none
  | c :: digits =>
    if c = '\x7b' then
      let length := countDigits digits
      if length = 0 then
        some none
      else do
        let behind ← from? digits length
        if behind.head? = some '\x7d' then
          let numeral ← upTo? digits length
          let index := Placeholder.value numeral
          some (if index < Placeholder.indexBound then some (length + 2, index) else none)
        else
          some none
    else
      some none

/-- The length of the placeholder that a text opens with, and its item. -/
def item? (items : List Text) (s : Text) : Option (Option (Nat × Text)) :=
  (placeholder? s).map fun found =>
    found.bind fun (length, index) => items[index]?.map (length, ·)

/-- What the opening brace between two texts leads to, if it leads to a replacement. -/
def replacement? (mode : Substitution) (items : List Text) (before tail : Text) :
    Option (Option (Text × Text)) := do
  match ← item? items tail with
  | none => some none
  | some (length, item) =>
    match mode with
    | .bare => do
      let rest ← from? tail length
      some (some (before ++ item, rest))
    | .quoted =>
      if before.getLast? = some '\'' then
        let behind ← from? tail length
        if behind.head? = some '\'' then
          let front ← upTo? before (← difference? before.utf8Length 1)
          let rest ← from? tail (length + 1)
          some (some (front ++ '`' :: item ++ ['`'], rest))
        else
          some none
      else
        some none

/-! ### Digits -/

variable {c : Char} {s : Text}

theorem units_of_lt (h : c.toNat < 0x80) :
  utf8.units c = [c.toNat]
  := by
  have hval : c.val.toNat ≤ 127 := Nat.le_of_lt_succ h
  rw [OffsetUnit.units, String.utf8EncodeChar, if_pos hval, List.map_singleton,
    UInt8.toNat_ofNat_of_lt' (Nat.lt_of_le_of_lt hval (by decide)), Char.toNat_val]

/-- The bytes of a character that takes several of them are large. -/
theorem le_of_mem_units (h : 0x80 ≤ c.toNat) {b : Nat} (hb : b ∈ utf8.units c) :
  0x80 ≤ b
  := by
  have hval : ¬ c.val.toNat ≤ 127 := Nat.not_le_of_lt h
  rw [OffsetUnit.units, String.utf8EncodeChar, if_neg hval] at hb
  split at hb
  · simp at hb
    omega
  · split at hb
    · simp at hb
      omega
    · simp at hb
      omega

theorem isDigitByte_toNat (c : Char) :
  isDigitByte c.toNat = c.isDigit
  := by
  rw [isDigitByte, Char.isDigit, Bool.eq_iff_iff]
  simp [UInt32.le_iff_toNat_le]

theorem units_of_isDigit (h : c.isDigit = true) :
  utf8.units c = [c.toNat]
  := by
  apply units_of_lt
  rw [← isDigitByte_toNat, isDigitByte] at h
  simp at h
  omega

theorem countDigits_cons_of_pos (h : c.isDigit = true) :
  countDigits (c :: s) = countDigits s + 1
  := by
  rw [countDigits, OffsetUnit.encode, List.flatMap_cons, units_of_isDigit h,
    List.singleton_append, List.takeWhile_cons_of_pos (by rw [isDigitByte_toNat, h])]
  rfl

/-- No byte of a character that is no digit is a digit. -/
theorem countDigits_cons_of_neg (h : c.isDigit = false) :
  countDigits (c :: s) = 0
  := by
  have hunits : ∀ b ∈ utf8.units c, isDigitByte b = false := by
    by_cases hlt : c.toNat < 0x80
    · simp [units_of_lt hlt, isDigitByte_toNat, h]
    · intro b hb
      have := le_of_mem_units (Nat.le_of_not_lt hlt) hb
      simp [isDigitByte]
      omega
  have hne : utf8.units c ≠ [] := by
    have := c.utf8Size_pos
    rw [← List.length_pos_iff, OffsetUnit.units, List.length_map, String.length_utf8EncodeChar]
    exact this
  obtain ⟨b, bs, hcons⟩ := List.exists_cons_of_ne_nil hne
  have hb : isDigitByte b = false := hunits b (hcons ▸ List.mem_cons_self)
  rw [countDigits, OffsetUnit.encode, List.flatMap_cons, hcons, List.cons_append,
    List.takeWhile_cons_of_neg (by simp [hb]), List.length_nil]

theorem countDigits_eq (s : Text) :
  countDigits s = (s.takeWhile Char.isDigit).length
  := by
  induction s with
  | nil => rfl
  | cons c s ih =>
      cases hdigit : c.isDigit with
      | true =>
          rw [countDigits_cons_of_pos hdigit, ih, List.takeWhile_cons_of_pos hdigit,
            List.length_cons]
      | false =>
          rw [countDigits_cons_of_neg hdigit, List.takeWhile_cons_of_neg (by simp [hdigit]),
            List.length_nil]

/-- Decimal digits take one byte each. -/
theorem utf8Length_of_isDigit (h : ∀ c ∈ s, c.isDigit = true) :
  s.utf8Length = s.length
  := by
  induction s with
  | nil => rfl
  | cons c s ih =>
      obtain ⟨hc, hs⟩ := List.forall_mem_cons.mp h
      have hsize : c.utf8Size = 1 := by
        have := congrArg List.length (units_of_isDigit hc)
        rwa [OffsetUnit.units, List.length_map, String.length_utf8EncodeChar] at this
      simp [hsize, ih hs, Nat.add_comm]

/-! ### Placeholders -/

/-- Behind its digits a text is cut between two characters. -/
theorem cutAt?_countDigits (s : Text) :
  Text.cutAt? (countDigits s) s
    = some (s.takeWhile Char.isDigit, s.drop (s.takeWhile Char.isDigit).length)
  := by
  have hlength : Text.utf8Length (s.takeWhile Char.isDigit) = countDigits s := by
    rw [countDigits_eq]
    apply utf8Length_of_isDigit (List.all_eq_true.mp List.all_takeWhile)
  have hfront : s.takeWhile Char.isDigit <+: s := List.takeWhile_prefix _
  rw [Text.cutAt?_eq_some_iff]
  use (List.prefix_iff_eq_append.mp hfront).symm, hlength.symm

theorem placeholder?_eq (s : Text) :
  placeholder? s
    = some ((Placeholder.numeral? s).map fun numeral =>
        (numeral.length + 2, Placeholder.value numeral))
  := by
  cases s with
  | nil => rfl
  | cons c s =>
      rw [placeholder?, Placeholder.numeral?]
      split
      case isFalse => rfl
      dsimp only
      rw [from?, upTo?, cutAt?_countDigits, countDigits_eq, Option.map_some, Option.map_some]
      generalize s.takeWhile Char.isDigit = numeral
      generalize s.drop numeral.length = behind
      by_cases hempty : numeral = []
      · simp [hempty]
      · by_cases hclose : behind.head? = some '\x7d'
        · by_cases hvalue : Placeholder.value numeral < Placeholder.indexBound
          · simp [hempty, hclose, hvalue]
          · simp [hempty, hclose, hvalue]
        · simp [hempty, hclose]

theorem utf8Length_spell {numeral : Text} (h : Placeholder.numeral? s = some numeral) :
  (Placeholder.spell numeral).utf8Length = numeral.length + 2
  := by
  have hnumeral := Placeholder.isNumeral_of_numeral? h
  have hopen : Char.utf8Size '\x7b' = 1 := rfl
  have hclose : Text.utf8Length ['\x7d'] = 1 := rfl
  rw [Placeholder.spell, Text.utf8Length_append, Text.utf8Length_cons,
    utf8Length_of_isDigit hnumeral.isDigit, hopen, hclose]
  omega

variable {items : List Text} {tail item rest : Text}

theorem item?_of_none (h : Substitution.item? items tail = none) :
  item? items tail = some none
  := by
  rw [Substitution.item?, Option.bind_eq_bind] at h
  rw [item?, placeholder?_eq, Option.map_some]
  cases hnumeral : Placeholder.numeral? tail with
  | none => rfl
  | some numeral =>
      rw [hnumeral, Option.bind_some] at h
      cases hitem : items[Placeholder.value numeral]? with
      | none => simp [hitem]
      | some item =>
          rw [hitem] at h
          cases h

/-- The length of a placeholder with an item is that of its text. -/
theorem item?_of_some (h : Substitution.item? items tail = some (item, rest)) :
  ∃ p, tail = p ++ rest ∧ item? items tail = some (some (p.utf8Length, item))
  := by
  obtain ⟨numeral, hnumeral, hitem, rfl⟩ := Substitution.item?_eq_some_iff.mp h
  have hfound := Placeholder.numeral?_spell_append hnumeral rest
  use Placeholder.spell numeral, rfl
  rw [item?, placeholder?_eq, hfound, utf8Length_spell hfound]
  simp [hitem]

/-! ### Replacements -/

theorem replacement?_eq (mode : Substitution) (items : List Text) (before tail : Text) :
  replacement? mode items before tail = some (mode.replacement? items before tail)
  := by
  rw [replacement?, Substitution.replacement?]
  cases hitem : Substitution.item? items tail with
  | none =>
      rw [item?_of_none hitem]
      rfl
  | some found =>
      obtain ⟨item, rest⟩ := found
      obtain ⟨p, rfl, hbytes⟩ := item?_of_some hitem
      rw [hbytes]
      dsimp only [Option.bind_eq_bind, Option.bind_some]
      cases mode with
      | bare =>
          dsimp only
          rw [from?_append]
          rfl
      | quoted =>
          dsimp only
          rw [from?_append, Option.bind_some]
          by_cases hbefore : before.getLast? = some '\''
          · obtain ⟨front, rfl⟩ := List.getLast?_eq_some_iff.mp hbefore
            by_cases hrest : rest.head? = some '\''
            · obtain ⟨rest, rfl⟩ := List.head?_eq_some_iff.mp hrest
              have hfront : Text.utf8Length (front ++ ['\'']) = Text.utf8Length front + 1 :=
                Text.utf8Length_append _ _
              rw [hfront, difference?_add, from?_append_cons _ _ rfl]
              dsimp only [Option.bind_eq_bind, Option.bind_some]
              rw [upTo?_append]
              simp
            · simp [hrest]
          · simp [hbefore]

/-! ### Whole texts -/

/-- What is written for the text up to an opening brace and what the brace leads to, and the text
after it. -/
def step? (mode : Substitution) (items : List Text) (before tail : Text) :
    Option (Text × Text) := do
  match ← replacement? mode items before tail with
  | some written => some written
  | none =>
    let rest ← from? tail 1
    some (before ++ ['\x7b'], rest)

/-- A step goes past the brace. -/
theorem length_of_step? {mode : Substitution} {before : Text} {written : Text × Text}
    (h : step? mode items before tail = some written) :
  written.2.length < tail.length
  := by
  rw [step?, replacement?_eq, Option.bind_eq_bind, Option.bind_some] at h
  cases hreplacement : mode.replacement? items before tail with
  | some replaced =>
      rw [hreplacement] at h
      obtain rfl := Option.some.inj h
      apply Substitution.length_of_replacement? hreplacement
  | none =>
      rw [hreplacement] at h
      obtain ⟨rest, hrest, h⟩ := Option.bind_eq_some_iff.mp h
      obtain rfl := Option.some.inj h
      apply length_lt_of_from? Nat.one_ne_zero hrest

theorem step?_eq (mode : Substitution) (items : List Text) (before after : Text) :
  step? mode items before ('\x7b' :: after) = some (mode.step items before after)
  := by
  have hafter : from? ('\x7b' :: after) 1 = some after := from?_append_cons [] after rfl
  rw [step?, replacement?_eq, hafter, Substitution.step]
  cases mode.replacement? items before ('\x7b' :: after) with
  | none => rfl
  | some written => rfl

/-- A text with items in place of its placeholders. -/
def substitute? (mode : Substitution) (items : List Text) (s : Text) : Option Text :=
  match find? ['\x7b'] s with
  | none => some s
  | some n => do
    let before ← upTo? s n
    (from? s n).pbind fun tail _htail =>
      (step? mode items before tail).pbind fun written _hwritten => do
        let substituted ← substitute? mode items written.2
        some (written.1 ++ substituted)
termination_by s.length
decreasing_by
  have := length_le_of_from? _htail
  have := length_of_step? _hwritten
  omega

/-- Every text has its placeholders replaced by bytes as it has them replaced by characters. -/
theorem substitute?_eq (mode : Substitution) (items : List Text) (s : Text) :
  substitute? mode items s = some (mode.substitute items s)
  := by
  -- the induction is on the length, as a step goes past the brace by a whole placeholder
  induction hlength : s.length using Nat.strongRecOn generalizing s with
  | _ n ih =>
      by_cases hopen : '\x7b' ∈ s
      · obtain ⟨before, after, rfl, hbefore⟩ := List.eq_append_cons_of_mem hopen
        have hstep := mode.length_step items before after
        rw [List.length_append, List.length_cons] at hlength
        rw [substitute?, find?_singleton hbefore, Substitution.substitute_brace hbefore]
        simp only [Option.pbind_eq_bind]
        rw [upTo?_append, from?_append, Option.bind_eq_bind, Option.bind_some, Option.bind_some,
          step?_eq, Option.bind_some, ih _ (by omega) _ rfl]
        rfl
      · rw [substitute?, find?_eq_none hopen, Substitution.substitute_of_not_mem hopen]

end Bytewise

end Diagnostics
