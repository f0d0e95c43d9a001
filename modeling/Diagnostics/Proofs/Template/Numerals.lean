import Diagnostics.Proofs.Template.Tokens
import Mathlib.Data.List.Induction

/-!
# Numerals of placeholders

A placeholder can be written with zeros in front of its index, and it is then another text for the
same index.  `reduce` leaves these zeros out.  The numeral that an index is written with is the
reduced one, so that writing the value of a numeral reduces it.
-/

namespace Diagnostics

namespace Placeholder

variable {numeral : Text} {i : Nat}

/-- A numeral less the zeros in front of it.  Of zeros alone one is left. -/
def reduce (numeral : Text) : Text :=
  match numeral.dropWhile (· = '0') with
  | [] => ['0']
  | c :: s => c :: s

/-- An index is written with a numeral. -/
theorem isNumeral_toDigits (h : i < indexBound) :
  IsNumeral (Nat.toDigits 10 i)
  := by
  constructor
  · apply Nat.toDigits_ne_nil
  · intro c hc
    apply Nat.isDigit_of_mem_toDigits (by decide) (by decide) hc
  · rwa [value, Nat.ofDigitChars_toDigits (by decide) (by decide)]

theorem value_toDigits (i : Nat) :
  value (Nat.toDigits 10 i) = i
  := Nat.ofDigitChars_toDigits (by decide) (by decide)

theorem exists_digitChar {c : Char} (h : c.isDigit = true) :
  ∃ d < 10, c = Nat.digitChar d
  := by
  rw [Char.isDigit_iff_toNat, show '0'.toNat = 48 from rfl, show '9'.toNat = 57 from rfl] at h
  use c.toNat - 48, by omega
  rw [← Char.toNat_inj, Nat.toNat_digitChar_of_lt_ten (by omega)]
  omega

/-- A numeral without a zero in front is that of its value. -/
theorem toDigits_value (hne : numeral ≠ []) (hdigits : ∀ c ∈ numeral, c.isDigit = true)
    (hzero : numeral.head? ≠ some '0') :
  Nat.toDigits 10 (value numeral) = numeral ∧ 0 < value numeral
  := by
  -- the last digit of a numeral is that of its value, and the others are those of a tenth of it
  induction numeral using List.reverseRecOn with
  | nil => exact absurd rfl hne
  | append_singleton front c ih =>
      obtain ⟨d, hd, rfl⟩ := exists_digitChar (hdigits c (by simp))
      have hvalue : value (front ++ [d.digitChar]) = 10 * value front + d := by
        rw [value, Nat.ofDigitChars_append, Nat.ofDigitChars_cons, Nat.ofDigitChars_nil,
          Nat.toNat_digitChar_of_lt_ten hd]
        simp [value]
      rw [hvalue]
      by_cases hfront : front = []
      · subst hfront
        have hpos : d ≠ 0 := by
          rintro rfl
          apply hzero rfl
        rw [show value [] = 0 from rfl, Nat.mul_zero, Nat.zero_add, Nat.toDigits_of_lt_base hd]
        exact ⟨rfl, Nat.pos_of_ne_zero hpos⟩
      · have hhead : front.head? ≠ some '0' := by
          rwa [List.head?_append_of_ne_nil _ hfront] at hzero
        obtain ⟨htail, hpos⟩ := ih hfront (fun c hc => hdigits c (List.mem_append_left _ hc)) hhead
        rw [← Nat.toDigits_append_toDigits (by decide) hpos hd, htail,
          Nat.toDigits_of_lt_base hd]
        exact ⟨rfl, by omega⟩

/-- Zeros in front of a numeral do not count. -/
theorem value_dropWhile (numeral : Text) :
  value (numeral.dropWhile (· = '0')) = value numeral
  := by
  induction numeral with
  | nil => rfl
  | cons c numeral ih =>
      by_cases hc : c = '0'
      · subst hc
        rw [List.dropWhile_cons_of_pos (by simp), ih, value, value, Nat.ofDigitChars_cons]
        rfl
      · rw [List.dropWhile_cons_of_neg (by simpa using hc)]

/-- The value of a numeral is written with the numeral reduced. -/
theorem toDigits_value_eq_reduce (h : ∀ c ∈ numeral, c.isDigit = true) :
  Nat.toDigits 10 (value numeral) = reduce numeral
  := by
  rw [← value_dropWhile, reduce]
  cases hrest : numeral.dropWhile (· = '0') with
  | nil => rfl
  | cons c s =>
      have hsuffix : c :: s <:+ numeral := hrest ▸ List.dropWhile_suffix _
      have hc : c ≠ '0' := by
        have := List.head?_dropWhile_not (fun c => decide (c = '0')) numeral
        simpa [hrest] using this
      apply (toDigits_value (List.cons_ne_nil c s) (fun d hd => h d (hsuffix.subset hd)) _).1
      simpa using hc

theorem write_value (h : IsNumeral numeral) :
  write (value numeral) = spell (reduce numeral)
  := by
  rw [write, toDigits_value_eq_reduce h.isDigit]

/-- A reduced numeral is no longer than it was. -/
theorem length_reduce_le (h : IsNumeral numeral) :
  (reduce numeral).length ≤ numeral.length
  := by
  rw [reduce]
  split
  · apply List.length_pos_iff.mpr h.ne_nil
  · rename_i hrest
    rw [← hrest]
    apply (List.dropWhile_suffix _).length_le

end Placeholder

end Diagnostics
