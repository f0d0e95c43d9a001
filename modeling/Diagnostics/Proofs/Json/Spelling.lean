import Diagnostics.Json.Reader
import Diagnostics.Json.Writer
import Mathlib.Data.List.Basic
import Mathlib.Data.List.TakeDrop
import Mathlib.Tactic.SplitIfs
import Mathlib.Tactic.Use

/-!
# Spellings

A string and a number are read as they are written.  Each character of a string has a spelling of
its own, which is read to its end and no further, and which stands for the character.  A number is
read up to the first character that does not continue it.
-/

namespace Diagnostics

namespace Json

/-- How a character stands in a string: behind a backslash that gives it another letter, by its
number, or as it is. -/
inductive Spells : Char → Text → Prop where
  | letter {c d : Char} (hd : d ≠ 'u') (hescaped : escaped? d = some c) : Spells c ['\\', d]
  | code {c : Char} (hc : c.toNat < 0x20) :
      Spells c ['\\', 'u', '0', '0', hexDigit (c.toNat / 16), hexDigit (c.toNat % 16)]
  | plain {c : Char} (hquote : c ≠ '"') (hbackslash : c ≠ '\\') (hc : 0x20 ≤ c.toNat) :
      Spells c [c]

/-- A text does not continue a number that stands in front of it. -/
def Stops (rest : Text) : Prop :=
  ∀ c ∈ rest.head?, c.isDigit = false ∧ c ≠ '.' ∧ c ≠ 'e' ∧ c ≠ 'E'

variable {c : Char} {spelling s rest : Text} {n : Nat}

/-! ### Strings -/

theorem spells_escape (c : Char) :
  Spells c (escape c)
  := by
  rw [escape]
  split_ifs with hquote hbackslash hb hf hn hr ht hc
  · exact .letter (by decide) (by rw [hquote]; rfl)
  · exact .letter (by decide) (by rw [hbackslash]; rfl)
  · exact .letter (by decide) (by rw [hb]; rfl)
  · exact .letter (by decide) (by rw [hf]; rfl)
  · exact .letter (by decide) (by rw [hn]; rfl)
  · exact .letter (by decide) (by rw [hr]; rfl)
  · exact .letter (by decide) (by rw [ht]; rfl)
  · exact .code hc
  · exact .plain hquote hbackslash (Nat.not_lt.mp hc)

theorem hexValue?_hexDigit (h : n < 0x20) :
  hexValue? ['0', '0', hexDigit (n / 16), hexDigit (n % 16)] = some n
  := by
  revert n
  decide

/-- The spelling of a character is read to its end and no further. -/
theorem string?_append (h : Spells c spelling) (s : Text) :
  string? (spelling ++ s) = (string? s).map fun (t, rest) => (spelling ++ t, rest)
  := by
  cases h with
  | letter hd hescaped =>
      rw [List.cons_append, List.cons_append, List.nil_append, string?, hescaped]
      · cases string? s <;> rfl
      · rintro _ _ _ _ _ hu
        exact absurd hu hd
  | code hc =>
      simp only [List.cons_append, List.nil_append, string?, hexValue?_hexDigit hc]
      cases string? s <;> rfl
  | plain hquote hbackslash hc =>
      rw [List.cons_append, List.nil_append, string?, if_neg (by simp [hbackslash, hc])]
      · cases string? s <;> rfl
      · exact hquote
      · rintro _ _ _ _ _ hbackslash'
        exact absurd hbackslash' hbackslash
      · rintro _ _ hbackslash'
        exact absurd hbackslash' hbackslash

/-- The spelling of a character stands for it. -/
theorem decode?_append (h : Spells c spelling) (s : Text) :
  decode? (spelling ++ s) = (decode? s).map (c :: ·)
  := by
  cases h with
  | letter hd hescaped =>
      rw [decode?, List.cons_append, List.cons_append, List.nil_append, units?, hescaped, decode?]
      · cases units? s <;> rfl
      · rintro _ _ _ _ _ hu
        exact absurd hu hd
  | code hc =>
      simp only [decode?, List.cons_append, List.nil_append, units?, hexValue?_hexDigit hc]
      cases units? s with
      | none => rfl
      | some us =>
          change ofUnits? (.code c.toNat :: us) = (ofUnits? us).map (c :: ·)
          rw [ofUnits?.eq_def]
          dsimp only
          rw [if_neg (by omega), if_neg (by omega), Char.ofNat_toNat]
  | plain hquote hbackslash hc =>
      rw [decode?, List.cons_append, List.nil_append, units?, decode?]
      · cases units? s <;> rfl
      · rintro _ _ _ _ _ hbackslash'
        exact absurd hbackslash' hbackslash
      · rintro _ _ hbackslash'
        exact absurd hbackslash' hbackslash

/-- A string is read up to the quotation mark behind it. -/
theorem string?_flatMap_escape (s rest : Text) :
  string? (s.flatMap escape ++ '"' :: rest) = some (s.flatMap escape, rest)
  := by
  induction s with
  | nil => simp [string?]
  | cons c s ih =>
      rw [List.flatMap_cons, List.append_assoc, string?_append (spells_escape c), ih]
      rfl

/-- A string stands for the text that it is written for. -/
theorem decode?_flatMap_escape (s : Text) :
  decode? (s.flatMap escape) = some s
  := by
  induction s with
  | nil => rfl
  | cons c s ih =>
      rw [List.flatMap_cons, decode?_append (spells_escape c), ih]
      rfl

/-! ### Numbers -/

theorem stops_cons :
  Stops (c :: rest) ↔ c.isDigit = false ∧ c ≠ '.' ∧ c ≠ 'e' ∧ c ≠ 'E'
  := by
  simp [Stops]

theorem isDigit_of_mem_toDigits (n : Nat) (h : c ∈ Nat.toDigits 10 n) :
  c.isDigit = true
  := Nat.isDigit_of_mem_toDigits (by decide) (by decide) h

/-- Only zero is written with a zero in front. -/
theorem head?_toDigits (h : 0 < n) :
  (Nat.toDigits 10 n).head? ≠ some '0'
  := by
  induction n using Nat.strongRecOn with
  | ind n ih =>
      rcases Nat.lt_or_ge n 10 with hn | hn
      · rw [Nat.toDigits_of_lt_base hn]
        have hdigit : ∀ d < 10, 0 < d → d.digitChar ≠ '0' := by decide
        simpa using hdigit n hn h
      · rw [← Nat.div_add_mod n 10,
          ← Nat.toDigits_append_toDigits (by decide) (by omega) (Nat.mod_lt n (by decide)),
          List.head?_append_of_ne_nil _ Nat.toDigits_ne_nil]
        apply ih (n / 10) (by omega) (by omega)

theorem digits?_toDigits (n : Nat) (h : Stops rest) :
  digits? (Nat.toDigits 10 n ++ rest) = some (Nat.toDigits 10 n, rest)
  := by
  have hdigits : ∀ c ∈ Nat.toDigits 10 n, c.isDigit = true := fun c =>
    isDigit_of_mem_toDigits n
  have hspan : (Nat.toDigits 10 n ++ rest).span Char.isDigit = (Nat.toDigits 10 n, rest) := by
    rw [List.span_eq_takeWhile_dropWhile, List.takeWhile_append_of_pos hdigits,
      List.dropWhile_append_of_pos hdigits]
    cases rest with
    | nil => simp
    | cons c rest => simp [(stops_cons.mp h).1]
  rw [digits?, hspan]
  cases hn : Nat.toDigits 10 n with
  | nil => exact absurd hn Nat.toDigits_ne_nil
  | cons c s => rfl

theorem markedDigits?_eq_nil {marks : List Char} (signs : List Char)
    (h : ∀ c ∈ rest.head?, c ∉ marks) :
  markedDigits? marks signs rest = some ([], rest)
  := by
  cases rest with
  | nil => rfl
  | cons c rest =>
      have hc : marks.contains c = false := by simpa using h
      simp only [markedDigits?, hc]
      rfl

/-- A number is read up to what does not continue it. -/
theorem number?_toDigits (n : Nat) (h : Stops rest) :
  number? (Nat.toDigits 10 n ++ rest) = some (Nat.toDigits 10 n, rest)
  := by
  have hfraction : markedDigits? ['.'] [] rest = some ([], rest) :=
    markedDigits?_eq_nil [] fun c hc => by simp [(h c hc).2.1]
  have hexponent : markedDigits? ['e', 'E'] ['+', '-'] rest = some ([], rest) :=
    markedDigits?_eq_nil ['+', '-'] fun c hc => by simp [(h c hc).2.2]
  have hzero : ¬ ((Nat.toDigits 10 n).head? = some '0' ∧ (Nat.toDigits 10 n).length ≠ 1) := by
    rintro ⟨hhead, hlength⟩
    rcases Nat.eq_zero_or_pos n with rfl | hn
    · exact hlength rfl
    · exact head?_toDigits hn hhead
  have hsign : ∀ s, Nat.toDigits 10 n ++ rest ≠ '-' :: s := by
    intro s hs
    have hhead := congrArg List.head? hs
    rw [List.head?_append_of_ne_nil _ Nat.toDigits_ne_nil] at hhead
    exact absurd (isDigit_of_mem_toDigits n (List.mem_of_head? hhead)) (by decide)
  rw [number?]
  · simp only [digits?_toDigits n h, Option.bind_eq_bind, Option.bind_some, if_neg hzero,
      hfraction, hexponent]
    simp
  · exact hsign

theorem nat?_number_toDigits (n : Nat) :
  (Term.number (Nat.toDigits 10 n)).nat? = some n
  := by
  have hdigits : (Nat.toDigits 10 n).all Char.isDigit = true := by
    apply List.all_eq_true.mpr
    intro c
    apply isDigit_of_mem_toDigits
  rw [Term.nat?, if_pos hdigits, Nat.ofDigitChars_toDigits (by decide) (by decide)]

end Json

end Diagnostics
