import Diagnostics.Piece
import Mathlib.Data.List.Basic
import Mathlib.Tactic.Use

/-!
# Trimming

A text is trimmed when it neither begins nor ends with a blank character.  Trimming a text leaves
out blank characters at both ends and nothing else, and what is left is trimmed.
-/

namespace Diagnostics

namespace Text

variable {s : Text}

/-- A text that neither begins nor ends with a blank character. -/
structure IsTrimmed (s : Text) : Prop where
  head : ∀ c ∈ s.head?, isBlank c = false
  last : ∀ c ∈ s.getLast?, isBlank c = false

theorem exists_eq_trimEnd_append (s : Text) :
  ∃ after, s = trimEnd s ++ after ∧ isBlankText after = true
  := by
  use (s.reverse.takeWhile isBlank).reverse
  constructor
  · rw [trimEnd, ← List.reverse_append, List.takeWhile_append_dropWhile, List.reverse_reverse]
  · rw [isBlankText, List.all_reverse, List.all_takeWhile]

/-- Trimming leaves out blank characters at both ends. -/
theorem exists_eq_append_trim_append (s : Text) :
  ∃ after, s = s.takeWhile isBlank ++ trim s ++ after ∧ isBlankText after = true
  := by
  obtain ⟨after, hafter, hblank⟩ := exists_eq_trimEnd_append (trimStart s)
  use after
  rw [trim, List.append_assoc, ← hafter, takeWhile_append_trimStart]
  exact ⟨rfl, hblank⟩

@[simp]
theorem isBlankText_append (a b : Text) :
  isBlankText (a ++ b) = (isBlankText a && isBlankText b)
  := List.all_append

theorem isBlankText_flatten_iff {ls : List Text} :
  isBlankText ls.flatten = true ↔ ∀ l ∈ ls, isBlankText l = true
  := by
  rw [isBlankText, List.all_flatten, List.all_eq_true]
  rfl

/-- Trimming leaves nothing of a blank text only. -/
theorem isEmpty_trim (s : Text) :
  (trim s).isEmpty = isBlankText s
  := by
  cases hblank : isBlankText s with
  | true =>
      rw [trim_of_blank hblank]
      rfl
  | false =>
      rw [List.isEmpty_eq_false_iff]
      intro htrim
      obtain ⟨after, hs, hafter⟩ := exists_eq_append_trim_append s
      rw [hs, htrim, List.append_nil, isBlankText_append, hafter, isBlankText,
        List.all_takeWhile] at hblank
      cases hblank

theorem head?_trimStart (s : Text) :
  ∀ c ∈ (trimStart s).head?, isBlank c = false
  := by
  intro c hc
  have := List.head?_dropWhile_not isBlank s
  rw [trimStart] at hc
  rw [hc] at this
  simpa using this

/-- A trimmed text is trimmed. -/
theorem isTrimmed_trim (s : Text) :
  IsTrimmed (trim s)
  := by
  constructor
  · intro c hc
    obtain ⟨after, hafter, -⟩ := exists_eq_trimEnd_append (trimStart s)
    apply head?_trimStart s
    rw [hafter]
    apply List.mem_head?_append_of_mem_head? hc
  · intro c hc
    rw [trim, trimEnd, List.getLast?_reverse] at hc
    apply head?_trimStart (trimStart s).reverse c hc

/-- A text that is not blank is a trimmed one between two blank ones. -/
theorem exists_eq_padded (h : isBlankText s = false) :
  ∃ a t b, s = a ++ t ++ b ∧ isBlankText a = true ∧ IsTrimmed t ∧ t ≠ [] ∧ isBlankText b = true
  := by
  obtain ⟨b, hs, hb⟩ := exists_eq_append_trim_append s
  use s.takeWhile isBlank, trim s, b, hs, List.all_takeWhile, isTrimmed_trim s
  constructor
  · rw [ne_eq, ← List.isEmpty_iff, isEmpty_trim, h]
    apply Bool.false_ne_true
  · exact hb

theorem mem_of_mem_trim {c : Char} (h : c ∈ trim s) :
  c ∈ s
  := by
  obtain ⟨after, hs, -⟩ := exists_eq_append_trim_append s
  rw [hs]
  apply List.mem_append_left _ (List.mem_append_right _ h)

theorem not_mem_of_isBlankText {c : Char} (hc : isBlank c = false) (h : isBlankText s = true) :
  c ∉ s
  := by
  intro hmem
  have := List.all_eq_true.mp h c hmem
  rw [hc] at this
  cases this

/-- Of a text with blank text around it, a character that is not blank stands in the text. -/
theorem exists_eq_append_of_padded {a b u t v : Text} {c : Char} (hc : isBlank c = false)
    (hu : isBlankText u = true) (hv : isBlankText v = true) (h : a ++ c :: b = u ++ t ++ v) :
  ∃ m k, a = u ++ m ∧ t = m ++ c :: k
  := by
  have hfront : ∃ m, a = u ++ m ∧ t ++ v = m ++ c :: b := by
    rw [List.append_assoc] at h
    rcases List.append_eq_append_iff.mp h with ⟨m, rfl, hm⟩ | hm
    · cases m with
      | nil => exact ⟨[], by simp, hm.symm⟩
      | cons d m =>
          obtain ⟨rfl, -⟩ := List.cons.inj hm
          apply absurd _ (not_mem_of_isBlankText hc hu)
          simp
    · exact hm
  obtain ⟨m, rfl, hm⟩ := hfront
  rcases List.append_eq_append_iff.mp hm with ⟨k, -, rfl⟩ | ⟨k, rfl, hk⟩
  · apply absurd _ (not_mem_of_isBlankText hc hv)
    simp
  · cases k with
    | nil =>
        apply absurd _ (not_mem_of_isBlankText hc hv)
        rw [← List.nil_append v, ← hk]
        apply List.mem_cons_self
    | cons d k =>
        obtain ⟨rfl, -⟩ := List.cons.inj hk
        use m, k, rfl

theorem dropWhile_isBlank_eq_self (h : ∀ c ∈ s.head?, isBlank c = false) :
  s.dropWhile isBlank = s
  := by
  cases s with
  | nil => rfl
  | cons c s => exact List.dropWhile_cons_of_neg (by simp [h c rfl])

theorem takeWhile_isBlank_eq_nil (h : ∀ c ∈ s.head?, isBlank c = false) :
  s.takeWhile isBlank = []
  := by
  cases s with
  | nil => rfl
  | cons c s => exact List.takeWhile_cons_of_neg (by simp [h c rfl])

theorem trimEnd_append {b : Text} (h : IsTrimmed s) (hb : isBlankText b = true) :
  trimEnd (s ++ b) = s
  := by
  have hlast : ∀ c ∈ s.reverse.head?, isBlank c = false := by
    rw [List.head?_reverse]
    apply h.last
  have hblank : ∀ c ∈ b.reverse, isBlank c = true := by
    intro c hc
    apply List.all_eq_true.mp hb c (List.mem_reverse.mp hc)
  rw [trimEnd, List.reverse_append, List.dropWhile_append_of_pos hblank,
    dropWhile_isBlank_eq_self hlast, List.reverse_reverse]

end Text

namespace Piece

/-- Trimming takes away what is blank around a trimmed text. -/
theorem trim_mk {n : Nat} {a s b : Text} (ha : Text.isBlankText a = true)
    (hs : s.IsTrimmed) (hne : s ≠ []) (hb : Text.isBlankText b = true) :
  trim ⟨n, a ++ s ++ b⟩ = ⟨n + a.utf8Length, s⟩
  := by
  have hblank : ∀ c ∈ a, Text.isBlank c = true := List.all_eq_true.mp ha
  have hhead : ∀ c ∈ (s ++ b).head?, Text.isBlank c = false := by
    rw [List.head?_append_of_ne_nil _ hne]
    apply hs.head
  rw [trim, List.append_assoc, List.takeWhile_append_of_pos hblank,
    Text.takeWhile_isBlank_eq_nil hhead, Text.trim, Text.trimStart,
    List.dropWhile_append_of_pos hblank, Text.dropWhile_isBlank_eq_self hhead,
    Text.trimEnd_append hs hb, List.append_nil]

theorem trim_append {n : Nat} {s b : Text} (hs : s.IsTrimmed) (hne : s ≠ [])
    (hb : Text.isBlankText b = true) :
  trim ⟨n, s ++ b⟩ = ⟨n, s⟩
  := trim_mk (a := []) rfl hs hne hb

theorem trim_eq_self {n : Nat} {s : Text} (hs : s.IsTrimmed) (hne : s ≠ []) :
  trim ⟨n, s⟩ = ⟨n, s⟩
  := by
  have := trim_append (n := n) (b := []) hs hne rfl
  rwa [List.append_nil] at this

/-- A blank character at the front of a piece does not show in the trimmed piece. -/
theorem trim_cons {n : Nat} {c : Char} {s : Text} (hc : Text.isBlank c = true) :
  trim ⟨n, c :: s⟩ = trim ⟨n + c.utf8Size, s⟩
  := by
  rw [trim, trim, List.takeWhile_cons_of_pos hc, Text.utf8Length_cons, Text.trim, Text.trim,
    Text.trimStart, Text.trimStart, List.dropWhile_cons_of_pos hc, Nat.add_assoc]

/-- Blank text behind a piece does not show in the trimmed piece. -/
theorem trim_append_blank {n : Nat} {s b : Text} (hs : Text.isBlankText s = false)
    (hb : Text.isBlankText b = true) :
  trim ⟨n, s ++ b⟩ = trim ⟨n, s⟩
  := by
  obtain ⟨a, t, b', rfl, ha, ht, hne, hb'⟩ := Text.exists_eq_padded hs
  have hboth : Text.isBlankText (b' ++ b) = true := by
    simp [hb', hb]
  rw [List.append_assoc, trim_mk ha ht hne hboth, trim_mk ha ht hne hb']

/-- A trimmed piece stands where the piece stands. -/
theorem IsPieceOf.trim {p : Piece} {source : Text} (h : p.IsPieceOf source) :
  p.trim.IsPieceOf source
  := by
  obtain ⟨before, after, rfl, hstart⟩ := h
  obtain ⟨rest, hrest, -⟩ := Text.exists_eq_append_trim_append p.text
  use before ++ p.text.takeWhile Text.isBlank, rest ++ after
  constructor
  · conv => lhs; rw [hrest]
    simp [Piece.trim]
  · simp [Piece.trim, hstart]

end Piece

/-- Blank text behind a text does not show in the trimmed text. -/
theorem Text.trim_append_blank {s b : Text} (hb : isBlankText b = true) :
  trim (s ++ b) = trim s
  := by
  cases hs : isBlankText s with
  | true =>
      have hboth : isBlankText (s ++ b) = true := by
        simp [hs, hb]
      rw [trim_of_blank hboth, trim_of_blank hs]
  | false => exact congrArg Piece.text (Piece.trim_append_blank (n := 0) hs hb)

end Diagnostics
