import Diagnostics.Proofs.Text.Trim
import Diagnostics.Text.Lines

/-!
# Lines below a head line

A text is a line when it is trimmed, not empty and has no line feeds.  `below` puts lines under a
head line, each with white space in front of it, and `lines_below` takes the whole apart again.
-/

namespace Diagnostics

namespace Text

variable {a b s after : Text} {ls : List (Text × Text)}

/-- A text that can stand on a line by itself. -/
structure IsLine (s : Text) : Prop where
  ne_nil : s ≠ []
  isTrimmed : s.IsTrimmed
  not_mem_lineFeed : '\n' ∉ s

/-- White space that can stand in front of a line. -/
structure IsIndent (s : Text) : Prop where
  ne_nil : s ≠ []
  isBlankText : isBlankText s = true
  not_mem_lineFeed : '\n' ∉ s

instance : DecidablePred IsIndent := fun s =>
  decidable_of_iff (s ≠ [] ∧ isBlankText s = true ∧ '\n' ∉ s)
    ⟨fun h => ⟨h.1, h.2.1, h.2.2⟩, fun h => ⟨h.1, h.2, h.3⟩⟩

/-- What may follow a line: nothing, or a line feed and other lines. -/
def EndsLine (u : Text) : Prop := ∀ c ∈ u.head?, c = '\n'

/-- The lines below a head line, each with the white space in front of it. -/
def below : List (Text × Text) → Text
  | [] => []
  | (indent, line) :: ls => '\n' :: indent ++ (line ++ below ls)

theorem endsLine_below (ls : List (Text × Text)) :
  EndsLine (below ls)
  := by
  intro c hc
  cases ls with
  | nil => cases hc
  | cons p ls =>
      obtain ⟨indent, line⟩ := p
      exact (Option.some.inj hc).symm

theorem isBlankText_lineFeed_cons (h : isBlankText s = true) :
  isBlankText ('\n' :: s) = true
  := by
  rw [isBlankText, List.all_cons, Bool.and_eq_true]
  exact ⟨by decide, h⟩

/-! ### Taking lines apart -/

theorem lines_append_lineFeed (h : '\n' ∉ a) (b : Text) :
  lines (a ++ '\n' :: b) = (a ++ ['\n']) :: lines b
  := by
  induction a with
  | nil => rw [List.nil_append, lines, if_pos rfl, List.nil_append]
  | cons c a ih =>
      rw [List.mem_cons, not_or] at h
      rw [List.cons_append, lines, if_neg (Ne.symm h.1), ih h.2]
      rfl

/-- A text without line feeds begins the first of the lines behind it. -/
theorem lines_append (hne : a ≠ []) (h : '\n' ∉ a) (b : Text) :
  lines (a ++ b) =
    match lines b with
    | [] => [a]
    | l :: ls => (a ++ l) :: ls
  := by
  induction a with
  | nil => apply absurd rfl hne
  | cons c a ih =>
      rw [List.mem_cons, not_or] at h
      rw [List.cons_append, lines, if_neg (Ne.symm h.1)]
      by_cases ha : a = []
      · rw [ha]
        rfl
      · rw [ih ha h.2]
        cases lines b with
        | nil => rfl
        | cons l ls => rfl

theorem eq_nil_of_lines_eq_nil (h : lines s = []) :
  s = []
  := by
  rw [← flatten_lines s, h, List.flatten_nil]

theorem ne_nil_of_lines_eq_cons {l : Text} {ls : List Text} (h : lines s = l :: ls) :
  s ≠ []
  := by
  rintro rfl
  cases h

/-- The first line of a text, with the lines behind it. -/
theorem exists_lines_eq_cons (hne : s ≠ []) :
  ∃ l rest, s = l ++ rest ∧ l ≠ [] ∧ lines s = l :: lines rest
    ∧ (rest = [] ∧ '\n' ∉ l ∨ ∃ a, l = a ++ ['\n'] ∧ '\n' ∉ a)
  := by
  by_cases hfeed : '\n' ∈ s
  · obtain ⟨a, rest, rfl, ha⟩ := List.eq_append_cons_of_mem hfeed
    use a ++ ['\n'], rest, List.append_cons a '\n' rest, by simp, lines_append_lineFeed ha rest
    exact .inr ⟨a, rfl, ha⟩
  · have hlines := lines_append hne hfeed []
    rw [List.append_nil] at hlines
    use s, [], (List.append_nil s).symm, hne, hlines
    exact .inl ⟨rfl, hfeed⟩

/-- Behind the first of the lines of a text stands the text that has the other ones. -/
theorem exists_of_lines_eq_cons {l : Text} {ls : List Text} (h : lines s = l :: ls) :
  ∃ rest, s = l ++ rest ∧ l ≠ [] ∧ lines rest = ls
    ∧ (rest = [] ∧ '\n' ∉ l ∨ ∃ a, l = a ++ ['\n'] ∧ '\n' ∉ a)
  := by
  obtain ⟨x, rest, hs, hx, hlines, hfeed⟩ := exists_lines_eq_cons (ne_nil_of_lines_eq_cons h)
  obtain ⟨rfl, rfl⟩ := List.cons.inj (hlines.symm.trans h)
  use rest, hs, hx, rfl, hfeed

/-- What a run of lines at the back of a text leaves of the text has the other lines. -/
theorem exists_of_lines_eq_append (as : List Text) {bs : List Text} (h : lines s = as ++ bs) :
  ∃ rest, s = as.flatten ++ rest ∧ lines rest = bs
  := by
  induction as generalizing s with
  | nil => use s, rfl, h
  | cons a as ih =>
      obtain ⟨t, rfl, -, ht, -⟩ := exists_of_lines_eq_cons h
      obtain ⟨rest, rfl, hrest⟩ := ih ht
      use rest, by simp, hrest

/-- A line feed stands only at the end of a line. -/
theorem exists_of_mem_lines {l : Text} (h : l ∈ lines s) :
  ∃ a, '\n' ∉ a ∧ (l = a ∨ l = a ++ ['\n'])
  := by
  induction hlines : lines s generalizing s with
  | nil =>
      rw [hlines] at h
      cases h
  | cons x xs ih =>
      obtain ⟨t, rfl, -, rfl, hfeed⟩ := exists_of_lines_eq_cons hlines
      rw [hlines] at h
      rcases List.mem_cons.mp h with rfl | h
      · rcases hfeed with ⟨-, hfeed⟩ | ⟨a, rfl, ha⟩
        · use l, hfeed, .inl rfl
        · use a, ha, .inr rfl
      · apply ih h rfl

/-- A run of the lines of a text at its front, put together, has these lines. -/
theorem lines_flatten {as bs : List Text} (h : lines s = as ++ bs) :
  lines as.flatten = as
  := by
  induction as generalizing s with
  | nil => rfl
  | cons a as ih =>
      obtain ⟨t, rfl, -, ht, hfeed⟩ := exists_of_lines_eq_cons h
      rcases hfeed with ⟨rfl, hfeed⟩ | ⟨x, rfl, hx⟩
      · -- the line without a line feed is the last one
        obtain ⟨rfl, rfl⟩ := List.append_eq_nil_iff.mp ht.symm
        rw [List.append_nil] at h
        rw [List.flatten_singleton]
        exact h
      · rw [List.flatten_cons, List.append_assoc, List.singleton_append, lines_append_lineFeed hx,
          ih ht]

/-- What trimming leaves of a line has no line feed. -/
theorem not_mem_trim_of_mem_lines {l : Text} (h : l ∈ lines s) :
  '\n' ∉ trim l
  := by
  obtain ⟨a, ha, hl⟩ := exists_of_mem_lines h
  have htrim : trim l = trim a := by
    rcases hl with rfl | rfl
    · rfl
    · apply trim_append_blank (by decide)
  rw [htrim]
  intro hmem
  apply ha (mem_of_mem_trim hmem)

/-- The first line of a text begins as the text does. -/
theorem head?_of_lines_eq_cons {x : Text} {xs : List Text} (h : lines s = x :: xs) :
  x.head? = s.head?
  := by
  have hne : x ≠ [] := ne_nil_of_mem_lines (s := s) (h ▸ List.mem_cons_self)
  rw [← flatten_lines s, h, List.flatten_cons, List.head?_append_of_ne_nil _ hne]

/-- The lines of a blank text are blank. -/
theorem isBlankText_of_mem_lines {l : Text} (h : isBlankText s = true) (hl : l ∈ lines s) :
  isBlankText l = true
  := by
  rw [← flatten_lines s] at h
  apply isBlankText_flatten_iff.mp h l hl

/-- Blank text behind a line ends the line and leaves blank lines. -/
theorem exists_lines_append_blank (hne : a ≠ []) (ha : '\n' ∉ a)
    (hafter : isBlankText after = true) :
  ∃ w bs, lines (a ++ after) = (a ++ w) :: bs ∧ isBlankText w = true
    ∧ ∀ b ∈ bs, isBlankText b = true
  := by
  have hblank : ∀ b ∈ lines after, isBlankText b = true := fun b =>
    isBlankText_of_mem_lines hafter
  rw [lines_append hne ha]
  cases hlines : lines after with
  | nil =>
      use [], []
      simp [isBlankText]
  | cons w bs =>
      rw [hlines] at hblank
      obtain ⟨hw, hbs⟩ := List.forall_mem_cons.mp hblank
      use w, bs

end Text

end Diagnostics
