import Diagnostics.Explanation.FrontMatter
import Diagnostics.Proofs.Message.Concat
import Mathlib.Data.List.TakeWhile

/-!
# The parts of a document

A document with front matter is its opening fence, the front matter, the line that closes it, a gap
of white space, and the body.  Splitting finds these parts whenever there are any, and nothing of
the document is lost in them.  A document that is put together from such parts is split into them.
-/

namespace Diagnostics

namespace Text

variable {s : Text} {as bs : List Text}

/-- A run of the lines of a text, put together, has these lines. -/
theorem lines_flatten_of_infix (as cs : List Text) (h : lines s = as ++ (bs ++ cs)) :
  lines bs.flatten = bs
  := by
  obtain ⟨rest, -, hrest⟩ := exists_of_lines_eq_append as h
  apply lines_flatten hrest

/-- All lines but the last one end with a line feed. -/
theorem getLast?_flatten_of_lines_eq_append (h : lines s = as ++ bs) (has : as ≠ [])
    (hbs : bs ≠ []) :
  as.flatten.getLast? = some '\n'
  := by
  induction as generalizing s with
  | nil => apply absurd rfl has
  | cons a as ih =>
      obtain ⟨t, rfl, -, ht, hfeed⟩ := exists_of_lines_eq_cons h
      rw [List.flatten_cons]
      by_cases hnil : as = []
      · subst hnil
        rcases hfeed with ⟨rfl, -⟩ | ⟨x, rfl, -⟩
        · apply absurd ht.symm hbs
        · simp
      · rw [List.getLast?_append, ih ht hnil]
        rfl

end Text

namespace FrontMatter

open Text (isBlankText IsTerminated IsTrimmed)

/-- The mark of a fence. -/
def dashes : Text := ['-', '-', '-']

/-- The other mark that closes front matter. -/
def dots : Text := ['.', '.', '.']

/-- A line that is a mark with nothing but white space behind it. -/
def IsMarked (mark line : Text) : Prop := ∃ after, line = mark ++ after ∧ isBlankText after = true

/-- A line that closes front matter. -/
def IsClosing (line : Text) : Prop := IsMarked dashes line ∨ IsMarked dots line

/-- A text that is empty or begins with a line that is not blank. -/
def BeginsBody (s : Text) : Prop := ∀ line ∈ (Text.lines s).head?, isBlankText line = false

/-- The parts of a document around its front matter, each of them made of whole lines. -/
structure Divides (document first matter closing gap body : Text) : Prop where
  lines_eq : Text.lines document
    = first :: (Text.lines matter ++ closing :: (Text.lines gap ++ Text.lines body))
  isMarked_first : IsMarked dashes first
  not_isClosing : ∀ line ∈ Text.lines matter, ¬ IsClosing line
  isClosing : IsClosing closing
  isBlankText_gap : isBlankText gap = true
  beginsBody : BeginsBody body

variable {document first matter closing gap body line mark : Text} {ls : List Text}

/-! ### Marked lines -/

/-- A line is a mark with white space behind it when trimming at the back leaves the mark. -/
theorem trimEnd_eq_iff (hmark : IsTrimmed mark) :
  Text.trimEnd line = mark ↔ IsMarked mark line
  := by
  constructor
  · rintro rfl
    apply Text.exists_eq_trimEnd_append
  · rintro ⟨after, rfl, hafter⟩
    apply Text.trimEnd_append hmark hafter

theorem isTrimmed_dashes :
  IsTrimmed dashes
  := ⟨by rintro c ⟨⟩; rfl, by rintro c ⟨⟩; rfl⟩

theorem isTrimmed_dots :
  IsTrimmed dots
  := ⟨by rintro c ⟨⟩; rfl, by rintro c ⟨⟩; rfl⟩

theorem opens_iff :
  opens line = true ↔ IsMarked dashes line
  := by
  rw [opens, decide_eq_true_eq]
  apply trimEnd_eq_iff isTrimmed_dashes

theorem closes_iff :
  closes line = true ↔ IsClosing line
  := by
  rw [closes, Bool.or_eq_true, opens_iff, decide_eq_true_eq]
  apply or_congr_right (trimEnd_eq_iff isTrimmed_dots)

instance : DecidablePred IsClosing := fun _ => decidable_of_iff _ closes_iff

/-! ### The parts put together -/

/-- Nothing of a document is lost in its parts. -/
theorem Divides.eq_append (h : Divides document first matter closing gap body) :
  document = first ++ matter ++ closing ++ gap ++ body
  := by
  rw [← Text.flatten_lines document, h.lines_eq]
  simp

/-- The body begins where a line begins. -/
theorem Divides.getLast?_gap (h : Divides document first matter closing gap body)
    (hbody : body ≠ []) :
  (closing ++ gap).getLast? = some '\n'
  := by
  have hlines : Text.lines document
      = (first :: (Text.lines matter ++ closing :: Text.lines gap)) ++ Text.lines body := by
    rw [h.lines_eq]
    simp
  have hlast := Text.getLast?_flatten_of_lines_eq_append hlines (List.cons_ne_nil _ _)
    (mt Text.eq_nil_of_lines_eq_nil hbody)
  have hne : closing ++ gap ≠ [] := by
    obtain ⟨after, rfl, -⟩ | ⟨after, rfl, -⟩ := h.isClosing
    · exact List.cons_ne_nil _ _
    · exact List.cons_ne_nil _ _
  simp only [List.flatten_cons, List.flatten_append, Text.flatten_lines] at hlast
  rwa [← List.append_assoc, List.getLast?_append_of_ne_nil _ hne] at hlast

/-- Between the front matter and the body only the gap is skipped. -/
theorem skipBlankLines_append (hgap : isBlankText gap = true) (hbody : BeginsBody body) :
  skipBlankLines (Text.lines gap ++ Text.lines body) = body
  := by
  rw [skipBlankLines, List.dropWhile_append_of_pos fun l => Text.isBlankText_of_mem_lines hgap]
  cases hlines : Text.lines body with
  | nil => rw [Text.eq_nil_of_lines_eq_nil hlines]; rfl
  | cons l ls =>
      have hl : isBlankText l = false := hbody l (by rw [hlines]; rfl)
      rw [List.dropWhile_cons_of_neg (by simp [hl]), ← hlines]
      simp

/-- A document is split into its parts. -/
theorem split?_of_divides (h : Divides (Text.dropMark document) first matter closing gap body) :
  split? document = some (matter, body)
  := by
  have hmatter : ∀ line ∈ Text.lines matter, (!closes line) = true := by
    intro line hline
    rw [Bool.not_eq_true', Bool.eq_false_iff, ne_eq, closes_iff]
    apply h.not_isClosing line hline
  have hclosing : ¬ (!closes closing) = true := by
    rw [closes_iff.mpr h.isClosing]
    exact Bool.false_ne_true
  rw [split?, h.lines_eq]
  dsimp only
  rw [if_pos (opens_iff.mpr h.isMarked_first), List.takeWhile_append_of_pos hmatter,
    List.takeWhile_cons_of_neg (by exact hclosing), List.append_nil, List.drop_left]
  dsimp only
  rw [Text.flatten_lines, skipBlankLines_append h.isBlankText_gap h.beginsBody]

/-! ### Finding the parts -/

/-- A document that begins with a fence and has a line later on that closes front matter has the
parts of a document. -/
theorem exists_divides (hlines : Text.lines document = first :: ls)
    (hfirst : IsMarked dashes first) (hclosing : ∃ line ∈ ls, IsClosing line) :
  ∃ matter closing gap body, Divides document first matter closing gap body
  := by
  obtain ⟨line, hline, hcloses⟩ := hclosing
  have hsome : (ls.find? closes).isSome = true :=
    List.find?_isSome.mpr ⟨line, hline, closes_iff.mpr hcloses⟩
  obtain ⟨closing, hfind⟩ := Option.isSome_iff_exists.mp hsome
  obtain ⟨hclosing, passed, rest, rfl, hpassed⟩ := List.find?_eq_some_iff_append.mp hfind
  have hrest : rest = rest.takeWhile isBlankText ++ rest.dropWhile isBlankText :=
    List.takeWhile_append_dropWhile.symm
  have hgap : Text.lines (rest.takeWhile isBlankText).flatten = rest.takeWhile isBlankText := by
    apply Text.lines_flatten_of_infix (first :: (passed ++ [closing]))
      (rest.dropWhile isBlankText)
    rw [hlines, ← hrest]
    simp
  have hbody : Text.lines (rest.dropWhile isBlankText).flatten = rest.dropWhile isBlankText := by
    apply Text.lines_flatten_of_infix
      (first :: (passed ++ closing :: rest.takeWhile isBlankText)) []
    rw [hlines, List.append_nil, List.cons_append, List.append_assoc, List.cons_append, ← hrest]
  have hmatter : Text.lines passed.flatten = passed :=
    Text.lines_flatten_of_infix [first] _ hlines
  use passed.flatten, closing, (rest.takeWhile isBlankText).flatten,
    (rest.dropWhile isBlankText).flatten
  constructor
  · rw [hmatter, hgap, hbody, ← hrest]
    exact hlines
  · exact hfirst
  · rw [hmatter]
    intro l hl hcloses
    have := hpassed l hl
    rw [closes_iff.mpr hcloses] at this
    cases this
  · exact closes_iff.mp hclosing
  · apply Text.isBlankText_flatten_iff.mpr
    intro l hl
    exact List.all_eq_true.mp List.all_takeWhile l hl
  · rw [BeginsBody, hbody]
    intro l hl
    have := List.head?_dropWhile_not isBlankText rest
    rw [hl] at this
    simpa using this

/-- A document without front matter is not split. -/
theorem split?_eq_none (h : ∀ first ls, Text.lines (Text.dropMark document) = first :: ls →
    IsMarked dashes first → ∀ line ∈ ls, ¬ IsClosing line) :
  split? document = none
  := by
  rw [split?]
  split
  · rfl
  · rename_i first ls hlines
    split
    · rename_i hfirst
      have hpassed : ∀ line ∈ ls, (!closes line) = true := by
        intro line hline
        rw [Bool.not_eq_true', Bool.eq_false_iff, ne_eq, closes_iff]
        apply h first ls hlines (opens_iff.mp hfirst) line hline
      have htake : ls.takeWhile (fun line => !closes line) = ls :=
        List.takeWhile_eq_self_iff.mpr hpassed
      dsimp only
      rw [htake, List.drop_length]
    · rfl

/-- A document is split into a front matter and a body exactly when these are parts of it. -/
theorem split?_eq_some_iff :
  split? document = some (matter, body)
    ↔ ∃ first closing gap, Divides (Text.dropMark document) first matter closing gap body
  := by
  constructor
  · intro h
    by_cases hparts : ∃ first ls, Text.lines (Text.dropMark document) = first :: ls
        ∧ IsMarked dashes first ∧ ∃ line ∈ ls, IsClosing line
    · obtain ⟨first, ls, hlines, hfirst, hclosing⟩ := hparts
      obtain ⟨_, closing, gap, _, hdivides⟩ := exists_divides hlines hfirst hclosing
      obtain ⟨rfl, rfl⟩ := Prod.mk.inj (Option.some.inj ((split?_of_divides hdivides).symm.trans h))
      use first, closing, gap
    · rw [split?_eq_none] at h
      · cases h
      · intro first ls hlines hfirst line hline hcloses
        apply hparts ⟨first, ls, hlines, hfirst, line, hline, hcloses⟩
  · rintro ⟨first, closing, gap, hdivides⟩
    apply split?_of_divides hdivides

/-- Front matter between two fences, white space and a body divide the document that is made of
them. -/
theorem divides_append (hmatter : IsTerminated matter) (hgap : IsTerminated gap)
    (hinside : ∀ line ∈ Text.lines matter, ¬ IsClosing line) (hblank : isBlankText gap = true)
    (hbody : BeginsBody body) :
  Divides (dashes ++ ['\n'] ++ matter ++ (dashes ++ ['\n']) ++ gap ++ body)
    (dashes ++ ['\n']) matter (dashes ++ ['\n']) gap body
  := by
  have hfence : IsMarked dashes (dashes ++ ['\n']) := ⟨['\n'], rfl, by decide⟩
  have hlines (s : Text) :
      Text.lines (dashes ++ ['\n'] ++ s) = (dashes ++ ['\n']) :: Text.lines s := by
    rw [List.append_assoc]
    apply Text.lines_append_lineFeed (by decide)
  constructor
  · rw [List.append_assoc, List.append_assoc, List.append_assoc, hlines,
      Text.lines_append_of_isTerminated hmatter, hlines, Text.lines_append_of_isTerminated hgap]
  · exact hfence
  · exact hinside
  · exact .inl hfence
  · exact hblank
  · exact hbody

end FrontMatter

end Diagnostics
