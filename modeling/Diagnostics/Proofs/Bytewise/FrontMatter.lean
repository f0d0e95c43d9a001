import Diagnostics.Explanation.FrontMatter
import Diagnostics.Proofs.Bytewise.Basic
import Diagnostics.Proofs.Text.Lines

/-!
# Front matter by bytes

The front matter of a document is found by the offset of its closing line, and the blank lines
behind it are cut away one by one.  Both have a value for every document, and give the parts that
`FrontMatter.split?` does.
-/

namespace Diagnostics

namespace Bytewise

/-- A text less the lines at its front that are blank and end with a line feed. -/
def dropBlankLines? (rest : Text) : Option Text :=
  match find? ['\n'] rest with
  | none => some rest
  | some stop => do
    let line ← upTo? rest stop
    if line.trim.isEmpty then
      (from? rest (stop + 1)).pbind fun next _hnext => dropBlankLines? next
    else
      some rest
termination_by rest.length
decreasing_by exact length_lt_of_from? (Nat.succ_ne_zero _) _hnext

/-- A text from its first line on that is not blank. -/
def skipBlankLines? (s : Text) : Option Text :=
  (dropBlankLines? s).map fun rest => if rest.trim.isEmpty then [] else rest

/-- The parts of a document around its first closing line, where the front matter begins at
`start` and the lines that are left begin at `offset`. -/
def closeFrom? (document : Text) (start : Nat) : Nat → List Text → Option (Option (Text × Text))
  | _, [] => some none
  | offset, line :: lines =>
    if FrontMatter.closes line then do
      let behind ← from? document (offset + line.utf8Length)
      let body ← skipBlankLines? behind
      let matter ← document.slice? ⟨start, offset⟩
      some (some (matter, body))
    else
      closeFrom? document start (offset + line.utf8Length) lines

/-- The front matter and the body of a document. -/
def splitFrontMatter? (document : Text) : Option (Option (Text × Text)) :=
  let document := Text.dropMark document
  match Text.lines document with
  | [] => some none
  | first :: lines =>
    if FrontMatter.opens first then
      closeFrom? document first.utf8Length first.utf8Length lines
    else
      some none

variable {s first passed rest : Text}

/-! ### Blank lines -/

theorem dropBlankLines?_of_not_mem (h : '\n' ∉ s) :
  dropBlankLines? s = some s
  := by
  rw [dropBlankLines?, find?_eq_none h]

theorem dropBlankLines?_lineFeed (h : '\n' ∉ first) (rest : Text) :
  dropBlankLines? (first ++ '\n' :: rest)
    = if Text.isBlankText first then dropBlankLines? rest else some (first ++ '\n' :: rest)
  := by
  rw [dropBlankLines?, find?_singleton h]
  dsimp only
  rw [upTo?_append, Option.bind_eq_bind, Option.bind_some, Text.isEmpty_trim,
    Option.pbind_eq_bind, from?_append_cons _ _ rfl]
  rfl

theorem skipBlankLines_cons (l : Text) (ls : List Text) :
  FrontMatter.skipBlankLines (l :: ls)
    = if Text.isBlankText l then FrontMatter.skipBlankLines ls else (l :: ls).flatten
  := by
  rw [FrontMatter.skipBlankLines, List.dropWhile_cons]
  split
  · rfl
  · rfl

/-- Lines are skipped by bytes up to the first one that is not blank. -/
theorem skipBlankLines?_eq (s : Text) :
  skipBlankLines? s = some (FrontMatter.skipBlankLines s.lines)
  := by
  have hblank : Text.isBlankText ['\n'] = true := rfl
  induction hlines : s.lines generalizing s with
  | nil =>
      obtain rfl := Text.eq_nil_of_lines_eq_nil hlines
      rw [skipBlankLines?, dropBlankLines?_of_not_mem List.not_mem_nil]
      rfl
  | cons l ls ih =>
      obtain ⟨t, rfl, -, hls, hfeed⟩ := Text.exists_of_lines_eq_cons hlines
      have hflatten : (l :: ls).flatten = l ++ t := by simp [← hls]
      rw [skipBlankLines_cons, hflatten]
      rcases hfeed with ⟨rfl, hfeed⟩ | ⟨a, rfl, ha⟩
      · -- the last line is not dropped, and only found to be blank at the end
        obtain rfl : [] = ls := hls
        rw [List.append_nil, skipBlankLines?, dropBlankLines?_of_not_mem hfeed, Option.map_some,
          Text.isEmpty_trim]
        rfl
      · rw [List.append_assoc, List.singleton_append, skipBlankLines?,
          dropBlankLines?_lineFeed ha, Text.isBlankText_append, hblank, Bool.and_true]
        cases ha : Text.isBlankText a with
        | true => exact ih t hls
        | false =>
            simp [Text.isEmpty_trim, ha]

/-! ### The closing line -/

/-- Behind the lines that have been passed, the document is split at its next closing line. -/
theorem closeFrom?_eq (first passed rest : Text) :
  closeFrom? (first ++ (passed ++ rest)) first.utf8Length (first ++ passed).utf8Length rest.lines
    = some (
        let matter := rest.lines.takeWhile fun line => !FrontMatter.closes line
        match rest.lines.drop matter.length with
        | [] => none
        | _ :: behind => some (passed ++ matter.flatten, FrontMatter.skipBlankLines behind))
  := by
  induction hlines : rest.lines generalizing passed rest with
  | nil => rfl
  | cons l ls ih =>
      obtain ⟨t, rfl, -, hls, -⟩ := Text.exists_of_lines_eq_cons hlines
      cases hcloses : FrontMatter.closes l with
      | true =>
          have hmatter : Text.slice? (first ++ (passed ++ (l ++ t)))
              ⟨first.utf8Length, (first ++ passed).utf8Length⟩ = some passed :=
            Text.slice?_eq_some_iff.mpr ⟨first, l ++ t, (List.append_assoc _ _ _).symm, rfl,
              Text.utf8Length_append _ _⟩
          have hbehind := from?_append (first ++ passed ++ l) t
          rw [List.append_assoc, List.append_assoc] at hbehind
          rw [closeFrom?, if_pos hcloses, ← Text.utf8Length_append, hbehind, Option.bind_eq_bind,
            Option.bind_some, skipBlankLines?_eq, hls, Option.bind_some, hmatter,
            List.takeWhile_cons_of_neg (by simp [hcloses])]
          simp
      | false =>
          have hrest := ih (passed ++ l) t hls
          rw [List.append_assoc, ← List.append_assoc first passed l] at hrest
          rw [closeFrom?, if_neg (by simp [hcloses]), ← Text.utf8Length_append, hrest,
            List.takeWhile_cons_of_pos (by simp [hcloses])]
          simp

/-- Every document is split by bytes as it is by lines. -/
theorem splitFrontMatter?_eq (document : Text) :
  splitFrontMatter? document = some (FrontMatter.split? document)
  := by
  rw [splitFrontMatter?, FrontMatter.split?]
  dsimp only
  cases hlines : Text.lines (Text.dropMark document) with
  | nil => rfl
  | cons first lines =>
      obtain ⟨t, hdocument, -, rfl, -⟩ := Text.exists_of_lines_eq_cons hlines
      have hclose := closeFrom?_eq first [] t
      rw [List.append_nil, List.nil_append, ← hdocument] at hclose
      dsimp only
      rw [hclose]
      split
      · rfl
      · rfl

end Bytewise

end Diagnostics
