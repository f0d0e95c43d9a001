import Diagnostics.Proofs.Message.Folded

/-!
# Messages of several lines

A head line with indented lines below it is a single message, and its lines stand where they were
put.  Blank text at the end makes no difference.
-/

namespace Diagnostics

open Text (IsLine IsIndent below isBlankText)

namespace Text

variable {a s after : Text} {ls : List (Text × Text)}

/-- A head line with lines below it is trimmed. -/
theorem isTrimmed_append_below (hs : IsLine s) (hls : ∀ p ∈ ls, IsIndent p.1 ∧ IsLine p.2) :
  IsTrimmed (s ++ below ls)
  := by
  induction ls generalizing s with
  | nil =>
      rw [below, List.append_nil]
      exact hs.isTrimmed
  | cons p ls ih =>
      obtain ⟨indent, line⟩ := p
      obtain ⟨⟨-, hline⟩, hls⟩ := List.forall_mem_cons.mp hls
      have hbelow : line ++ below ls ≠ [] := by
        simp [hline.ne_nil]
      constructor
      · rw [List.head?_append_of_ne_nil _ hs.ne_nil]
        exact hs.isTrimmed.head
      · rw [below, ← List.append_assoc, List.getLast?_append_of_ne_nil _ hbelow]
        exact (ih hline hls).last

/-- A head line with indented lines below it and white space behind them is folded. -/
theorem isFolded_below (hs : IsLine s) (hls : ∀ p ∈ ls, IsIndent p.1 ∧ IsLine p.2)
    (hafter : isBlankText after = true) :
  IsFolded (s ++ below ls ++ after)
  := by
  induction ls generalizing s with
  | nil =>
      rw [below, List.append_nil]
      apply isFolded_append_of_not_mem hs.not_mem_lineFeed (isFolded_of_isBlankText hafter)
  | cons p ls ih =>
      obtain ⟨indent, line⟩ := p
      obtain ⟨⟨hindent, hnext⟩, hls⟩ := List.forall_mem_cons.mp hls
      have htext : s ++ below ((indent, line) :: ls) ++ after
          = s ++ (['\n'] ++ (indent ++ (line ++ below ls ++ after))) := by
        simp [below]
      have hnext := isFolded_append_of_not_mem hindent.not_mem_lineFeed (ih hnext hls)
      rw [htext]
      apply isFolded_append_of_not_mem hs.not_mem_lineFeed
      apply isFolded_append (isFolded_of_isBlankText rfl) hnext
      intro _ _ d hd _
      rw [List.head?_append_of_ne_nil _ hindent.ne_nil] at hd
      apply isBlank_of_mem_head? hindent.isBlankText d hd

end Text

namespace Message

variable {s indent after : Text} {ls : List (Text × Text)}

/-- The lines below a head line that ends at the offset `n`. -/
def placeBelow : Nat → List (Text × Text) → List Piece
  | _, [] => []
  | n, (indent, line) :: ls =>
    ⟨n + 1 + indent.utf8Length, line⟩
      :: placeBelow (n + 1 + indent.utf8Length + line.utf8Length) ls

/-- The lines of an indented line with lines below it are listed where they were put. -/
theorem listed_below (n : Nat) (hindent : isBlankText indent = true)
    (hfeed : '\n' ∉ indent) (hs : IsLine s) (hls : ∀ p ∈ ls, IsIndent p.1 ∧ IsLine p.2)
    (hafter : isBlankText after = true) :
  listed n (Text.lines (indent ++ s ++ below ls ++ after))
    = ⟨n + indent.utf8Length, s⟩ :: placeBelow (n + indent.utf8Length + s.utf8Length) ls
  := by
  induction ls generalizing n indent s with
  | nil =>
      obtain ⟨w, bs, hlines, hw, hbs⟩ := Text.exists_lines_append_blank (a := indent ++ s)
        (by simp [hs.ne_nil]) (by simp [hfeed, hs.not_mem_lineFeed]) hafter
      rw [below, List.append_nil, hlines,
        listed_cons_of_isTrimmed n hindent hs.isTrimmed hs.ne_nil hw, listed_eq_nil _ hbs,
        placeBelow]
  | cons p ls ih =>
      obtain ⟨indent', line⟩ := p
      obtain ⟨⟨hindent', hline⟩, hls⟩ := List.forall_mem_cons.mp hls
      have htext : indent ++ s ++ below ((indent', line) :: ls) ++ after
          = (indent ++ s) ++ '\n' :: (indent' ++ line ++ below ls ++ after) := by
        simp [below]
      have hoffset : n + Text.utf8Length (indent ++ s ++ ['\n'])
          = n + indent.utf8Length + s.utf8Length + 1 := by
        have hlineFeed : '\n'.utf8Size = 1 := by decide
        simp [hlineFeed, Nat.add_assoc]
      rw [htext, Text.lines_append_lineFeed (by simp [hfeed, hs.not_mem_lineFeed]),
        listed_cons_of_isTrimmed n hindent hs.isTrimmed hs.ne_nil (by decide),
        ih _ hindent'.isBlankText hindent'.not_mem_lineFeed hline hls, hoffset, placeBelow]

/-- A head line with lines below it is one message, with its lines where they were put. -/
theorem ofText_below (hs : IsLine s) (hls : ∀ p ∈ ls, IsIndent p.1 ∧ IsLine p.2)
    (hafter : isBlankText after = true) :
  ofText (s ++ below ls ++ after)
    = [⟨⟨0, s ++ below ls ++ after⟩, ⟨0, s⟩ :: placeBelow s.utf8Length ls⟩]
  := by
  have hlisted := listed_below 0 rfl List.not_mem_nil hs hls hafter
  rw [List.nil_append] at hlisted
  rw [ofText_of_isFolded (Text.isFolded_below hs hls hafter) (by simp [hs.ne_nil]), hlisted]
  simp [Piece.whole, Text.utf8Length]

end Message

end Diagnostics
