import Diagnostics.Text.Blank

/-!
# Lines

The lines of a text, each with the line feed that ends it.  The lines put together are the
text, and none of them is empty.
-/

namespace Diagnostics

namespace Text

/-- The lines of a text, each with the line feed that ends it. -/
def lines : Text → List Text
  | [] => []
  | c :: s =>
    if c = '\n' then
      [c] :: lines s
    else
      match lines s with
      | [] => [[c]]
      | l :: ls => (c :: l) :: ls

/-- Nothing of a text is lost in its lines. -/
@[simp]
theorem flatten_lines (s : Text) :
  (lines s).flatten = s
  := by
  induction s with
  | nil => rfl
  | cons c s ih =>
    rw [lines]
    split
    · simp [ih]
    · cases h : lines s with
      | nil => simp_all
      | cons l ls => simp_all

theorem ne_nil_of_mem_lines {s l : Text} (h : l ∈ lines s) :
  l ≠ []
  := by
  induction s generalizing l with
  | nil => simp [lines] at h
  | cons c s ih =>
    rw [lines] at h
    split at h
    · rcases List.mem_cons.1 h with rfl | h
      · simp
      · exact ih h
    · split at h
      · simp_all
      · rename_i hs
        rcases List.mem_cons.1 h with rfl | h
        · simp
        · exact ih (hs ▸ List.mem_cons_of_mem _ h)

end Text

end Diagnostics
