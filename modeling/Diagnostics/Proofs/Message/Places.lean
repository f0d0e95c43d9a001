import Diagnostics.Message
import Diagnostics.Proofs.Text.Cut
import Diagnostics.Proofs.Text.Trim

/-!
# Where messages stand

The blocks of the lines of a blob put together are its lines, and a block is a run of them.  A
message therefore stands in the blob where its piece says, and so do its lines.
-/

namespace Diagnostics

namespace Message

variable {ps qs : List Piece} {ls as bs cs : List Text} {blob : Text} {message : Message}

/-! ### Blocks -/

@[simp]
theorem map_text_place (n : Nat) (ls : List Text) :
  (place n ls).map (·.text) = ls
  := by
  induction ls generalizing n with
  | nil => rfl
  | cons l ls ih => simp [place, ih]

@[simp]
theorem length_place (n : Nat) (ls : List Text) :
  (place n ls).length = ls.length
  := by
  rw [← List.length_map (·.text), map_text_place]

theorem place_append (n : Nat) (as bs : List Text) :
  place n (as ++ bs) = place n as ++ place (n + Text.utf8Length as.flatten) bs
  := by
  induction as generalizing n with
  | nil => simp [place, Text.utf8Length]
  | cons a as ih =>
      simp [place, ih, Nat.add_assoc]

/-- Two runs of placed lines are two runs of lines, placed one after the other. -/
theorem exists_eq_append_of_place {n : Nat} (h : place n ls = ps ++ qs) :
  ∃ as bs, ls = as ++ bs ∧ ps = place n as
    ∧ qs = place (n + Text.utf8Length as.flatten) bs
  := by
  have hls : ls = ps.map (·.text) ++ qs.map (·.text) := by
    rw [← map_text_place n ls, h, List.map_append]
  use ps.map (·.text), qs.map (·.text), hls
  rw [hls, place_append] at h
  apply List.append_inj h.symm
  simp

/-- Nothing of the lines is lost in the blocks. -/
theorem flatten_blocks (ps : List Piece) :
  (blocks ps).flatten = ps
  := by
  induction ps with
  | nil => rfl
  | cons p ps ih =>
      rw [blocks]
      split
      · simp_all
      · rename_i b bs hblocks
        rw [hblocks] at ih
        split
        · simp [← ih]
        · simp [← ih]

/-- A message is made of a run of the lines of its blob. -/
theorem exists_run_of_mem_ofText (h : message ∈ ofText blob) :
  ∃ as bs cs, blob.lines = as ++ bs ++ cs
    ∧ message = ofBlock (place (Text.utf8Length as.flatten) bs)
  := by
  obtain ⟨b, hb, rfl⟩ := List.mem_map.mp h
  obtain ⟨xs, ys, hblocks⟩ := List.append_of_mem hb
  have hplace := flatten_blocks (place 0 blob.lines)
  rw [hblocks, List.flatten_append, List.flatten_cons] at hplace
  obtain ⟨as, rest, hlines, -, hrest⟩ := exists_eq_append_of_place hplace.symm
  obtain ⟨bs, cs, hrest', hb, -⟩ := exists_eq_append_of_place hrest.symm
  use as, bs, cs
  rw [hlines, hrest', hb, Nat.zero_add]
  exact ⟨(List.append_assoc _ _ _).symm, rfl⟩

/-! ### Listed lines -/

/-- What a message lists of consecutive lines, the first of which stands at the offset `n`. -/
def listed (n : Nat) (ls : List Text) : List Piece :=
  ((place n ls).map (·.trim)).filter fun l => !l.text.isEmpty

theorem lines_ofBlock_place (n : Nat) (ls : List Text) :
  (ofBlock (place n ls)).lines = listed n ls
  := rfl

/-- A line is listed unless it is blank. -/
theorem listed_cons (n : Nat) (l : Text) (ls : List Text) :
  listed n (l :: ls) =
    if Text.isBlankText l then
      listed (n + l.utf8Length) ls
    else
      (Piece.mk n l).trim :: listed (n + l.utf8Length) ls
  := by
  rw [listed, place, List.map_cons, List.filter_cons, Piece.trim, Text.isEmpty_trim, listed]
  cases Text.isBlankText l
  · rfl
  · rfl

/-- A line with white space around it is listed without it. -/
theorem listed_cons_of_isTrimmed (n : Nat) {a l b : Text} (ha : Text.isBlankText a = true)
    (hl : l.IsTrimmed) (hne : l ≠ []) (hb : Text.isBlankText b = true) (ls : List Text) :
  listed n ((a ++ l ++ b) :: ls)
    = ⟨n + a.utf8Length, l⟩ :: listed (n + (a ++ l ++ b).utf8Length) ls
  := by
  rw [listed, place, List.map_cons, List.filter_cons, Piece.trim_mk ha hl hne hb,
    if_pos (by simpa using hne)]
  rfl

/-- Blank lines are not listed. -/
theorem listed_eq_nil (n : Nat) (h : ∀ l ∈ ls, Text.isBlankText l = true) :
  listed n ls = []
  := by
  induction ls generalizing n with
  | nil => rfl
  | cons l ls ih =>
      obtain ⟨hl, hls⟩ := List.forall_mem_cons.mp h
      rw [listed_cons, if_pos hl, ih _ hls]

/-! ### Pieces -/

/-- Lines placed after the text in front of them stand in the blob. -/
theorem isPieceOf_of_mem_place {p : Piece} {before after : Text}
    (h : p ∈ place (Text.utf8Length before) ls) (hblob : blob = before ++ ls.flatten ++ after) :
  p.IsPieceOf blob
  := by
  induction ls generalizing before with
  | nil => cases h
  | cons l ls ih =>
      rw [List.flatten_cons] at hblob
      rcases List.mem_cons.mp h with rfl | h
      · use before, ls.flatten ++ after
        simp [hblob]
      · rw [← Text.utf8Length_append] at h
        apply ih h
        simp [hblob]

/-- A message stands in its blob. -/
theorem isPieceOf_of_mem_ofText (h : message ∈ ofText blob) :
  message.piece.IsPieceOf blob
  := by
  obtain ⟨as, bs, cs, hlines, rfl⟩ := exists_run_of_mem_ofText h
  have hblob : blob = as.flatten ++ bs.flatten ++ cs.flatten := by
    rw [← Text.flatten_lines blob, hlines, List.flatten_append, List.flatten_append]
  simp only [ofBlock, map_text_place]
  cases bs with
  | nil => exact ⟨[], blob, rfl, rfl⟩
  | cons b bs => exact ⟨as.flatten, cs.flatten, hblob, rfl⟩

/-- The lines of a message stand in its blob. -/
theorem isPieceOf_of_mem_lines (h : message ∈ ofText blob) {line : Piece}
    (hline : line ∈ message.lines) :
  line.IsPieceOf blob
  := by
  obtain ⟨as, bs, cs, hlines, rfl⟩ := exists_run_of_mem_ofText h
  have hblob : blob = as.flatten ++ bs.flatten ++ cs.flatten := by
    rw [← Text.flatten_lines blob, hlines, List.flatten_append, List.flatten_append]
  obtain ⟨p, hp, rfl⟩ := List.mem_map.mp (List.mem_filter.mp hline).1
  apply Piece.IsPieceOf.trim
  apply isPieceOf_of_mem_place hp hblob

end Message

end Diagnostics
