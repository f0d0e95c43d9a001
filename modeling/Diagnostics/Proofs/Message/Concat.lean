import Diagnostics.Proofs.Matching.Shift
import Diagnostics.Proofs.Message.Places
import Diagnostics.Proofs.Text.Lines

/-!
# Texts put together

Where one text ends with a line and the next one begins with a head line, neither has an influence
on how the other is taken apart: the messages of the two texts put together are those of the first
and, further on by its length, those of the second.
-/

namespace Diagnostics

namespace Text

variable {a b : Text}

/-- A text whose lines all end with a line feed. -/
def IsTerminated (s : Text) : Prop := ∀ c ∈ s.getLast?, c = '\n'

/-- A text that is empty or begins with a character that is not blank. -/
def BeginsMessage (s : Text) : Prop := ∀ c ∈ s.head?, isBlank c = false

theorem IsTerminated.tail {c : Char} (h : IsTerminated (c :: a)) :
  IsTerminated a
  := by
  intro d hd
  apply h
  apply List.mem_getLast?_cons hd

/-- Complete lines put in front of a text are lines in front of its lines. -/
theorem lines_append_of_isTerminated (h : IsTerminated a) (b : Text) :
  lines (a ++ b) = lines a ++ lines b
  := by
  induction a with
  | nil => rfl
  | cons c a ih =>
      rw [List.cons_append, lines, lines, ih h.tail]
      by_cases hc : c = '\n'
      · rw [if_pos hc, if_pos hc, List.cons_append]
      · rw [if_neg hc, if_neg hc]
        cases hlines : lines a with
        | nil =>
            -- an unfinished line at the end would be the last one
            obtain rfl := eq_nil_of_lines_eq_nil hlines
            apply absurd (h c rfl) hc
        | cons l ls => rfl

end Text

namespace Message

open Text (IsTerminated BeginsMessage)

variable {ps qs b : List Piece} {bs : List (List Piece)}

/-! ### Blocks -/

/-- The first block begins with the first line. -/
theorem exists_of_blocks_cons (p : Piece) (ps : List Piece) :
  ∃ b bs, blocks (p :: ps) = (p :: b) :: bs
  := by
  rw [blocks]
  split
  · use [], []
  · rename_i b bs _
    split
    · use [], b :: bs
    · use b, bs

theorem ne_nil_of_mem_blocks (h : b ∈ blocks ps) :
  b ≠ []
  := by
  induction ps generalizing b with
  | nil => cases h
  | cons p ps ih =>
      rw [blocks] at h
      split at h
      · simp_all
      · rename_i c cs hblocks
        rw [hblocks] at ih
        split at h
        · rcases List.mem_cons.mp h with rfl | h
          · simp
          · apply ih h
        · rcases List.mem_cons.mp h with rfl | h
          · simp
          · apply ih (List.mem_cons_of_mem _ h)

/-- A line in front of a head line is a block of its own. -/
theorem blocks_cons_of_opens {p q : Piece} {c : List Piece} (hblocks : blocks ps = (q :: c) :: bs)
    (hq : opens q.text = true) :
  blocks (p :: ps) = [p] :: (q :: c) :: bs
  := by
  rw [blocks, hblocks]
  simp [hq]

/-- A line in front of a line that continues a message belongs to the same block. -/
theorem blocks_cons_of_not_opens {p q : Piece} {c : List Piece}
    (hblocks : blocks ps = (q :: c) :: bs) (hq : ¬ opens q.text = true) :
  blocks (p :: ps) = (p :: q :: c) :: bs
  := by
  rw [blocks, hblocks]
  simp [hq]

/-- A line that begins a message begins a block, whatever stands in front of it. -/
theorem blocks_append (ps : List Piece) (h : ∀ q ∈ qs.head?, opens q.text = true) :
  blocks (ps ++ qs) = blocks ps ++ blocks qs
  := by
  induction ps with
  | nil => rfl
  | cons p ps ih =>
      cases ps with
      | nil =>
          cases qs with
          | nil => rfl
          | cons q qs =>
              obtain ⟨c, cs, hblocks⟩ := exists_of_blocks_cons q qs
              rw [List.singleton_append, blocks_cons_of_opens hblocks (h q rfl), hblocks]
              rfl
      | cons q ps =>
          obtain ⟨c, cs, hblocks⟩ := exists_of_blocks_cons q ps
          have happend : blocks (q :: ps ++ qs) = (q :: c) :: (cs ++ blocks qs) := by
            rw [ih, hblocks, List.cons_append]
          by_cases hq : opens q.text = true
          · rw [List.cons_append, blocks_cons_of_opens happend hq, blocks_cons_of_opens hblocks hq]
            rfl
          · rw [List.cons_append, blocks_cons_of_not_opens happend hq,
              blocks_cons_of_not_opens hblocks hq]
            rfl

/-- Lines that continue the first one are a block with it. -/
theorem blocks_eq_singleton {p : Piece} {ps : List Piece}
    (h : ∀ q ∈ ps, opens q.text = false) :
  blocks (p :: ps) = [p :: ps]
  := by
  induction ps generalizing p with
  | nil => rfl
  | cons q ps ih =>
      obtain ⟨hq, hps⟩ := List.forall_mem_cons.mp h
      rw [blocks, ih hps]
      simp [hq]

/-- Lines up to the first one that begins a message, and the lines from that one on. -/
theorem exists_opening_split (ls : List Text) :
  ∃ as bs, ls = as ++ bs ∧ (∀ a ∈ as, opens a = false) ∧ (∀ b ∈ bs.head?, opens b = true)
    ∧ ls.takeWhile (fun l => !opens l) = as
  := by
  use ls.takeWhile fun l => !opens l, ls.dropWhile fun l => !opens l,
    List.takeWhile_append_dropWhile.symm
  constructor
  · intro a ha
    simpa using List.all_eq_true.mp List.all_takeWhile a ha
  constructor
  · intro b hb
    have := List.head?_dropWhile_not (fun l => !opens l) ls
    rw [hb] at this
    simpa using this
  · rfl

/-- The first block of lines ends in front of the next line that begins a message. -/
theorem blocks_place_cons (n : Nat) (l : Text) {as bs : List Text}
    (has : ∀ a ∈ as, opens a = false) (hbs : ∀ b ∈ bs.head?, opens b = true) :
  blocks (place n (l :: (as ++ bs)))
    = place n (l :: as) :: blocks (place (n + Text.utf8Length (l :: as).flatten) bs)
  := by
  have hhead : ∀ q ∈ (place (n + Text.utf8Length (l :: as).flatten) bs).head?,
      opens q.text = true := by
    cases bs with
    | nil => simp [place]
    | cons b bs => simpa [place] using hbs
  rw [← List.cons_append, place_append, blocks_append _ hhead, place,
    blocks_eq_singleton]
  · rfl
  · intro q hq
    apply has
    rw [← map_text_place (n + l.utf8Length) as]
    apply List.mem_map_of_mem hq

theorem blocks_shift (n : Nat) (ps : List Piece) :
  blocks (ps.map (Piece.shift n)) = (blocks ps).map (List.map (Piece.shift n))
  := by
  induction ps with
  | nil => rfl
  | cons p ps ih =>
      rw [List.map_cons, blocks, blocks, ih]
      cases blocks ps with
      | nil => rfl
      | cons b bs =>
          simp only [List.map_cons, List.head?_map, Option.any_map]
          split
          · rename_i hb
            rw [if_pos (by simpa [Function.comp_def] using hb)]
            rfl
          · rename_i hb
            rw [if_neg (by simpa [Function.comp_def] using hb)]
            rfl

theorem place_shift (n k : Nat) (ls : List Text) :
  place (n + k) ls = (place k ls).map (Piece.shift n)
  := by
  induction ls generalizing k with
  | nil => rfl
  | cons l ls ih =>
      rw [place, place, List.map_cons, Nat.add_assoc, ih]
      rfl

theorem listed_shift (n k : Nat) (ls : List Text) :
  listed (n + k) ls = (listed k ls).map (Piece.shift n)
  := by
  induction ls generalizing k with
  | nil => rfl
  | cons l ls ih =>
      rw [listed_cons, listed_cons, Nat.add_assoc, ih]
      cases Text.isBlankText l
      · exact congrArg (· :: _) (Piece.trim_shift n ⟨k, l⟩)
      · rfl

/-- The message of a shifted block of lines is the message of the block, shifted. -/
theorem ofBlock_shift (n : Nat) (h : b ≠ []) :
  ofBlock (b.map (Piece.shift n)) = (ofBlock b).shift n
  := by
  obtain ⟨p, b, rfl⟩ := List.exists_cons_of_ne_nil h
  have htexts : ((p :: b).map (Piece.shift n)).map (·.text) = (p :: b).map (·.text) := by
    rw [List.map_map]
    rfl
  have hlines : (((p :: b).map (Piece.shift n)).map (·.trim)) =
      ((p :: b).map (·.trim)).map (Piece.shift n) := by
    rw [List.map_map, List.map_map]
    apply List.map_congr_left
    intro q _
    apply Piece.trim_shift
  rw [ofBlock, ofBlock, shift, htexts, hlines, List.filter_map]
  rfl

/-! ### Messages -/

/-- The first line of a text that begins a message does so. -/
theorem opens_of_mem_head?_place {t : Text} (h : t.BeginsMessage) {n : Nat} {q : Piece}
    (hq : q ∈ (place n t.lines).head?) :
  opens q.text = true
  := by
  cases hlines : t.lines with
  | nil =>
      rw [hlines] at hq
      cases hq
  | cons l ls =>
      rw [hlines] at hq
      obtain rfl := Option.some.inj hq
      have hmem : l ∈ t.lines := hlines ▸ List.mem_cons_self
      obtain ⟨c, l, rfl⟩ := List.exists_cons_of_ne_nil (Text.ne_nil_of_mem_lines hmem)
      have hc := h c (by rw [← Text.head?_of_lines_eq_cons hlines]; rfl)
      simp [opens, hc]

/-- The messages of two texts put together at a head line. -/
theorem ofText_append {a b : Text} (ha : a.IsTerminated) (hb : b.BeginsMessage) :
  ofText (a ++ b) = ofText a ++ (ofText b).map (shift a.utf8Length)
  := by
  rw [ofText, ofText, ofText, Text.lines_append_of_isTerminated ha, place_append,
    Text.flatten_lines, Nat.zero_add, ← Nat.add_zero a.utf8Length,
    blocks_append _ fun _ => opens_of_mem_head?_place hb,
    place_shift, blocks_shift, List.map_append, List.map_map, List.map_map]
  congr 1
  apply List.map_congr_left
  intro b hb
  apply ofBlock_shift _ (ne_nil_of_mem_blocks hb)

end Message

namespace Matcher

/-- Text in front of a head line and text behind a complete line are recognised by themselves. -/
theorem recognizeAll_append (m : Matcher) {a b : Text} (ha : a.IsTerminated)
    (hb : b.BeginsMessage) :
  m.recognizeAll (a ++ b)
    = m.recognizeAll a ++ (m.recognizeAll b).map (Recognition.shift a.utf8Length)
  := by
  rw [recognizeAll, Message.ofText_append ha hb, List.flatMap_append, List.flatMap_map,
    recognizeAll, recognizeAll, List.map_flatMap]
  congr 2
  funext message
  apply recognitions_shift

end Matcher

end Diagnostics
