import Diagnostics.Proofs.Message.Concat

/-!
# Messages follow each other

The messages of a blob are consecutive parts of it, and none of them is empty.  The lines that a
message lists follow each other inside it; they are trimmed, and there is one for every line of the
message that is not blank.
-/

namespace Diagnostics

namespace Span

variable {s s' t t' : Span}

/-- A span inside another one. -/
def Within (s t : Span) : Prop := t.start ≤ s.start ∧ s.stop ≤ t.stop

instance : DecidableRel Within := fun _ _ => inferInstanceAs (Decidable (_ ∧ _))

/-- A span that ends before another one begins. -/
def Before (s t : Span) : Prop := s.stop ≤ t.start

theorem Before.of_within (h : s'.Before t') (hs : s.Within s') (ht : t.Within t') :
  s.Before t
  := Nat.le_trans hs.2 (Nat.le_trans h ht.1)

/-- A span that is not empty does not stand inside two spans one of which is before the other. -/
theorem not_within_of_before (h : t.Before t') (hne : s.start < s.stop) (ht : s.Within t) :
  ¬ s.Within t'
  := by
  intro ht'
  have hself : s.Before s := h.of_within ht ht'
  apply Nat.not_le_of_lt hne hself

/-- A span that is not empty stands inside one only of spans that follow each other. -/
theorem eq_of_within_of_pairwise {α : Type} {f : α → Span} {xs : List α} {x y : α}
    (hpairwise : xs.Pairwise fun x y => (f x).Before (f y)) (hne : s.start < s.stop) (hx : x ∈ xs)
    (hy : y ∈ xs) (h : s.Within (f x)) (h' : s.Within (f y)) :
  y = x
  := by
  induction xs with
  | nil => cases hx
  | cons z zs ih =>
      obtain ⟨hz, hzs⟩ := List.pairwise_cons.mp hpairwise
      rcases List.mem_cons.mp hx with rfl | hxs
      · rcases List.mem_cons.mp hy with rfl | hys
        · rfl
        · apply absurd h' (not_within_of_before (hz y hys) hne h)
      · rcases List.mem_cons.mp hy with rfl | hys
        · apply absurd h (not_within_of_before (hz x hxs) hne h')
        · apply ih hzs hxs hys

end Span

namespace Piece

variable {p : Piece}

theorem start_lt_stop (h : p.text ≠ []) :
  p.span.start < p.span.stop
  := by
  simp [span, stop, h]

theorem within_trim (p : Piece) :
  p.trim.span.Within p.span
  := by
  obtain ⟨after, hafter, -⟩ := Text.exists_eq_append_trim_append p.text
  have hlength := congrArg Text.utf8Length hafter
  simp only [Text.utf8Length_append] at hlength
  simp only [Span.Within, span, stop, trim]
  omega

end Piece

namespace Message

variable {n : Nat} {ls ts : List Text} {p q : Piece} {blob : Text} {message other : Message}

/-! ### Consecutive lines -/

theorem within_of_mem_place (h : p ∈ place n ls) :
  p.span.Within ⟨n, n + Text.utf8Length ls.flatten⟩
  := by
  induction ls generalizing n with
  | nil => cases h
  | cons l ls ih =>
      rw [List.flatten_cons, Text.utf8Length_append]
      rcases List.mem_cons.mp h with rfl | h
      · simp only [Span.Within, Piece.span, Piece.stop]
        omega
      · have := ih h
        simp only [Span.Within] at this ⊢
        omega

/-- Each of some consecutive lines ends before the next ones begin. -/
theorem pairwise_place (n : Nat) (ls : List Text) :
  (place n ls).Pairwise fun p q => p.span.Before q.span
  := by
  induction ls generalizing n with
  | nil => apply List.Pairwise.nil
  | cons l ls ih =>
      apply List.Pairwise.cons _ (ih _)
      intro q hq
      apply (within_of_mem_place hq).1

/-! ### Listed lines -/

theorem pairwise_listed (n : Nat) (ls : List Text) :
  (listed n ls).Pairwise fun p q => p.span.Before q.span
  := by
  apply List.Pairwise.filter
  rw [List.pairwise_map]
  apply (pairwise_place n ls).imp
  intro p q h
  apply h.of_within p.within_trim q.within_trim

/-- A listed line stands where its line does, is trimmed and not empty. -/
theorem of_mem_listed (h : p ∈ listed n ls) :
  p.span.Within ⟨n, n + Text.utf8Length ls.flatten⟩ ∧ p.text ≠ [] ∧ p.trim = p
  := by
  obtain ⟨hmem, hne⟩ := List.mem_filter.mp h
  obtain ⟨q, hq, rfl⟩ := List.mem_map.mp hmem
  have hne : q.trim.text ≠ [] := by simpa using hne
  have hq := within_of_mem_place hq
  have htrim := q.within_trim
  constructor
  · exact ⟨Nat.le_trans hq.1 htrim.1, Nat.le_trans htrim.2 hq.2⟩
  · exact ⟨hne, Piece.trim_eq_self (Text.isTrimmed_trim q.text) hne⟩

/-- There is a listed line for every line that is not blank. -/
theorem length_listed (n : Nat) (ls : List Text) :
  (listed n ls).length = (ls.filter fun l => !Text.isBlankText l).length
  := by
  induction ls generalizing n with
  | nil => rfl
  | cons l ls ih =>
      rw [listed_cons, List.filter_cons]
      cases Text.isBlankText l with
      | true => exact ih _
      | false => exact congrArg (· + 1) (ih _)

theorem isBlankText_flatten_of_listed_eq_nil (h : listed n ls = []) :
  Text.isBlankText ls.flatten = true
  := by
  have hfilter := length_listed n ls
  rw [h, List.length_nil, eq_comm, List.length_eq_zero_iff, List.filter_eq_nil_iff] at hfilter
  apply Text.isBlankText_flatten_iff.mpr
  intro l hl
  have := hfilter l hl
  rwa [Bool.not_eq_true, Bool.not_eq_false'] at this

/-! ### Consecutive messages -/

theorem piece_ofBlock_place (n : Nat) (h : ls ≠ []) :
  (ofBlock (place n ls)).piece = ⟨n, ls.flatten⟩
  := by
  obtain ⟨l, ls, rfl⟩ := List.exists_cons_of_ne_nil h
  rw [ofBlock, map_text_place]
  rfl

/-- Blocks of consecutive lines are consecutive parts of what the lines are put together to. -/
theorem exists_place_of_flatten {blocks : List (List Piece)} (hblocks : ∀ b ∈ blocks, b ≠ [])
    (hls : ∀ l ∈ ls, l ≠ []) (h : place n ls = blocks.flatten) :
  ∃ ts, ts.flatten = ls.flatten ∧ (∀ t ∈ ts, t ≠ [])
    ∧ (blocks.map ofBlock).map (·.piece) = place n ts
  := by
  induction blocks generalizing n ls with
  | nil =>
      have hnil : ls = [] := by
        rw [← map_text_place n ls, h]
        rfl
      use [], by rw [hnil], by simp
      rfl
  | cons b blocks ih =>
      obtain ⟨hb, hothers⟩ := List.forall_mem_cons.mp hblocks
      obtain ⟨as, bs, rfl, rfl, hrest⟩ := exists_eq_append_of_place h
      have has : as ≠ [] := by
        rintro rfl
        apply hb rfl
      obtain ⟨a, as, rfl⟩ := List.exists_cons_of_ne_nil has
      obtain ⟨ha, -⟩ := List.forall_mem_cons.mp hls
      obtain ⟨ts, hts, hne, hpieces⟩ := ih hothers
        (fun l hl => hls l (List.mem_append_right _ hl)) hrest.symm
      use (a :: as).flatten :: ts
      constructor
      · rw [List.flatten_cons, hts, List.flatten_append]
      constructor
      · apply List.forall_mem_cons.mpr ⟨_, hne⟩
        simp [ha]
      · rw [List.map_cons, List.map_cons, hpieces, piece_ofBlock_place n has, place]

/-- The messages of a blob are consecutive parts of it, and none of them is empty. -/
theorem exists_place_ofText (blob : Text) :
  ∃ ts, ts.flatten = blob ∧ (∀ t ∈ ts, t ≠ []) ∧ (ofText blob).map (·.piece) = place 0 ts
  := by
  have hblocks := (flatten_blocks (place 0 blob.lines)).symm
  obtain ⟨ts, hts, hne, hpieces⟩ := exists_place_of_flatten (fun _ => ne_nil_of_mem_blocks)
    (fun _ => Text.ne_nil_of_mem_lines) hblocks
  rw [Text.flatten_lines] at hts
  use ts, hts, hne, hpieces

/-- Each message ends before the next ones begin. -/
theorem pairwise_ofText (blob : Text) :
  (ofText blob).Pairwise fun p q => p.piece.span.Before q.piece.span
  := by
  obtain ⟨ts, -, -, hpieces⟩ := exists_place_ofText blob
  have hpairwise := pairwise_place 0 ts
  rw [← hpieces, List.pairwise_map] at hpairwise
  exact hpairwise

/-- The other messages of a blob stand before or behind a message. -/
theorem exists_append_of_mem_ofText (h : message ∈ ofText blob) :
  ∃ as bs, ofText blob = as ++ message :: bs
    ∧ (∀ other ∈ as, other.piece.span.Before message.piece.span)
    ∧ (∀ other ∈ bs, message.piece.span.Before other.piece.span)
  := by
  obtain ⟨as, bs, hmessages⟩ := List.append_of_mem h
  have hpairwise := pairwise_ofText blob
  rw [hmessages, List.pairwise_append, List.pairwise_cons] at hpairwise
  obtain ⟨-, ⟨hbs, -⟩, has⟩ := hpairwise
  use as, bs, hmessages
  constructor
  · intro other hother
    apply has other hother message List.mem_cons_self
  · exact hbs

/-- A span that is not empty stands inside one message only. -/
theorem eq_of_within {s : Span} (hs : s.start < s.stop) (hmessage : message ∈ ofText blob)
    (hother : other ∈ ofText blob) (h : s.Within message.piece.span)
    (h' : s.Within other.piece.span) :
  other = message
  := Span.eq_of_within_of_pairwise (pairwise_ofText blob) hs hmessage hother h h'

/-- The messages list the lines of the blob. -/
theorem flatMap_lines_ofText (blob : Text) :
  (ofText blob).flatMap (·.lines) = listed 0 blob.lines
  := by
  rw [ofText, List.flatMap_map, listed, ← flatten_blocks (place 0 blob.lines), List.map_flatten,
    List.filter_flatten, List.map_map, flatten_blocks]
  rfl

/-- What a message lists follows each other inside of it, is trimmed and not empty; nothing is
listed only if the message is blank. -/
theorem lines_of_mem_ofText (h : message ∈ ofText blob) :
  message.lines.Pairwise (fun p q => p.span.Before q.span)
    ∧ (∀ p ∈ message.lines, p.span.Within message.piece.span ∧ p.text ≠ [] ∧ p.trim = p)
    ∧ (message.lines = [] → Text.isBlankText message.piece.text = true)
  := by
  obtain ⟨as, bs, cs, -, rfl⟩ := exists_run_of_mem_ofText h
  rw [lines_ofBlock_place]
  use pairwise_listed _ _
  by_cases hbs : bs = []
  · subst hbs
    exact ⟨fun p hp => absurd hp List.not_mem_nil, fun _ => rfl⟩
  · rw [piece_ofBlock_place _ hbs]
    exact ⟨fun p => of_mem_listed, isBlankText_flatten_of_listed_eq_nil⟩

end Message

end Diagnostics
