import Diagnostics.Proofs.Message.Padding
import Diagnostics.Proofs.Message.Tiling

/-!
# Where messages begin

The messages of a blob tile it: the first one begins where the blob does, each of the others where
the one before it ends, and the last one ends where the blob does.  The offsets at which they begin
are the front of the blob and every offset behind a line feed at which a character stands that is
not blank.
-/

namespace Diagnostics

namespace Span

/-- Spans that follow each other without a gap from the offset `n` up to the offset `stop`. -/
def Tile : Nat → List Span → Nat → Prop
  | n, [], stop => n = stop
  | n, s :: spans, stop => s.start = n ∧ Tile s.stop spans stop

end Span

namespace Text

variable {a b s : Text} {n : Nat}

/-- An offset behind a line feed at which a character stands that is not blank. -/
def IsHead (s : Text) (n : Nat) : Prop :=
  ∃ a c b, s = a ++ '\n' :: c :: b ∧ isBlank c = false ∧ n = utf8Length (a ++ ['\n'])

/-- At a head complete lines end and a text stands that begins a message. -/
theorem isHead_iff :
  s.IsHead n ↔ ∃ a b, s = a ++ b ∧ (a ≠ [] ∧ IsTerminated a) ∧ (b ≠ [] ∧ BeginsMessage b)
    ∧ n = utf8Length a
  := by
  constructor
  · rintro ⟨a, c, b, rfl, hc, rfl⟩
    use a ++ ['\n'], c :: b, List.append_cons a '\n' (c :: b)
    constructor
    · exact ⟨by simp, by simp [IsTerminated]⟩
    · exact ⟨⟨List.cons_ne_nil c b, by simpa [BeginsMessage] using hc⟩, rfl⟩
  · rintro ⟨a, b, rfl, ⟨ha, hterminated⟩, ⟨hb, hbegins⟩, rfl⟩
    obtain rfl | ⟨a, d, rfl⟩ := List.eq_nil_or_concat' a
    · apply absurd rfl ha
    · obtain ⟨c, b, rfl⟩ := List.exists_cons_of_ne_nil hb
      obtain rfl := hterminated d (by simp)
      use a, c, b, (List.append_cons a '\n' (c :: b)).symm, hbegins c rfl

/-- No line of a folded text behind the first one begins a message. -/
theorem not_isHead_of_isFolded (h : IsFolded s) :
  ¬ s.IsHead n
  := by
  rintro ⟨a, c, b, rfl, hc, -⟩
  have hfeed := (List.isChain_cons_cons.mp (List.IsChain.right_of_append h)).1 rfl
  rw [hc] at hfeed
  cases hfeed

/-- The heads of two texts put together at a line that begins a message are those of the two texts
and the offset where they meet. -/
theorem isHead_append (ha : a ≠ []) (hb : b ≠ []) (hterminated : IsTerminated a)
    (hbegins : BeginsMessage b) :
  IsHead (a ++ b) n ↔ a.IsHead n ∨ ∃ k, (k = 0 ∨ b.IsHead k) ∧ a.utf8Length + k = n
  := by
  constructor
  · intro h
    obtain ⟨x, y, htext, ⟨hx, hxterminated⟩, ⟨hy, hybegins⟩, rfl⟩ := isHead_iff.mp h
    rcases List.append_eq_append_iff.mp htext with ⟨m, rfl, rfl⟩ | ⟨m, rfl, rfl⟩
    · right
      refine ⟨utf8Length m, ?_, (utf8Length_append a m).symm⟩
      by_cases hm : m = []
      · left
        rw [hm]
        rfl
      · right
        rw [IsTerminated, List.getLast?_append_of_ne_nil a hm] at hxterminated
        exact isHead_iff.mpr ⟨m, y, rfl, ⟨hm, hxterminated⟩, ⟨hy, hybegins⟩, rfl⟩
    · by_cases hm : m = []
      · right
        use 0, .inl rfl
        rw [hm, List.append_nil, Nat.add_zero]
      · left
        rw [BeginsMessage, List.head?_append_of_ne_nil m hm] at hybegins
        exact isHead_iff.mpr ⟨x, m, rfl, ⟨hx, hxterminated⟩, ⟨hm, hybegins⟩, rfl⟩
  · rintro (h | ⟨k, rfl | h, rfl⟩)
    · obtain ⟨x, y, rfl, hx, ⟨hy, hybegins⟩, rfl⟩ := isHead_iff.mp h
      apply isHead_iff.mpr ⟨x, y ++ b, List.append_assoc x y b, hx, ⟨by simp [hy], _⟩, rfl⟩
      rwa [BeginsMessage, List.head?_append_of_ne_nil y hy]
    · exact isHead_iff.mpr ⟨a, b, rfl, ⟨ha, hterminated⟩, ⟨hb, hbegins⟩, rfl⟩
    · obtain ⟨x, y, rfl, ⟨hx, hxterminated⟩, hy, rfl⟩ := isHead_iff.mp h
      apply isHead_iff.mpr ⟨a ++ x, y, (List.append_assoc a x y).symm, ⟨by simp [hx], _⟩, hy,
        (utf8Length_append a x).symm⟩
      rwa [IsTerminated, List.getLast?_append_of_ne_nil a hx]

end Text

namespace Message

/-- Consecutive texts tile what they are put together to. -/
theorem tile_place (n : Nat) (ts : List Text) :
  Span.Tile n ((place n ts).map Piece.span) (n + Text.utf8Length ts.flatten)
  := by
  induction ts generalizing n with
  | nil => rfl
  | cons t ts ih =>
      rw [List.flatten_cons, Text.utf8Length_append, ← Nat.add_assoc]
      exact ⟨rfl, ih _⟩

/-- Messages begin at the front of the blob and at its heads. -/
theorem mem_starts_iff (blob : Text) (n : Nat) :
  n ∈ (ofText blob).map (·.piece.span.start) ↔ blob ≠ [] ∧ (n = 0 ∨ blob.IsHead n)
  := by
  induction blob using Text.induction_on_messages generalizing n with
  | folded s hs =>
      by_cases hne : s = []
      · subst hne
        simp [ofText, Text.lines, place, blocks]
      · rw [ofText_of_isFolded hs hne, List.map_singleton, List.mem_singleton]
        simp [hne, Text.not_isHead_of_isFolded hs, Piece.whole, Piece.span]
  | append a b ha hb hterminated hbegins iha ihb =>
      have hshift : ((ofText b).map (shift (Text.utf8Length a))).map (·.piece.span.start)
          = ((ofText b).map (·.piece.span.start)).map (Text.utf8Length a + ·) := by
        rw [List.map_map, List.map_map]
        rfl
      rw [ofText_append hterminated hbegins, List.map_append, hshift, List.mem_append, iha,
        List.mem_map, Text.isHead_append ha hb hterminated hbegins, or_assoc.symm]
      simp only [ihb, ha, hb, ne_eq, not_false_eq_true, true_and, List.append_eq_nil_iff,
        and_self]

/-- The messages of a blob are not empty and tile it, and those behind the first one begin at the
heads of the blob. -/
theorem ofText_partition (blob : Text) :
  (∀ message ∈ ofText blob, message.piece.span.start < message.piece.span.stop
      ∧ blob.slice? message.piece.span = some message.piece.text)
    ∧ Span.Tile 0 ((ofText blob).map (·.piece.span)) blob.utf8Length
    ∧ (ofText blob = [] ↔ blob = [])
    ∧ ∀ n, n ∈ (ofText blob).map (·.piece.span.start) ↔ blob ≠ [] ∧ (n = 0 ∨ blob.IsHead n)
  := by
  obtain ⟨ts, hts, hne, hpieces⟩ := exists_place_ofText blob
  constructor
  · intro message hmessage
    constructor
    · apply Piece.start_lt_stop
      apply hne
      rw [← map_text_place 0 ts, ← hpieces, List.map_map]
      apply List.mem_map_of_mem hmessage
    · apply Piece.slice?_span (isPieceOf_of_mem_ofText hmessage)
  constructor
  · have htile := tile_place 0 ts
    rwa [← hpieces, List.map_map, Nat.zero_add, hts] at htile
  constructor
  · constructor
    · intro hnil
      by_contra hblob
      have hfirst := (mem_starts_iff blob 0).mpr ⟨hblob, .inl rfl⟩
      rw [hnil] at hfirst
      cases hfirst
    · rintro rfl
      rfl
  · apply mem_starts_iff

end Message

end Diagnostics
