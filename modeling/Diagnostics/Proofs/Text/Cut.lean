import Diagnostics.Piece
import Mathlib.Data.List.Basic
import Mathlib.Tactic.Use

/-!
# Cuts

A byte offset is a boundary of a text when it falls between two of its characters.  The cuts of
a text are exactly the ways to write it as two texts, and a span with both bounds on boundaries
that does not run backwards is the span of exactly one piece of the text.
-/

namespace Diagnostics

theorem length_flatMap_le {α β γ : Type} {f : α → List β} {g : α → List γ} {l : List α}
    (h : ∀ a ∈ l, (f a).length ≤ (g a).length) :
  (l.flatMap f).length ≤ (l.flatMap g).length
  := by
  induction l with
  | nil => apply Nat.le_refl
  | cons a l ih =>
      obtain ⟨ha, hl⟩ := List.forall_mem_cons.mp h
      rw [List.flatMap_cons, List.flatMap_cons, List.length_append, List.length_append]
      apply Nat.add_le_add ha (ih hl)

/-- Where no part becomes longer, what is put together from parts is kept just when every part is. -/
theorem flatMap_eq_flatMap_iff {α β : Type} {f g : α → List β} {l : List α}
    (h : ∀ a ∈ l, (f a).length ≤ (g a).length) :
  l.flatMap f = l.flatMap g ↔ ∀ a ∈ l, f a = g a
  := by
  induction l with
  | nil => simp
  | cons a l ih =>
      obtain ⟨ha, hl⟩ := List.forall_mem_cons.mp h
      rw [List.flatMap_cons, List.flatMap_cons, List.forall_mem_cons]
      constructor
      · intro heq
        have hlength := congrArg List.length heq
        rw [List.length_append, List.length_append] at hlength
        have := length_flatMap_le hl
        obtain ⟨hhead, hrest⟩ := List.append_inj heq (by omega)
        exact ⟨hhead, (ih hl).mp hrest⟩
      · rintro ⟨hhead, hrest⟩
        rw [hhead, (ih hl).mpr hrest]

namespace Text

/-- A byte offset that falls between two characters of a text, or at one of its ends. -/
def IsBoundary (s : Text) (n : Nat) : Prop :=
  ∃ a b, s = a ++ b ∧ n = utf8Length a

@[simp]
theorem utf8Length_eq_zero_iff {s : Text} :
  utf8Length s = 0 ↔ s = []
  := by
  cases s with
  | nil => simp
  | cons c s =>
      have := c.utf8Size_pos
      simp only [utf8Length_cons, reduceCtorEq, iff_false]
      omega

@[simp]
theorem utf8Length_pos_iff {s : Text} :
  0 < utf8Length s ↔ s ≠ []
  := by
  rw [Nat.pos_iff_ne_zero, ne_eq, utf8Length_eq_zero_iff]

/-- Cutting a text at an offset is writing it as two texts, the first of that length. -/
theorem cutAt?_eq_some_iff {n : Nat} {s a b : Text} :
  cutAt? n s = some (a, b) ↔ s = a ++ b ∧ n = utf8Length a
  := by
  constructor
  · intro h
    fun_induction cutAt? n s generalizing a with
    | case1 s =>
        obtain ⟨rfl, rfl⟩ := Prod.mk.inj (Option.some.inj h)
        exact ⟨rfl, rfl⟩
    | case2 => cases h
    | case3 n c s hc ih =>
        obtain ⟨⟨a', b'⟩, hcut, hab⟩ := Option.map_eq_some_iff.mp h
        obtain ⟨rfl, rfl⟩ := Prod.mk.inj hab
        obtain ⟨rfl, hn⟩ := ih hcut
        use rfl
        rw [utf8Length_cons]
        omega
    | case4 => cases h
  · rintro ⟨rfl, rfl⟩
    apply cutAt?_append

/-- A part at the front of a text is no longer than a part that ends further on. -/
theorem eq_append_of_utf8Length_le {a b c d : Text} (h : a ++ b = c ++ d)
    (hle : utf8Length a ≤ utf8Length c) :
  ∃ m, c = a ++ m ∧ b = m ++ d
  := by
  rcases List.append_eq_append_iff.mp h with ⟨m, hc, hb⟩ | ⟨m, ha, hd⟩
  · use m, hc, hb
  · subst ha hd
    rw [utf8Length_append] at hle
    cases m with
    | nil =>
        use []
        simp
    | cons e m =>
        have := e.utf8Size_pos
        rw [utf8Length_cons] at hle
        omega

/-! ### Slices -/

theorem slice?_eq_some_iff {source text : Text} {w : Span} :
  source.slice? w = some text ↔
    ∃ before after, source = before ++ text ++ after ∧ w.start = utf8Length before
      ∧ w.stop = w.start + utf8Length text
  := by
  constructor
  · intro h
    simp only [slice?] at h
    split at h
    case isFalse => cases h
    rename_i hle
    obtain ⟨⟨before, rest⟩, hstart, h⟩ := Option.bind_eq_some_iff.mp h
    obtain ⟨⟨inside, after⟩, hstop, rfl⟩ := Option.map_eq_some_iff.mp h
    obtain ⟨rfl, hbefore⟩ := cutAt?_eq_some_iff.mp hstart
    obtain ⟨rfl, hlength⟩ := cutAt?_eq_some_iff.mp hstop
    use before, after, (List.append_assoc _ _ _).symm, hbefore
    dsimp only [Span.length] at hlength ⊢
    omega
  · rintro ⟨before, after, rfl, hstart, hstop⟩
    have hspan : w = (Piece.mk w.start text).span := by
      obtain ⟨start, stop⟩ := w
      simp only [Piece.span, Piece.stop, Span.mk.injEq, true_and]
      exact hstop
    rw [hspan]
    apply Piece.slice?_span
    use before, after, rfl, hstart

/-- A span between two boundaries is the span of a piece. -/
theorem exists_piece {source : Text} {w : Span} (hstart : source.IsBoundary w.start)
    (hstop : source.IsBoundary w.stop) (hle : w.start ≤ w.stop) :
  ∃ p : Piece, p.IsPieceOf source ∧ p.span = w
  := by
  obtain ⟨start, stop⟩ := w
  obtain ⟨a, b, rfl, ha⟩ := hstart
  obtain ⟨c, d, hcd, hc⟩ := hstop
  obtain ⟨m, rfl, rfl⟩ := eq_append_of_utf8Length_le hcd (ha ▸ hc ▸ hle)
  simp only at ha hc
  use ⟨start, m⟩
  constructor
  · exact ⟨a, d, (List.append_assoc _ _ _).symm, ha⟩
  · simp [Piece.span, Piece.stop, hc, ha]

end Text

namespace Piece

theorem isEmpty_span (p : Piece) :
  p.span.isEmpty = p.text.isEmpty
  := by
  rw [Bool.eq_iff_iff, Span.isEmpty, decide_eq_true_iff, List.isEmpty_iff,
    ← Text.utf8Length_eq_zero_iff]
  simp [span, stop]

theorem piece?_span {p : Piece} {source : Text} (h : p.IsPieceOf source) :
  source.piece? p.span = some p
  := by
  rw [Text.piece?, slice?_span h]
  rfl

end Piece

end Diagnostics
