import Diagnostics.Proofs.Matching.Choice
import Diagnostics.Proofs.Sketch.Progress

/-!
# Sketches of renderings

The sketch of a template leaves out its items, so that it shows every rendering with words.  Such a
rendering is a line, words account for it, and it is recognised by its own template when the
sketches tell that the templates tried before it fail on the line.
-/

namespace Diagnostics

open Text (IsWord IsTrimmed EndsLine isBlank isStop)

namespace Text

variable {l w : Text}

/-- A literal that begins with a stop closes a word. -/
theorem IsWord.isClosedBy {d : Char} (hw : IsWord w) (hd : isStop d = true) :
  w.IsClosedBy (d :: l)
  := by
  have hword := hw.not_stop
  clear hw
  induction w with
  | nil => apply isClosedBy_nil
  | cons c w ih =>
      obtain ⟨hc, hword⟩ := List.forall_mem_cons.mp hword
      rw [isClosedBy_cons]
      constructor
      · apply not_prefix_of_head
        rintro rfl
        rw [hc] at hd
        cases hd
      · apply ih hword

theorem isBlank_of_not_isStop {c : Char} (h : isStop c = false) :
  isBlank c = false
  := by
  by_contra hblank
  rw [isStop_of_isBlank (by simpa using hblank)] at h
  cases h

theorem isStop_of_isDigit {c : Char} (h : c.isDigit = true) :
  isStop c = false
  := by
  have hc : 48 ≤ c.toNat ∧ c.toNat ≤ 57 := by
    simpa [Char.isDigit, UInt32.le_iff_toNat_le] using h
  have hne : ∀ d : Char, d.toNat < 48 → c ≠ d := by
    rintro d hd rfl
    omega
  simp only [isStop, isBlank, blankRanges, hne '\'' (by decide), hne ',' (by decide),
    hne '.' (by decide), List.any_cons, List.any_nil, decide_false, Bool.or_false,
    Bool.or_eq_false_iff, Bool.and_eq_false_iff, decide_eq_false_iff_not]
  omega

/-- The placeholder of an index is a word. -/
theorem isWord_write (i : Nat) :
  IsWord (Placeholder.write i)
  := by
  constructor
  · simp [Placeholder.write, Placeholder.spell]
  · intro c hc
    rw [Placeholder.write, Placeholder.spell, List.cons_append, List.mem_cons, List.mem_append,
      List.mem_singleton] at hc
    rcases hc with rfl | hc | rfl
    · decide
    · apply isStop_of_isDigit
      apply Nat.isDigit_of_mem_toDigits (by decide) (by decide) hc
    · decide

end Text

namespace Sketch

variable {σ τ : Sketch} {s : Text}

/-- A character that is not blank, or a word. -/
def solid : Option Char → Bool
  | none => true
  | some c => !isBlank c

/-- Whether a sketch shows lines without white space at their ends. -/
def isLine (σ : Sketch) : Bool :=
  σ.head?.any solid && σ.getLast?.any solid && !σ.contains (some '\n')

/-- A line that two sketches show in a row is two lines in a row. -/
theorem Shows.exists_of_append (h : Shows (σ ++ τ) s) :
  ∃ a b, s = a ++ b ∧ Shows σ a ∧ Shows τ b
  := by
  induction σ generalizing s with
  | nil => exact ⟨[], s, rfl, .nil, h⟩
  | cons x σ ih =>
      cases h with
      | char c h =>
          obtain ⟨a, b, rfl, ha, hb⟩ := ih h
          use c :: a, b, rfl, .char c ha
      | @word w _ _ hw h =>
          obtain ⟨a, b, rfl, ha, hb⟩ := ih h
          use w ++ a, b, (List.append_assoc _ _ _).symm, .word hw ha

theorem Shows.head (h : Shows σ s) (hσ : σ.head?.any solid = true) :
  s ≠ [] ∧ ∀ c ∈ s.head?, isBlank c = false
  := by
  cases h with
  | nil => cases hσ
  | char c h =>
      use by simp
      intro d hd
      obtain rfl := Option.some.inj hd
      simpa [solid] using hσ
  | word hw h =>
      obtain ⟨c, w, rfl⟩ := List.exists_cons_of_ne_nil hw.ne_nil
      use by simp
      intro d hd
      obtain rfl := Option.some.inj hd
      apply Text.isBlank_of_not_isStop (hw.not_stop _ List.mem_cons_self)

theorem Shows.last (h : Shows σ s) (hσ : σ.getLast?.any solid = true) :
  ∀ c ∈ s.getLast?, isBlank c = false
  := by
  obtain ⟨x, hx, hsolid⟩ := (Option.any_eq_true _ _).mp hσ
  obtain ⟨τ, rfl⟩ := List.getLast?_eq_some_iff.mp hx
  obtain ⟨a, b, rfl, -, hb⟩ := h.exists_of_append
  cases hb with
  | char c hb =>
      cases hb
      intro d hd
      rw [List.getLast?_concat] at hd
      obtain rfl := Option.some.inj hd
      simpa [solid] using hsolid
  | word hw hb =>
      cases hb
      intro d hd
      rw [List.append_nil, List.getLast?_append_of_ne_nil _ hw.ne_nil] at hd
      apply Text.isBlank_of_not_isStop (hw.not_stop d (List.mem_of_getLast? hd))

/-- What the sketch of a line shows is a line. -/
theorem Shows.isLine (h : Shows σ s) (hσ : σ.isLine = true) :
  s.IsLine
  := by
  rw [Sketch.isLine, Bool.and_eq_true, Bool.and_eq_true] at hσ
  obtain ⟨⟨hhead, hlast⟩, hbreak⟩ := hσ
  obtain ⟨hne, hfirst⟩ := h.head hhead
  use hne, ⟨hfirst, h.last hlast⟩
  apply h.not_mem_lineFeed
  simpa using hbreak

end Sketch

/-! ### Renderings with words -/

namespace Segment

variable {items : List Text} {segments : List Segment}

/-- The sketch of the renderings of segments. -/
def sketch (segments : List Segment) : Sketch :=
  segments.flatMap fun s =>
    match s with
    | .literal l => l.map some
    | .slot _ => [none]

theorem isWord_render (hitems : ∀ item ∈ items, IsWord item) (i : Nat) :
  IsWord (render items (.slot i))
  := by
  rw [render]
  cases hi : items[i]? with
  | none => apply Text.isWord_write
  | some item => apply hitems item (List.mem_of_getElem? hi)

/-- The sketch of segments shows their renderings with words. -/
theorem shows_render (hitems : ∀ item ∈ items, IsWord item) (segments : List Segment) :
  (sketch segments).Shows (segments.flatMap (render items))
  := by
  induction segments with
  | nil => exact .nil
  | cons s segments ih =>
      rw [sketch, List.flatMap_cons, List.flatMap_cons]
      apply Sketch.Shows.append _ ih
      cases s with
      | literal l => apply Sketch.shows_map_some
      | slot i =>
          rw [← List.append_nil (render items _)]
          exact .word (isWord_render hitems i) .nil

/-- Words leave the slots of delimited segments no other choice. -/
theorem tight_of_words (hitems : ∀ item ∈ items, IsWord item) :
  ∀ {segments : List Segment}, delimited segments = true → Tight items segments
  | [], _ => tight_nil
  | .literal l :: segments, h => by
      rw [delimited, Bool.and_eq_true] at h
      apply tight_literal_cons.mpr (tight_of_words hitems h.2)
  | [.slot i], _ => tight_slot_singleton i
  | .slot i :: .slot j :: segments, h => by cases h
  | .slot i :: .literal [] :: segments, h => by cases h
  | .slot i :: .literal (c :: l) :: segments, h => by
      rw [delimited, Bool.and_eq_true, Bool.and_eq_true] at h
      apply tight_slot_literal.mpr
      use (isWord_render hitems i).isClosedBy h.1.1
      apply tight_of_words hitems h.2

/-- Whether segments do not read the lines that a sketch shows. -/
def misses (segments : List Segment) (σ : Sketch) : Bool :=
  match advance segments σ with
  | .failed | .waiting _ => true
  | _ => false

theorem read_eq_none_of_misses {σ : Sketch} {s : Text} (h : misses segments σ = true)
    (hsegments : delimited segments = true) (hs : σ.Shows s) :
  read segments s = none
  := by
  have hdescribes := describes_advance (u := []) (by simp [EndsLine]) hsegments hs
  rw [List.append_nil] at hdescribes
  rw [misses] at h
  split at h
  case h_1 hadvance =>
      rw [hadvance] at hdescribes
      exact hdescribes
  case h_2 rest hadvance =>
      rw [hadvance] at hdescribes
      obtain ⟨r, a, hread⟩ := hdescribes
      rw [hread, read_nil_of_waiting hsegments hadvance]
      rfl
  case h_3 => cases h

end Segment

namespace Template

/-- The sketch of the renderings of a template. -/
def sketch (t : Template) : Sketch := Segment.sketch t.segments

/-- Words account for their rendering. -/
theorem accounts_of_words {t : Template} {items : List Text}
    (hsegments : Segment.delimited t.segments = true) (hlength : items.length = t.arity)
    (hitems : ∀ item ∈ items, IsWord item) :
  t.Accounts items (t.render items)
  := accounts_iff.mpr ⟨hlength, rfl, Segment.tight_of_words hitems hsegments⟩

theorem captures?_eq_none_of_misses {t : Template} {σ : Sketch} {window : Piece}
    (h : Segment.misses t.segments σ = true) (hsegments : Segment.delimited t.segments = true)
    (hs : σ.Shows window.text) :
  t.captures? window = none
  := by
  rw [← Option.not_isSome_iff_eq_none, isSome_captures?_iff]
  rintro ⟨r, hread, -⟩
  rw [Segment.read_eq_none_of_misses h hsegments hs] at hread
  cases hread

end Template

end Diagnostics
