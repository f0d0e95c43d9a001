import Diagnostics.Proofs.Matching.Account
import Mathlib.Data.List.Nodup

/-!
# Readings

The reading of a text by segments lists what fills the slots, with the index of each, and forgets
where the fillings stand.  A template captures something in a window exactly when it reads the
window and the slots of one index are read alike; the latter is no condition where every index
occurs once.
-/

namespace Diagnostics

/-- What fills an occurrence of a slot, with the index of the slot. -/
abbrev Reading := List (Nat × Text)

/-- Slots of one index are read alike. -/
def Reading.Agrees (r : Reading) : Prop := ∀ i a b, (i, a) ∈ r → (i, b) ∈ r → a = b

namespace Segment

/-- The reading of a text by segments. -/
def read : List Segment → Text → Option Reading
  | [], s => if s.isEmpty then some [] else none
  | .literal l :: segments, s => (l.isPrefixOf? s).bind fun rest => read segments rest
  | [.slot i], s => some [(i, s)]
  | .slot i :: .slot j :: segments, s => (read (.slot j :: segments) s).map ((i, []) :: ·)
  | .slot i :: .literal l :: segments, s =>
    (Text.splitAtFirst? l s).bind fun (item, rest) => (read segments rest).map ((i, item) :: ·)

variable {segments : List Segment} {s : Text} {r : Reading}

/-- A reading has an entry for each slot. -/
theorem map_fst_of_read (h : read segments s = some r) :
  r.map Prod.fst = indices segments
  := by
  fun_induction read segments s generalizing r with
  | case1 s =>
      rw [← Option.some.inj h]
      rfl
  | case2 => cases h
  | case3 l segments s ih =>
      obtain ⟨rest, -, hrest⟩ := Option.bind_eq_some_iff.mp h
      apply ih rest hrest
  | case4 i s =>
      rw [← Option.some.inj h]
      rfl
  | case5 i j segments s ih =>
      obtain ⟨r, hr, rfl⟩ := Option.map_eq_some_iff.mp h
      rw [List.map_cons, ih hr]
      rfl
  | case6 i l segments s ih =>
      obtain ⟨⟨item, rest⟩, -, hrest⟩ := Option.bind_eq_some_iff.mp h
      obtain ⟨r, hr, rfl⟩ := Option.map_eq_some_iff.mp hrest
      rw [List.map_cons, ih rest hr]
      rfl

/-- The first entry of a reading is of the first slot, and the others are of the slots behind it. -/
theorem exists_of_read_slot {i : Nat} (h : read (.slot i :: segments) s = some r) :
  ∃ a es, r = (i, a) :: es ∧ es.map Prod.fst = indices segments
  := by
  have hindices : r.map Prod.fst = i :: indices segments := map_fst_of_read h
  obtain ⟨⟨j, a⟩, es, rfl, rfl, hes⟩ := List.map_eq_cons_iff.mp hindices
  use a, es

/-- What fills a slot is a part of the text. -/
theorem infix_of_mem_read (h : read segments s = some r) {e : Nat × Text} (he : e ∈ r) :
  e.2 <:+: s
  := by
  fun_induction read segments s generalizing r with
  | case1 s =>
      rw [← Option.some.inj h] at he
      cases he
  | case2 => cases h
  | case3 l segments s ih =>
      obtain ⟨rest, hprefix, hrest⟩ := Option.bind_eq_some_iff.mp h
      rw [Text.isPrefixOf?_eq_some_iff.mp hprefix]
      apply (ih rest hrest he).trans (List.suffix_append l rest).isInfix
  | case4 i s =>
      rw [← Option.some.inj h, List.mem_singleton] at he
      subst he
      apply List.infix_rfl
  | case5 i j segments s ih =>
      obtain ⟨r, hr, rfl⟩ := Option.map_eq_some_iff.mp h
      rcases List.mem_cons.mp he with rfl | he
      · apply List.nil_infix
      · apply ih hr he
  | case6 i l segments s ih =>
      obtain ⟨⟨item, rest⟩, hsplit, hrest⟩ := Option.bind_eq_some_iff.mp h
      obtain ⟨r, hr, rfl⟩ := Option.map_eq_some_iff.mp hrest
      rw [(Text.splitAtFirst?_eq_some_iff.mp hsplit).1]
      rcases List.mem_cons.mp he with rfl | he
      · use [], l ++ rest
        simp
      · apply (ih rest hr he).trans (List.suffix_append _ rest).isInfix

/-- Segments that end with a slot read every text that more segments behind it read. -/
theorem isSome_read_of_append {i : Nat} {more : List Segment}
    (h : (read (segments ++ .slot i :: more) s).isSome = true) :
  (read (segments ++ [.slot i]) s).isSome = true
  := by
  fun_induction read segments s with
  | case1 s => rfl
  | case2 s => rfl
  | case3 l segments s ih =>
      rw [List.cons_append, read, Option.isSome_bind, Option.any_eq_true] at h
      obtain ⟨rest, hrest, h⟩ := h
      rw [List.cons_append, read, hrest]
      apply ih rest h
  | case4 j s =>
      rw [List.singleton_append, read, Option.isSome_map]
      rfl
  | case5 j k segments s ih =>
      rw [List.cons_append, List.cons_append, read, Option.isSome_map] at h ⊢
      apply ih h
  | case6 j l segments s ih =>
      rw [List.cons_append, List.cons_append, read, Option.isSome_bind, Option.any_eq_true] at h
      obtain ⟨⟨item, rest⟩, hsplit, h⟩ := h
      rw [Option.isSome_map] at h
      rw [List.cons_append, List.cons_append, read, hsplit, Option.bind_some, Option.isSome_map]
      apply ih rest h

end Segment

namespace Filling

variable {segments : List Segment} {window : Piece} {fs : List Filling}

/-- A filling less its place. -/
def entry (f : Filling) : Nat × Text := (f.index, f.piece.text)

/-- The fillings of a window, less their places, are its reading. -/
theorem map_entry_cut :
  ∀ (segments : List Segment) (window : Piece),
    (cut segments window).map (·.map entry) = Segment.read segments window.text
  | [], window => by
      rw [cut, Segment.read]
      split
      · rfl
      · rfl
  | .literal l :: segments, window => by
      rw [cut, Segment.read, Piece.after?]
      cases l.isPrefixOf? window.text with
      | none => rfl
      | some rest => apply map_entry_cut segments
  | [.slot i], window => rfl
  | .slot i :: .slot j :: segments, window => by
      rw [cut, Segment.read, ← map_entry_cut (.slot j :: segments), Option.map_map, Option.map_map]
      rfl
  | .slot i :: .literal l :: segments, window => by
      rw [cut, Segment.read, Piece.splitAtFirst?]
      cases Text.splitAtFirst? l window.text with
      | none => rfl
      | some ab =>
          obtain ⟨item, rest⟩ := ab
          have hrest := map_entry_cut segments
            ⟨window.start + item.utf8Length + l.utf8Length, rest⟩
          dsimp only at hrest
          simp only [Option.map_some, Option.bind_some, ← hrest, Option.map_map]
          rfl

/-- Fillings are consistent when their texts agree. -/
theorem consistent_iff_agrees :
  consistent fs = true ↔ Reading.Agrees (fs.map entry)
  := by
  constructor
  · intro h i a b ha hb
    obtain ⟨f, hf, hfa⟩ := List.mem_map.mp ha
    obtain ⟨g, hg, hgb⟩ := List.mem_map.mp hb
    obtain ⟨hfi, rfl⟩ := Prod.mk.inj hfa
    obtain ⟨hgi, rfl⟩ := Prod.mk.inj hgb
    have htext := text_of_consistent h hf
    rw [hfi, ← hgi, text_of_consistent h hg] at htext
    exact (Option.some.inj htext).symm
  · intro h
    rw [consistent, List.all_eq_true]
    intro f hf
    obtain ⟨g, hg, hindex, hfirst⟩ := first?_of_mem hf
    have htext := h f.index g.piece.text f.piece.text
      (List.mem_map.mpr ⟨g, hg, by rw [entry, hindex]⟩) (List.mem_map_of_mem hf)
    simp [hfirst, htext]

end Filling

namespace Template

variable {t : Template} {window : Piece}

/-- A template captures something in a window when it reads the window and the slots of one
index are read alike. -/
theorem isSome_captures?_iff :
  (t.captures? window).isSome = true
    ↔ ∃ r, Segment.read t.segments window.text = some r ∧ r.Agrees
  := by
  rw [captures?]
  constructor
  · intro h
    rw [Option.isSome_bind, Option.any_eq_true] at h
    obtain ⟨fs, hcut, h⟩ := h
    split at h
    case isFalse => cases h
    rename_i hconsistent
    use fs.map Filling.entry
    rw [← Filling.map_entry_cut, hcut]
    exact ⟨rfl, Filling.consistent_iff_agrees.mp hconsistent⟩
  · rintro ⟨r, hread, hagrees⟩
    have hindices := Segment.map_fst_of_read hread
    rw [← Filling.map_entry_cut] at hread
    obtain ⟨fs, hcut, rfl⟩ := Option.map_eq_some_iff.mp hread
    rw [List.map_map] at hindices
    rw [hcut, Option.bind_some, if_pos (Filling.consistent_iff_agrees.mpr hagrees),
      Option.isSome_iff_exists]
    apply exists_mapM_first?
    intro i hi
    have hslot := Segment.mem_indices_iff.mpr (t.slot_mem_of_lt_arity hi)
    rw [← hindices, List.mem_map] at hslot
    obtain ⟨f, hf, rfl⟩ := hslot
    obtain ⟨g, -, -, hfirst⟩ := Filling.first?_of_mem hf
    use g.piece, hfirst

/-- Where every index occurs once, a template captures something in what it reads. -/
theorem isSome_captures?_of_nodup (h : (Segment.indices t.segments).Nodup) :
  (t.captures? window).isSome = (Segment.read t.segments window.text).isSome
  := by
  rw [Bool.eq_iff_iff, isSome_captures?_iff, Option.isSome_iff_exists]
  constructor
  · rintro ⟨r, hread, -⟩
    use r
  · rintro ⟨r, hread⟩
    use r, hread
    rw [← Segment.map_fst_of_read hread] at h
    intro i a b ha hb
    have hab := List.inj_on_of_nodup_map h ha hb rfl
    rw [(Prod.mk.inj hab).2]

end Template

end Diagnostics
