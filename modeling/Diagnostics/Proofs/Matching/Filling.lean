import Diagnostics.Matching.Filling
import Diagnostics.Proofs.Text.Cut
import Diagnostics.Proofs.Text.Occurrence

/-!
# Fillings and renderings

Segments are tight with items when reading their rendering from left to right leaves no other
choice: a slot in front of a slot has an empty item, and the item of a slot in front of a literal
is closed by that literal.  A window is cut into fillings that hold the items exactly when it is
the rendering and the segments are tight, and the fillings then stand where the rendering
places them.
-/

namespace Diagnostics

namespace Piece

theorem after?_eq_some_iff {l : Text} {p q : Piece} :
  p.after? l = some q ↔ p.text = l ++ q.text ∧ q.start = p.start + l.utf8Length
  := by
  obtain ⟨start, text⟩ := q
  simp only [after?, Option.map_eq_some_iff, Text.isPrefixOf?_eq_some_iff, mk.injEq]
  constructor
  · rintro ⟨rest, htext, rfl, rfl⟩
    exact ⟨htext, rfl⟩
  · rintro ⟨htext, rfl⟩
    use text

theorem splitAtFirst?_eq_some_iff {l : Text} {p a b : Piece} :
  p.splitAtFirst? l = some (a, b) ↔
    p.text = a.text ++ l ++ b.text ∧ a.text.IsClosedBy l ∧ a.start = p.start
      ∧ b.start = p.start + a.text.utf8Length + l.utf8Length
  := by
  obtain ⟨astart, atext⟩ := a
  obtain ⟨bstart, btext⟩ := b
  simp only [splitAtFirst?, Option.map_eq_some_iff, Prod.exists, Prod.mk.injEq, mk.injEq,
    Text.splitAtFirst?_eq_some_iff]
  constructor
  · rintro ⟨x, y, ⟨htext, hclosed⟩, ⟨rfl, rfl⟩, rfl, rfl⟩
    exact ⟨htext, hclosed, rfl, rfl⟩
  · rintro ⟨htext, hclosed, rfl, rfl⟩
    use atext, btext

end Piece

namespace Segment

variable {items : List Text} {segments : List Segment}

/-! ### Tight segments -/

/-- The items leave the slots of some segments no other choice. -/
structure Tight (items : List Text) (segments : List Segment) : Prop where
  /-- A slot in front of a slot is empty. -/
  adjacent : ∀ i j, [.slot i, .slot j] <:+: segments → render items (.slot i) = []
  /-- The item of a slot in front of a literal is closed by the literal. -/
  closed : ∀ i l, [.slot i, .literal l] <:+: segments → (render items (.slot i)).IsClosedBy l

theorem pair_infix_cons {a b s : Segment} :
  [a, b] <:+: s :: segments ↔ (a = s ∧ segments.head? = some b) ∨ [a, b] <:+: segments
  := by
  rw [List.infix_cons_iff, List.cons_prefix_cons]
  cases segments with
  | nil => simp
  | cons t segments => simp [List.cons_prefix_cons, eq_comm]

theorem tight_nil :
  Tight items []
  := by
  constructor
  · simp
  · simp

/-- Segments are tight when the first of them suits the second and the others are tight. -/
theorem tight_cons_iff {s : Segment} :
  Tight items (s :: segments) ↔
    (∀ i j, s = slot i → segments.head? = some (slot j) → render items (slot i) = [])
      ∧ (∀ i l, s = slot i → segments.head? = some (literal l) →
        (render items (slot i)).IsClosedBy l)
      ∧ Tight items segments
  := by
  constructor
  · rintro ⟨hadjacent, hclosed⟩
    constructor
    · intro i j hs hj
      apply hadjacent i j (pair_infix_cons.mpr (.inl ⟨hs.symm, hj⟩))
    constructor
    · intro i l hs hl
      apply hclosed i l (pair_infix_cons.mpr (.inl ⟨hs.symm, hl⟩))
    · constructor
      · intro i j h
        apply hadjacent i j (pair_infix_cons.mpr (.inr h))
      · intro i l h
        apply hclosed i l (pair_infix_cons.mpr (.inr h))
  · rintro ⟨hslot, hliteral, hadjacent, hclosed⟩
    constructor
    · intro i j h
      obtain ⟨hs, hj⟩ | h := pair_infix_cons.mp h
      · apply hslot i j hs.symm hj
      · apply hadjacent i j h
    · intro i l h
      obtain ⟨hs, hl⟩ | h := pair_infix_cons.mp h
      · apply hliteral i l hs.symm hl
      · apply hclosed i l h

theorem tight_literal_cons {l : Text} :
  Tight items (literal l :: segments) ↔ Tight items segments
  := by
  simp [tight_cons_iff]

theorem tight_slot_singleton (i : Nat) :
  Tight items [slot i]
  := by
  simp [tight_cons_iff, tight_nil]

theorem tight_slot_slot {i j : Nat} :
  Tight items (slot i :: slot j :: segments)
    ↔ render items (slot i) = [] ∧ Tight items (slot j :: segments)
  := by
  rw [tight_cons_iff]
  simp

theorem tight_slot_literal {i : Nat} {l : Text} :
  Tight items (slot i :: literal l :: segments)
    ↔ (render items (slot i)).IsClosedBy l ∧ Tight items segments
  := by
  rw [tight_cons_iff, tight_literal_cons]
  simp

end Segment

namespace Filling

open Segment (Tight)

variable {items : List Text}

/-! ### The fillings of a rendering -/

/-- The fillings of some segments as their rendering places them, from the offset `n` on. -/
def placed (items : List Text) : Nat → List Segment → List Filling
  | _, [] => []
  | n, .literal l :: segments => placed items (n + l.utf8Length) segments
  | n, .slot i :: segments =>
    let item := Segment.render items (.slot i)
    ⟨i, n, item⟩ :: placed items (n + item.utf8Length) segments

/-- A slot is filled with the item of its index. -/
def HoldsItem (items : List Text) (f : Filling) : Prop :=
  f.piece.text = Segment.render items (.slot f.index)

theorem placed_slot_cons {n i : Nat} {segments : List Segment} :
  placed items n (.slot i :: segments)
    = ⟨i, n, Segment.render items (.slot i)⟩
      :: placed items (n + Text.utf8Length (Segment.render items (.slot i))) segments
  := rfl

theorem holdsItem_of_mem_placed {n : Nat} {segments : List Segment} {f : Filling}
    (h : f ∈ placed items n segments) :
  f.HoldsItem items
  := by
  fun_induction placed items n segments with
  | case1 => cases h
  | case2 n l segments ih => apply ih h
  | case3 n i segments item ih =>
      rcases List.mem_cons.mp h with rfl | h
      · rfl
      · apply ih h

/-- A slot in front of a literal takes what stands before the first occurrence of it. -/
theorem cut_slot_literal {i : Nat} {l : Text} {segments : List Segment} {window item rest : Piece}
    (h : window.splitAtFirst? l = some (item, rest)) :
  cut (.slot i :: .literal l :: segments) window = (cut segments rest).map (⟨i, item⟩ :: ·)
  := by
  rw [cut, h]
  rfl

/-- A tight rendering is cut into the fillings that it places. -/
theorem cut_of_tight :
  ∀ {segments : List Segment} {window : Piece},
    window.text = segments.flatMap (Segment.render items) → Tight items segments →
    cut segments window = some (placed items window.start segments)
  | [], window, htext, _ => by
      have hempty : window.text = [] := htext
      simp [cut, placed, hempty]
  | .literal l :: segments, window, htext, htight => by
      rw [List.flatMap_cons] at htext
      have hafter := Piece.after?_eq_some_iff (l := l)
        (q := ⟨_, segments.flatMap (Segment.render items)⟩) |>.mpr ⟨htext, rfl⟩
      rw [cut, hafter, Option.bind_some]
      apply cut_of_tight rfl (Segment.tight_literal_cons.mp htight)
  | [.slot i], ⟨start, text⟩, htext, _ => by
      have hitem : text = Segment.render items (.slot i) := by simpa using htext
      rw [cut, placed_slot_cons, hitem, placed]
  | .slot i :: .slot j :: segments, window, htext, htight => by
      obtain ⟨hempty, htight⟩ := Segment.tight_slot_slot.mp htight
      rw [List.flatMap_cons, hempty, List.nil_append] at htext
      rw [cut, cut_of_tight htext htight, placed_slot_cons (i := i), hempty]
      rfl
  | .slot i :: .literal l :: segments, window, htext, htight => by
      obtain ⟨hclosed, htight⟩ := Segment.tight_slot_literal.mp htight
      have hsplit := Piece.splitAtFirst?_eq_some_iff (l := l) (p := window)
        (a := ⟨window.start, Segment.render items (.slot i)⟩)
        (b := ⟨_, segments.flatMap (Segment.render items)⟩)
        |>.mpr ⟨htext.trans (List.append_assoc _ _ _).symm, hclosed, rfl, rfl⟩
      rw [cut_slot_literal hsplit, cut_of_tight rfl htight]
      rfl

/-- A window that is cut into fillings with the items is their rendering, and it is tight. -/
theorem tight_of_cut :
  ∀ {segments : List Segment} {window : Piece} {fs : List Filling},
    cut segments window = some fs → (∀ f ∈ fs, f.HoldsItem items) →
    window.text = segments.flatMap (Segment.render items) ∧ Tight items segments
  | [], window, fs, hcut, _ => by
      rw [cut, Option.ite_none_right_eq_some, List.isEmpty_iff] at hcut
      exact ⟨hcut.1, Segment.tight_nil⟩
  | .literal l :: segments, window, fs, hcut, hitems => by
      obtain ⟨rest, hafter, hrest⟩ := Option.bind_eq_some_iff.mp hcut
      obtain ⟨htext, -⟩ := Piece.after?_eq_some_iff.mp hafter
      obtain ⟨hresttext, htight⟩ := tight_of_cut hrest hitems
      rw [htext, hresttext]
      exact ⟨rfl, Segment.tight_literal_cons.mpr htight⟩
  | [.slot i], window, fs, hcut, hitems => by
      obtain rfl := Option.some.inj hcut
      have hitem : window.text = Segment.render items (.slot i) :=
        hitems _ (List.mem_singleton_self _)
      exact ⟨by simpa using hitem, Segment.tight_slot_singleton i⟩
  | .slot i :: .slot j :: segments, window, fs, hcut, hitems => by
      obtain ⟨fs, htail, rfl⟩ := Option.map_eq_some_iff.mp hcut
      obtain ⟨hi, hitems⟩ := List.forall_mem_cons.mp hitems
      obtain ⟨htext, htight⟩ := tight_of_cut htail hitems
      have hempty : Segment.render items (.slot i) = [] := hi.symm
      rw [List.flatMap_cons, hempty]
      exact ⟨htext, Segment.tight_slot_slot.mpr ⟨hempty, htight⟩⟩
  | .slot i :: .literal l :: segments, window, fs, hcut, hitems => by
      obtain ⟨⟨item, rest⟩, hsplit, hcut⟩ := Option.bind_eq_some_iff.mp hcut
      obtain ⟨fs, htail, rfl⟩ := Option.map_eq_some_iff.mp hcut
      obtain ⟨htext, hclosed, -, -⟩ := Piece.splitAtFirst?_eq_some_iff.mp hsplit
      obtain ⟨hi, hitems⟩ := List.forall_mem_cons.mp hitems
      obtain ⟨hresttext, htight⟩ := tight_of_cut htail hitems
      have hitem : Segment.render items (.slot i) = item.text := hi.symm
      rw [List.flatMap_cons, List.flatMap_cons, hitem, htext, hresttext]
      exact ⟨List.append_assoc _ _ _, Segment.tight_slot_literal.mpr ⟨hitem ▸ hclosed, htight⟩⟩

/-- The first filling of a slot stands where the rendering puts the first slot of its index. -/
theorem first?_placed {n i : Nat} {before after : List Segment} (hfirst : .slot i ∉ before) :
  first? (placed items n (before ++ .slot i :: after)) i
    = some ⟨n + Text.utf8Length (before.flatMap (Segment.render items)),
        Segment.render items (.slot i)⟩
  := by
  induction before generalizing n with
  | nil => simp [placed_slot_cons, first?, Text.utf8Length]
  | cons s before ih =>
      rw [List.mem_cons, not_or] at hfirst
      rw [List.flatMap_cons, Text.utf8Length_append, ← Nat.add_assoc, ← ih hfirst.2]
      cases s with
      | literal l => rfl
      | slot j =>
          have hji : j ≠ i := fun h => hfirst.1 (h ▸ rfl)
          rw [List.cons_append, placed_slot_cons, first?,
            List.find?_cons_of_neg (by simpa using hji)]
          rfl

theorem first?_of_mem {fs : List Filling} {f : Filling} (hf : f ∈ fs) :
  ∃ g ∈ fs, g.index = f.index ∧ first? fs f.index = some g.piece
  := by
  have hsome : (fs.find? fun g => g.index = f.index).isSome := by
    rw [List.find?_isSome]
    exact ⟨f, hf, by simp⟩
  obtain ⟨g, hg⟩ := Option.isSome_iff_exists.mp hsome
  use g, List.mem_of_find?_eq_some hg, by simpa using List.find?_some hg
  rw [first?, hg]
  rfl

/-- Slots that are filled with the items of their indices agree. -/
theorem consistent_of_holdsItem {fs : List Filling} (h : ∀ f ∈ fs, f.HoldsItem items) :
  consistent fs = true
  := by
  rw [consistent, List.all_eq_true]
  intro f hf
  obtain ⟨g, hg, hindex, hfirst⟩ := first?_of_mem hf
  have htext : g.piece.text = f.piece.text := by rw [h g hg, h f hf, hindex]
  simp [hfirst, htext]

theorem consistent_placed (items : List Text) (n : Nat) (segments : List Segment) :
  consistent (placed items n segments) = true
  := by
  apply consistent_of_holdsItem
  intro f hf
  apply holdsItem_of_mem_placed hf

theorem text_of_consistent {fs : List Filling} (h : consistent fs = true) {f : Filling}
    (hf : f ∈ fs) :
  (first? fs f.index).map (·.text) = some f.piece.text
  := by
  have hall := List.all_eq_true.mp h f hf
  obtain ⟨p, hp, htext⟩ := (Option.any_eq_true _ _).mp hall
  rw [hp, Option.map_some, of_decide_eq_true htext]

/-- A filling belongs to one of the slots. -/
theorem slot_mem_of_cut :
  ∀ {segments : List Segment} {window : Piece} {fs : List Filling} {f : Filling},
    cut segments window = some fs → f ∈ fs → .slot f.index ∈ segments
  | [], _, _, _, hcut, hf => by
      obtain ⟨-, hfs⟩ := Option.ite_none_right_eq_some.mp hcut
      rw [← Option.some.inj hfs] at hf
      cases hf
  | .literal _ :: _, _, _, _, hcut, hf => by
      obtain ⟨rest, -, hrest⟩ := Option.bind_eq_some_iff.mp hcut
      apply List.mem_cons_of_mem _ (slot_mem_of_cut hrest hf)
  | [.slot i], _, _, _, hcut, hf => by
      obtain rfl := Option.some.inj hcut
      obtain rfl := List.mem_singleton.mp hf
      apply List.mem_singleton_self
  | .slot i :: .slot j :: segments, _, _, _, hcut, hf => by
      obtain ⟨fs, htail, rfl⟩ := Option.map_eq_some_iff.mp hcut
      rcases List.mem_cons.mp hf with rfl | hf
      · apply List.mem_cons_self
      · apply List.mem_cons_of_mem _ (slot_mem_of_cut htail hf)
  | .slot i :: .literal l :: segments, _, _, _, hcut, hf => by
      obtain ⟨⟨item, rest⟩, -, hcut⟩ := Option.bind_eq_some_iff.mp hcut
      obtain ⟨fs, htail, rfl⟩ := Option.map_eq_some_iff.mp hcut
      rcases List.mem_cons.mp hf with rfl | hf
      · apply List.mem_cons_self
      · apply List.mem_cons_of_mem _ (List.mem_cons_of_mem _ (slot_mem_of_cut htail hf))

end Filling

end Diagnostics
