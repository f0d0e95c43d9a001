import Diagnostics.Proofs.Matching.Filling
import Diagnostics.Proofs.Template.Measures

/-!
# Accounts

`t.Accounts items text` says that `text` is the rendering of the template `t` with `items`, one
for each slot, and that this rendering is tight.  A template matches a span exactly when some
items account for the text inside it, and these are then the captured ones, at the places where
the rendering puts them.
-/

namespace Diagnostics

namespace Template

/-- Every index below the arity is the index of a slot. -/
theorem slot_mem_of_lt_arity (t : Template) {i : Nat} (h : i < t.arity) :
  .slot i ∈ t.segments
  := by
  have hfault := t.fault?_eq
  rw [fault?] at hfault
  split at hfault
  case h_1 => cases hfault
  rw [Option.map_eq_none_iff, List.find?_eq_none] at hfault
  have := hfault i (List.mem_range.mpr h)
  rw [← Segment.mem_indices_iff]
  simpa using this

end Template

theorem mapM_eq_some_iff {α β : Type} {f : α → Option β} {l : List α} {r : List β} :
  l.mapM f = some r ↔ l.map f = r.map some
  := by
  induction l generalizing r with
  | nil => cases r <;> simp
  | cons a l ih =>
      cases r with
      | nil => simp [Option.bind_eq_some_iff]
      | cons b r => simp [Option.bind_eq_some_iff, ih]

/-- The captures list the first filling of every slot. -/
theorem mapM_first?_eq_some_iff {fs : List Filling} {n : Nat} {captures : List Piece} :
  (List.range n).mapM (Filling.first? fs) = some captures
    ↔ captures.length = n ∧ ∀ i < n, Filling.first? fs i = captures[i]?
  := by
  rw [mapM_eq_some_iff]
  constructor
  · intro h
    have hlength : captures.length = n := by simpa using congrArg List.length h.symm
    use hlength
    intro i hi
    have := congrArg (·[i]?) h
    simp only [List.getElem?_map, List.getElem?_range hi, Option.map_some] at this
    rw [List.getElem?_eq_getElem (hlength ▸ hi)] at this ⊢
    exact Option.some.inj this
  · rintro ⟨rfl, h⟩
    apply List.ext_getElem
    · simp
    · intro i _ hi
      rw [List.length_map] at hi
      simp [h i hi]

/-- Every slot has a first filling when each of them has some filling. -/
theorem exists_mapM_first? {fs : List Filling} {n : Nat}
    (h : ∀ i < n, ∃ p, Filling.first? fs i = some p) :
  ∃ captures, (List.range n).mapM (Filling.first? fs) = some captures
  := by
  use (List.range n).map fun i => (Filling.first? fs i).getD default
  rw [mapM_eq_some_iff, List.map_map]
  apply List.map_congr_left
  intro i hi
  obtain ⟨p, hp⟩ := h i (List.mem_range.mp hi)
  rw [hp, Function.comp_apply, hp, Option.getD_some]

namespace Template

open Segment (Tight)

variable {t : Template} {items : List Text} {text : Text} {window : Piece} {captures : List Piece}

/-- The items account for a text: it is the rendering of the template with them, one for each
slot, and no other reading of it from left to right is possible. -/
structure Accounts (t : Template) (items : List Text) (text : Text) : Prop where
  length_items : items.length = t.arity
  render_items : t.render items = text
  /-- A slot in front of a slot has an empty item. -/
  adjacent : ∀ i j, [.slot i, .slot j] <:+: t.segments → items[i]? = some []
  /-- In the item of a slot in front of a literal, followed by that literal, the first occurrence
  of the literal is the one at the end. -/
  closed : ∀ i l item, [.slot i, .literal l] <:+: t.segments → items[i]? = some item →
    item.IsClosedBy l

/-- With an item for each slot, no slot is left as a placeholder. -/
theorem getElem?_of_slot_mem (hlength : items.length = t.arity) {i : Nat}
    (h : .slot i ∈ t.segments) :
  items[i]? = some (Segment.render items (.slot i))
  := by
  have hi : i < items.length := hlength ▸ Segment.lt_arity_of_mem h
  simp [Segment.render, List.getElem?_eq_getElem hi]

theorem accounts_iff :
  t.Accounts items text
    ↔ items.length = t.arity ∧ t.render items = text ∧ Tight items t.segments
  := by
  constructor
  · rintro ⟨hlength, hrender, hadjacent, hclosed⟩
    use hlength, hrender
    constructor
    · intro i j h
      have hi := getElem?_of_slot_mem hlength (h.subset List.mem_cons_self)
      exact Option.some.inj (hi.symm.trans (hadjacent i j h))
    · intro i l h
      apply hclosed i l _ h (getElem?_of_slot_mem hlength (h.subset List.mem_cons_self))
  · rintro ⟨hlength, hrender, hadjacent, hclosed⟩
    use hlength, hrender
    · intro i j h
      rw [getElem?_of_slot_mem hlength (h.subset List.mem_cons_self), hadjacent i j h]
    · intro i l item h hitem
      rw [getElem?_of_slot_mem hlength (h.subset List.mem_cons_self)] at hitem
      obtain rfl := Option.some.inj hitem
      apply hclosed i l h

theorem captures?_eq_some_iff :
  t.captures? window = some captures ↔
    ∃ fs, Filling.cut t.segments window = some fs ∧ Filling.consistent fs = true
      ∧ captures.length = t.arity ∧ ∀ i < t.arity, Filling.first? fs i = captures[i]?
  := by
  simp only [captures?, Option.bind_eq_some_iff, Option.ite_none_right_eq_some,
    mapM_first?_eq_some_iff]

/-- The captured texts account for the window. -/
theorem accounts_of_captures? (h : t.captures? window = some captures) :
  t.Accounts (captures.map (·.text)) window.text
  := by
  obtain ⟨fs, hcut, hconsistent, hlength, hfirst⟩ := captures?_eq_some_iff.mp h
  rw [← List.length_map (f := (·.text))] at hlength
  have hitems : ∀ f ∈ fs, f.HoldsItem (captures.map (·.text)) := by
    intro f hf
    have hslot := Filling.slot_mem_of_cut hcut hf
    have htext := Filling.text_of_consistent hconsistent hf
    rw [hfirst _ (Segment.lt_arity_of_mem hslot), ← List.getElem?_map,
      getElem?_of_slot_mem hlength hslot] at htext
    exact (Option.some.inj htext).symm
  obtain ⟨htext, htight⟩ := Filling.tight_of_cut hcut hitems
  apply accounts_iff.mpr ⟨hlength, htext.symm, htight⟩

/-- The first filling of a slot below the arity, in the rendering with some items. -/
theorem first?_placed_of_lt_arity (items : List Text) (n : Nat) {i : Nat} (hi : i < t.arity) :
  ∃ before after, t.segments = before ++ .slot i :: after ∧ .slot i ∉ before
    ∧ Filling.first? (Filling.placed items n t.segments) i
      = some ⟨n + Text.utf8Length (before.flatMap (Segment.render items)),
          Segment.render items (.slot i)⟩
  := by
  obtain ⟨before, after, hsegments, hfirst⟩ :=
    List.eq_append_cons_of_mem (t.slot_mem_of_lt_arity hi)
  use before, after, hsegments, hfirst
  rw [hsegments]
  apply Filling.first?_placed hfirst

/-- Items that account for a window are captured. -/
theorem captures?_of_accounts (h : t.Accounts items window.text) :
  ∃ captures, t.captures? window = some captures ∧ captures.map (·.text) = items
  := by
  obtain ⟨hlength, hrender, htight⟩ := accounts_iff.mp h
  have hcut := Filling.cut_of_tight hrender.symm htight
  have hconsistent := Filling.consistent_placed items window.start t.segments
  have hplaced : ∀ i < t.arity,
      ∃ n, Filling.first? (Filling.placed items window.start t.segments) i
        = some ⟨n, Segment.render items (.slot i)⟩ := by
    intro i hi
    obtain ⟨_, _, -, -, hfirst⟩ := first?_placed_of_lt_arity items window.start hi
    exact ⟨_, hfirst⟩
  obtain ⟨captures, hmapM⟩ := exists_mapM_first? fun i hi => by
    obtain ⟨_, hplace⟩ := hplaced i hi
    exact ⟨_, hplace⟩
  obtain ⟨hcaptures, hfirst⟩ := mapM_first?_eq_some_iff.mp hmapM
  use captures, captures?_eq_some_iff.mpr ⟨_, hcut, hconsistent, hcaptures, hfirst⟩
  apply List.ext_getElem?
  intro i
  rw [List.getElem?_map]
  by_cases hi : i < t.arity
  · obtain ⟨_, hplace⟩ := hplaced i hi
    rw [← hfirst i hi, hplace, getElem?_of_slot_mem hlength (t.slot_mem_of_lt_arity hi)]
    rfl
  · rw [List.getElem?_eq_none (by omega), List.getElem?_eq_none (by omega)]
    rfl

/-- Every capture stands where the rendering with the captured texts puts the first slot of its
index. -/
theorem getElem?_captures (h : t.captures? window = some captures) {i : Nat} (hi : i < t.arity) :
  ∃ before after, t.segments = before ++ .slot i :: after ∧ .slot i ∉ before
    ∧ captures[i]? = some
      ⟨window.start
        + Text.utf8Length (before.flatMap (Segment.render (captures.map (·.text)))),
        Segment.render (captures.map (·.text)) (.slot i)⟩
  := by
  obtain ⟨-, hrender, htight⟩ := accounts_iff.mp (accounts_of_captures? h)
  have hplaced := Filling.cut_of_tight hrender.symm htight
  obtain ⟨fs, hcut, -, -, hfirst⟩ := captures?_eq_some_iff.mp h
  obtain rfl := Option.some.inj (hcut.symm.trans hplaced)
  rw [← hfirst i hi]
  apply first?_placed_of_lt_arity _ window.start hi

/-! ### Matching a span -/

theorem captures?_of_segments_eq_nil (h : t.segments = []) :
  t.captures? window = if window.text.isEmpty then some [] else none
  := by
  have harity : t.arity = 0 := by
    rw [arity, h]
    rfl
  rw [captures?, h, harity, Filling.cut]
  cases window.text.isEmpty
  · rfl
  · rfl

/-- Matching a template with the span of a piece is capturing the slots in the piece. -/
theorem matchSpan_span {source : Text} (h : window.IsPieceOf source) :
  t.matchSpan source window.span = (t.captures? window).elim .unmatched .matched
  := by
  rw [matchSpan, if_neg (by simp [Piece.span, Piece.stop]), Piece.piece?_span h]
  by_cases hsegments : t.segments = []
  · rw [if_pos (by rw [hsegments]; rfl), captures?_of_segments_eq_nil hsegments]
    rw [Piece.isEmpty_span]
    cases window.text.isEmpty
    · rfl
    · rfl
  · rw [if_neg (by simpa using hsegments)]
    dsimp only
    cases t.captures? window
    · rfl
    · rfl

theorem matchSpan_eq_matched_iff {source : Text} (h : window.IsPieceOf source) :
  t.matchSpan source window.span = .matched captures ↔ t.captures? window = some captures
  := by
  rw [matchSpan_span h]
  cases t.captures? window <;> simp

theorem matchSpan_eq_unmatched_iff {source : Text} (h : window.IsPieceOf source) :
  t.matchSpan source window.span = .unmatched ↔ t.captures? window = none
  := by
  rw [matchSpan_span h]
  cases t.captures? window <;> simp

/-- Matching a span finds the items that account for the text inside it, fails exactly when no
items do, and places every capture where the rendering has the first slot of its index. -/
theorem matchSpan_iff_accounts (t : Template) {source : Text} {w : Span}
    (hstart : source.IsBoundary w.start) (hstop : source.IsBoundary w.stop)
    (hle : w.start ≤ w.stop) :
  (∀ items, (∃ captures, t.matchSpan source w = .matched captures
        ∧ captures.map (·.text) = items)
      ↔ ∃ text, source.slice? w = some text ∧ t.Accounts items text)
    ∧ (t.matchSpan source w = .unmatched
      ↔ ¬ ∃ items text, source.slice? w = some text ∧ t.Accounts items text)
    ∧ ∀ captures, t.matchSpan source w = .matched captures → ∀ i < t.arity,
      ∃ before after capture, t.segments = before ++ .slot i :: after ∧ .slot i ∉ before
        ∧ captures[i]? = some capture
        ∧ capture.span.start = w.start
          + Text.utf8Length (before.flatMap (Segment.render (captures.map (·.text))))
        ∧ capture.span.stop = capture.span.start + capture.text.utf8Length
  := by
  obtain ⟨window, hwindow, rfl⟩ := Text.exists_piece hstart hstop hle
  simp only [matchSpan_eq_matched_iff hwindow, matchSpan_eq_unmatched_iff hwindow,
    Piece.slice?_span hwindow, Option.some.injEq, exists_eq_left']
  constructor
  · intro items
    constructor
    · rintro ⟨captures, hcaptures, rfl⟩
      apply accounts_of_captures? hcaptures
    · apply captures?_of_accounts
  constructor
  · rw [Option.eq_none_iff_forall_ne_some]
    constructor
    · rintro hnone ⟨items, haccounts⟩
      obtain ⟨captures, hcaptures, -⟩ := captures?_of_accounts haccounts
      apply hnone captures hcaptures
    · intro hnone captures hcaptures
      apply hnone ⟨_, accounts_of_captures? hcaptures⟩
  · intro captures hcaptures i hi
    obtain ⟨before, after, hsegments, hfirst, hcapture⟩ := getElem?_captures hcaptures hi
    exact ⟨before, after, _, hsegments, hfirst, hcapture, rfl, rfl⟩

/-- In `éaaa` the template `{0}aa` does not match what follows the first letter, although that is
its rendering with `a`: the literal occurs too early. -/
theorem matchSpan_iff_accounts_overlap :
  Text.IsBoundary "éaaa".toList 2 ∧ Text.IsBoundary "éaaa".toList 5
    ∧ let t : Template :=
        ⟨1, .error, "{0}aa".toList, [.slot 0, .literal "aa".toList], by decide, by decide⟩
      t.render ["a".toList] = "aaa".toList ∧ ¬ t.Accounts ["a".toList] "aaa".toList
  := by
  have hstart : Text.IsBoundary "éaaa".toList 2 := ⟨"é".toList, "aaa".toList, by decide⟩
  have hstop : Text.IsBoundary "éaaa".toList 5 := ⟨"éaaa".toList, [], by decide⟩
  use hstart, hstop
  intro t
  use by decide
  intro haccounts
  have h := matchSpan_iff_accounts t (w := ⟨2, 5⟩) hstart hstop (by decide)
  apply h.2.1.mp (by decide)
  use ["a".toList], "aaa".toList, by decide

end Template

end Diagnostics
