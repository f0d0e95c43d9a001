import Diagnostics.Proofs.Matching.Reading
import Diagnostics.Proofs.Template.Segments

/-!
# The least reading

Segments admit a reading of a text when the literals and what the reading has for the slots, put
together, are the text.  Among all readings that are admitted, the one from left to right has the
shortest slots: every difference in length is in its favour where it first shows.  Behind a slot
nothing is lost by taking the first occurrence of a literal, as what is left of the text then ends
with what any other occurrence leaves.  A template with a slot at its end therefore matches whatever
it can be rendered to, as long as no index occurs twice.
-/

namespace Diagnostics

namespace Reading

/-- The number of bytes in each slot, from left to right. -/
def lengths (r : Reading) : List Nat := r.map fun e => e.2.utf8Length

end Reading

namespace Segment

/-- The readings of a text that some segments admit: literals stand in the text as they are, and
each slot is filled with any text. -/
inductive Admits : List Segment → Text → Reading → Prop where
  | nil : Admits [] [] []
  | literal {segments : List Segment} {s : Text} {r : Reading} (l : Text) (h : Admits segments s r) :
    Admits (.literal l :: segments) (l ++ s) r
  | slot {segments : List Segment} {s : Text} {r : Reading} (i : Nat) (a : Text)
    (h : Admits segments s r) : Admits (.slot i :: segments) (a ++ s) ((i, a) :: r)

variable {segments : List Segment} {s : Text} {r other : Reading}

theorem admits_of_read (h : read segments s = some r) :
  Admits segments s r
  := by
  fun_induction read segments s generalizing r with
  | case1 s hs =>
      obtain rfl := Option.some.inj h
      rw [List.isEmpty_iff.mp hs]
      apply Admits.nil
  | case2 => cases h
  | case3 l segments s ih =>
      obtain ⟨rest, hprefix, hrest⟩ := Option.bind_eq_some_iff.mp h
      rw [Text.isPrefixOf?_eq_some_iff.mp hprefix]
      apply Admits.literal l (ih rest hrest)
  | case4 i s =>
      obtain rfl := Option.some.inj h
      have hslot := Admits.nil.slot i s
      rwa [List.append_nil] at hslot
  | case5 i j segments s ih =>
      obtain ⟨r, hr, rfl⟩ := Option.map_eq_some_iff.mp h
      apply (ih hr).slot i []
  | case6 i l segments s ih =>
      obtain ⟨⟨item, rest⟩, hsplit, hrest⟩ := Option.bind_eq_some_iff.mp h
      obtain ⟨r, hr, rfl⟩ := Option.map_eq_some_iff.mp hrest
      rw [(Text.splitAtFirst?_eq_some_iff.mp hsplit).1, List.append_assoc]
      apply ((ih rest hr).literal l).slot i item

/-! ### The shortest slots -/

/-- A slot with more text in it is longer, and one with the same text leaves it to the slots behind
it. -/
theorem eq_or_lex_cons {i : Nat} {a m : Text}
    (h : m = [] → other = r ∨ List.Lex (· < ·) r.lengths other.lengths) :
  (i, a ++ m) :: other = (i, a) :: r
    ∨ List.Lex (· < ·) (Reading.lengths ((i, a) :: r)) (Reading.lengths ((i, a ++ m) :: other))
  := by
  by_cases hm : m = []
  · subst hm
    rw [List.append_nil]
    rcases h rfl with rfl | hlex
    · exact .inl rfl
    · exact .inr (.cons hlex)
  · right
    apply List.Lex.rel
    show a.utf8Length < Text.utf8Length (a ++ m)
    simp [hm]

/-- Of all readings of a text that are admitted, the reading from left to right has the shortest
slots. -/
theorem eq_or_lex_of_read (h : read segments s = some r) (hother : Admits segments s other) :
  other = r ∨ List.Lex (· < ·) r.lengths other.lengths
  := by
  fun_induction read segments s generalizing r other with
  | case1 s hs =>
      cases hother
      exact .inl (Option.some.inj h)
  | case2 => cases h
  | case3 l segments s ih =>
      obtain ⟨rest, hprefix, hrest⟩ := Option.bind_eq_some_iff.mp h
      cases hother with
      | literal _ hother =>
          obtain rfl := List.append_cancel_left (Text.isPrefixOf?_eq_some_iff.mp hprefix)
          apply ih _ hrest hother
  | case4 i s =>
      cases hother with
      | slot _ a hother =>
          cases hother
          rw [List.append_nil] at h
          exact .inl (Option.some.inj h)
  | case5 i j segments s ih =>
      obtain ⟨r, hr, rfl⟩ := Option.map_eq_some_iff.mp h
      cases hother with
      | slot _ a hother =>
          apply eq_or_lex_cons (a := []) (m := a)
          rintro rfl
          apply ih hr hother
  | case6 i l segments s ih =>
      obtain ⟨⟨item, rest⟩, hsplit, hrest⟩ := Option.bind_eq_some_iff.mp h
      obtain ⟨r, hr, rfl⟩ := Option.map_eq_some_iff.mp hrest
      cases hother with
      | slot _ a hother =>
          cases hother with
          | @literal _ behind _ _ hother =>
              have hs : a ++ (l ++ behind) = a ++ l ++ behind := (List.append_assoc _ _ _).symm
              obtain ⟨_, _, hfirst, ⟨m, rfl⟩, -⟩ := Text.exists_splitAtFirst?_of_eq_append hs
              obtain ⟨rfl, rfl⟩ := Prod.mk.inj (Option.some.inj (hsplit.symm.trans hfirst))
              apply eq_or_lex_cons
              rintro rfl
              -- behind the same slot and literal stands the same text
              obtain ⟨htext, -⟩ := Text.splitAtFirst?_eq_some_iff.mp hsplit
              rw [List.append_nil, ← List.append_assoc] at htext
              obtain rfl := List.append_cancel_left htext
              apply ih _ hr hother

/-! ### Nothing is missed -/

/-- Behind a slot, segments with a slot at their end read every text that ends with one that they
admit a reading of. -/
theorem isSome_read_of_suffix :
  ∀ {i : Nat} {segments : List Segment} {s q : Text} {r : Reading},
    Separated (.slot i :: segments) → (∃ j, (slot i :: segments).getLast? = some (.slot j)) →
    Admits (.slot i :: segments) q r → q <:+ s → (read (.slot i :: segments) s).isSome = true
  | i, [], s, _, _, _, _, _, _ => rfl
  | i, .slot j :: segments, s, _, _, hseparated, hlast, hadmits, hsuffix => by
      cases hadmits with
      | slot _ a hadmits =>
          rw [read, Option.isSome_map]
          apply isSome_read_of_suffix hseparated.tail hlast hadmits
          apply (List.suffix_append a _).trans hsuffix
  | i, [.literal l], _, _, _, _, hlast, _, _ => by
      obtain ⟨j, hj⟩ := hlast
      cases hj
  | i, .literal l :: .literal k :: segments, _, _, _, hseparated, _, _, _ => by
      have := (List.isChain_cons_cons.mp hseparated.tail).1
      cases this
  | i, .literal l :: .slot j :: segments, s, _, _, hseparated, hlast, hadmits, hsuffix => by
      cases hadmits with
      | slot _ a hadmits =>
          cases hadmits with
          | @literal _ q _ _ hadmits =>
              obtain ⟨p, rfl⟩ := hsuffix
              have hs : p ++ (a ++ (l ++ q)) = p ++ a ++ l ++ q := by simp
              obtain ⟨item, rest, hsplit, -, hrest⟩ := Text.exists_splitAtFirst?_of_eq_append hs
              rw [read, hsplit, Option.bind_some, Option.isSome_map]
              apply isSome_read_of_suffix hseparated.tail.tail hlast hadmits hrest

/-- Separated segments with a slot at their end read every text that they admit a reading of. -/
theorem isSome_read_of_admits (hseparated : Separated segments)
    (hlast : ∃ i, segments.getLast? = some (.slot i)) (h : Admits segments s r) :
  (read segments s).isSome = true
  := by
  cases h with
  | nil => rfl
  | slot i a h => apply isSome_read_of_suffix hseparated hlast (h.slot i a) List.suffix_rfl
  | @literal segments s _ l h =>
      have hprefix : l.isPrefixOf? (l ++ s) = some s := Text.isPrefixOf?_eq_some_iff.mpr rfl
      rw [read, hprefix, Option.bind_some]
      cases h with
      | nil => rfl
      | slot i a h =>
          apply isSome_read_of_suffix hseparated.tail hlast (h.slot i a) List.suffix_rfl
      | literal k h =>
          have := (List.isChain_cons_cons.mp hseparated).1
          cases this

/-- A rendering admits the reading with the items in the slots. -/
theorem admits_flatMap_render (items : List Text) (segments : List Segment) :
  Admits segments (segments.flatMap (render items))
    ((indices segments).map fun i => (i, render items (.slot i)))
  := by
  induction segments with
  | nil => apply Admits.nil
  | cons s segments ih =>
      cases s with
      | literal l => apply ih.literal l
      | slot i => apply ih.slot i

end Segment

namespace Template

variable {t : Template} {window : Piece} {captures : List Piece}

/-- The readings of a text that a template admits: slots of one index are filled alike. -/
def Admits (t : Template) (s : Text) (r : Reading) : Prop :=
  Segment.Admits t.segments s r ∧ r.Agrees

/-- A rendering admits the reading with the items in the slots. -/
theorem admits_render (t : Template) (items : List Text) :
  t.Admits (t.render items)
    ((Segment.indices t.segments).map fun i => (i, Segment.render items (.slot i)))
  := by
  use Segment.admits_flatMap_render items t.segments
  intro i a b ha hb
  obtain ⟨_, -, ha⟩ := List.mem_map.mp ha
  obtain ⟨_, -, hb⟩ := List.mem_map.mp hb
  obtain ⟨rfl, rfl⟩ := Prod.mk.inj ha
  obtain ⟨rfl, rfl⟩ := Prod.mk.inj hb
  rfl

/-- What is captured is read from left to right. -/
theorem exists_read_of_captures? (h : t.captures? window = some captures) :
  ∃ r, Segment.read t.segments window.text = some r ∧ r.Agrees
    ∧ ∀ i a, (i, a) ∈ r → (captures[i]?).map (·.text) = some a
  := by
  obtain ⟨fs, hcut, hconsistent, -, hfirst⟩ := captures?_eq_some_iff.mp h
  use fs.map Filling.entry
  rw [← Filling.map_entry_cut, hcut]
  use rfl, Filling.consistent_iff_agrees.mp hconsistent
  intro i a he
  obtain ⟨f, hf, hentry⟩ := List.mem_map.mp he
  obtain ⟨rfl, rfl⟩ := Prod.mk.inj hentry
  rw [← hfirst _ (Segment.lt_arity_of_mem (Filling.slot_mem_of_cut hcut hf))]
  apply Filling.text_of_consistent hconsistent hf

/-- Where every index occurs once and a slot stands at the end, a template captures something in a
window when the text in it is one of its renderings. -/
theorem isSome_captures?_iff_exists_render (hnodup : (Segment.indices t.segments).Nodup)
    (hlast : ∃ i, t.segments.getLast? = some (.slot i)) :
  (t.captures? window).isSome = true
    ↔ ∃ items : List Text, items.length = t.arity ∧ t.render items = window.text
  := by
  constructor
  · intro h
    obtain ⟨captures, hcaptures⟩ := Option.isSome_iff_exists.mp h
    have haccounts := accounts_of_captures? hcaptures
    use captures.map (·.text), haccounts.length_items, haccounts.render_items
  · rintro ⟨items, -, hrender⟩
    rw [isSome_captures?_of_nodup hnodup, ← hrender]
    apply Segment.isSome_read_of_admits t.separated_segments hlast (t.admits_render items).1

/-- A template in which no index occurs twice and a slot stands at the end matches a span exactly
when the text inside it is one of its renderings: the first occurrence of a literal is never the
wrong one. -/
theorem matchSpan_iff_exists_render (t : Template) {source : Text} {w : Span}
    (hnodup : (Segment.indices t.segments).Nodup)
    (hlast : ∃ i, t.segments.getLast? = some (.slot i))
    (hstart : source.IsBoundary w.start) (hstop : source.IsBoundary w.stop)
    (hle : w.start ≤ w.stop) :
  (∃ captures, t.matchSpan source w = .matched captures)
    ↔ ∃ items : List Text, items.length = t.arity ∧ source.slice? w = some (t.render items)
  := by
  obtain ⟨window, hwindow, rfl⟩ := Text.exists_piece hstart hstop hle
  simp only [matchSpan_eq_matched_iff hwindow, Piece.slice?_span hwindow, Option.some.injEq]
  rw [← Option.isSome_iff_exists, isSome_captures?_iff_exists_render hnodup hlast]
  simp only [eq_comm]

/-- The text `baaaéé` is a rendering with other items than those that are captured: the first `aa`
stands further to the front. -/
theorem matchSpan_iff_exists_render_overlap :
  let t : Template :=
    ⟨1, .error, "{1}aa{0}{2}é{3}".toList,
      [.slot 1, .literal "aa".toList, .slot 0, .slot 2, .literal "é".toList, .slot 3],
      by decide, by decide⟩
  let source : Text := "übaaaéé?".toList
  let items : List Text := ["".toList, "ba".toList, "".toList, "é".toList]
  (Segment.indices t.segments).Nodup ∧ t.segments.getLast? = some (.slot 3)
    ∧ source.IsBoundary 2 ∧ source.IsBoundary 10
    ∧ source.slice? ⟨2, 10⟩ = some (t.render items)
    ∧ ∃ captures, t.matchSpan source ⟨2, 10⟩ = .matched captures
  := by
  intro t source items
  have hnodup : (Segment.indices t.segments).Nodup := by decide
  have hlast : t.segments.getLast? = some (.slot 3) := rfl
  have hstart : source.IsBoundary 2 := ⟨"ü".toList, "baaaéé?".toList, by decide⟩
  have hstop : source.IsBoundary 10 := ⟨"übaaaéé".toList, "?".toList, by decide⟩
  have hslice : source.slice? ⟨2, 10⟩ = some (t.render items) := by decide
  use hnodup, hlast, hstart, hstop, hslice
  apply (t.matchSpan_iff_exists_render (w := ⟨2, 10⟩) hnodup ⟨3, hlast⟩ hstart hstop
    (by decide)).mpr
  use items, by decide

/-- Of all ways to divide the text inside a span among the segments of a template, matching takes
the one whose slots, from left to right, are the shortest: in every other one the first slot that
is not as long is longer. -/
theorem matchSpan_least (t : Template) {source : Text} {w : Span}
    (hstart : source.IsBoundary w.start) (hstop : source.IsBoundary w.stop)
    (hle : w.start ≤ w.stop) (h : t.matchSpan source w = .matched captures) :
  ∃ text chosen, source.slice? w = some text ∧ t.Admits text chosen
    ∧ (∀ i a, (i, a) ∈ chosen → (captures[i]?).map (·.text) = some a)
    ∧ ∀ other, t.Admits text other →
      other = chosen ∨ List.Lex (· < ·) chosen.lengths other.lengths
  := by
  obtain ⟨window, hwindow, rfl⟩ := Text.exists_piece hstart hstop hle
  rw [matchSpan_eq_matched_iff hwindow] at h
  obtain ⟨chosen, hread, hagrees, hcaptures⟩ := exists_read_of_captures? h
  use window.text, chosen, Piece.slice?_span hwindow, ⟨Segment.admits_of_read hread, hagrees⟩,
    hcaptures
  rintro other ⟨hother, -⟩
  apply Segment.eq_or_lex_of_read hread hother

/-- The text `éaéaéa` is divided among `{0}a{1}{0}a{2}` in two ways, in both of which the two slots
of index 0 are filled alike; the slots of the one that is taken have 2, 0, 2 and 3 bytes. -/
theorem matchSpan_least_recurring :
  let t : Template :=
    ⟨1, .error, "{0}a{1}{0}a{2}".toList,
      [.slot 0, .literal "a".toList, .slot 1, .slot 0, .literal "a".toList, .slot 2],
      by decide, by decide⟩
  let source : Text := "üéaéaéa".toList
  let items : List Text := ["é".toList, "éa".toList, "".toList]
  let other := (Segment.indices t.segments).map fun i => (i, Segment.render items (.slot i))
  let captures : List Piece := [⟨2, "é".toList⟩, ⟨5, "".toList⟩, ⟨8, "éa".toList⟩]
  source.IsBoundary 2 ∧ source.IsBoundary 11 ∧ t.matchSpan source ⟨2, 11⟩ = .matched captures
    ∧ t.Admits "éaéaéa".toList other ∧ other.map (·.2.utf8Length) = [2, 3, 2, 0]
    ∧ ∃ chosen, t.Admits "éaéaéa".toList chosen ∧ List.Lex (· < ·) chosen.lengths [2, 3, 2, 0]
  := by
  intro t source items other captures
  have hstart : source.IsBoundary 2 := ⟨"ü".toList, "éaéaéa".toList, by decide⟩
  have hstop : source.IsBoundary 11 := ⟨"üéaéaéa".toList, [], by decide⟩
  have hmatched : t.matchSpan source ⟨2, 11⟩ = .matched captures := by decide
  have hrender : t.render items = "éaéaéa".toList := by decide
  have hother : t.Admits "éaéaéa".toList other := hrender ▸ t.admits_render items
  have hlengths : other.map (·.2.utf8Length) = [2, 3, 2, 0] := by decide
  use hstart, hstop, hmatched, hother, hlengths
  obtain ⟨text, chosen, htext, hchosen, hcaptures, hleast⟩ :=
    t.matchSpan_least (w := ⟨2, 11⟩) hstart hstop (by decide) hmatched
  have hslice : source.slice? ⟨2, 11⟩ = some "éaéaéa".toList := by decide
  obtain rfl := Option.some.inj (htext.symm.trans hslice)
  use chosen, hchosen
  rcases hleast other hother with rfl | hlex
  · have hitem := hcaptures 1 "éa".toList (by decide)
    revert hitem
    decide
  · rwa [Reading.lengths, Reading.lengths, hlengths] at hlex

end Template

end Diagnostics
