import Diagnostics.Proofs.Message.Tiling
import Diagnostics.Proofs.Parser.Concat

/-!
# Where recognitions stand

A message gives rise to its recognition as a whole, or to recognitions of some of its lines, from
the last one up.  As messages follow each other, and the lines of a message do, no two recognitions
overlap, and there are no more of them than lines that are not blank.
-/

namespace Diagnostics

theorem filterMap_sublist {α : Type} {f : α → Option α} {l : List α}
    (h : ∀ a ∈ l, ∀ b ∈ f a, b = a) :
  (l.filterMap f).Sublist l
  := by
  induction l with
  | nil => apply List.Sublist.refl
  | cons a l ih =>
      obtain ⟨ha, hl⟩ := List.forall_mem_cons.mp h
      cases hfound : f a with
      | none =>
          rw [List.filterMap_cons_none hfound]
          apply (ih hl).cons
      | some b =>
          rw [List.filterMap_cons_some hfound, ha b hfound]
          apply (ih hl).cons_cons

namespace Matcher

variable {m : Matcher} {blob : Text} {message : Message} {found : Recognition}

/-! ### One message -/

theorem window_ne_nil_of_recognize? (h : m.recognize? message = some found) :
  found.window.text ≠ []
  := by
  rw [window_of_recognize? h]
  intro hnil
  rw [recognize?, hnil] at h
  cases h

/-- A message is recognised as a whole, or some of its lines are, from the last one up. -/
theorem recognitions_eq_singleton_or_sublist (m : Matcher) (h : message ∈ Message.ofText blob) :
  (∃ found, m.recognitions message = [found] ∧ found.window = message.piece.trim
      ∧ found.window.text ≠ [])
    ∨ ((m.recognitions message).map (·.window)).Sublist message.lines.reverse
  := by
  rw [recognitions]
  cases hfound : m.recognize? message with
  | some found =>
      left
      use found, rfl, window_of_recognize? hfound, window_ne_nil_of_recognize? hfound
  | none =>
      right
      dsimp only
      split
      · rw [List.map_reverse, List.reverse_sublist, Message.links, List.filterMap_map,
          List.map_filterMap]
        apply filterMap_sublist
        intro line hline window hwindow
        obtain ⟨link, hlink, rfl⟩ := Option.map_eq_some_iff.mp hwindow
        rw [window_of_recognize? hlink]
        apply ((Message.lines_of_mem_ofText h).2.1 line hline).2.2
      · apply List.nil_sublist

/-- A recognition of a message is not empty and stands inside the message. -/
theorem of_mem_recognitions (hmessage : message ∈ Message.ofText blob)
    (h : found ∈ m.recognitions message) :
  found.window.span.start < found.window.span.stop
    ∧ found.window.span.Within message.piece.span
  := by
  rcases m.recognitions_eq_singleton_or_sublist hmessage with
    ⟨whole, hwhole, hwindow, hne⟩ | hlines
  · rw [hwhole] at h
    obtain rfl := List.mem_singleton.mp h
    use Piece.start_lt_stop hne
    rw [hwindow]
    apply Piece.within_trim
  · have hmem := hlines.subset (List.mem_map_of_mem h)
    obtain ⟨hwithin, hne, -⟩ :=
      (Message.lines_of_mem_ofText hmessage).2.1 _ (List.mem_reverse.mp hmem)
    use Piece.start_lt_stop hne

/-- No two recognitions of a message overlap: they follow each other upwards. -/
theorem pairwise_recognitions (m : Matcher) (h : message ∈ Message.ofText blob) :
  (m.recognitions message).Pairwise fun a b => b.window.span.Before a.window.span
  := by
  rcases m.recognitions_eq_singleton_or_sublist h with ⟨whole, hwhole, -⟩ | hlines
  · rw [hwhole]
    apply List.pairwise_singleton
  · have hpairwise := List.pairwise_reverse.mpr (Message.lines_of_mem_ofText h).1
    apply List.pairwise_map.mp (hpairwise.sublist hlines)

/-- A message gives rise to no more recognitions than it lists lines. -/
theorem length_recognitions_le (m : Matcher) (h : message ∈ Message.ofText blob) :
  (m.recognitions message).length ≤ message.lines.length
  := by
  rcases m.recognitions_eq_singleton_or_sublist h with ⟨whole, hwhole, hwindow, hne⟩ | hlines
  · -- a message that lists no line is blank, so that it is not recognised
    rw [hwhole, List.length_singleton, Nat.one_le_iff_ne_zero, ne_eq, List.length_eq_zero_iff]
    intro hnil
    have hblank := (Message.lines_of_mem_ofText h).2.2 hnil
    apply hne
    rw [hwindow, Piece.trim, Text.trim_of_blank hblank]
  · simpa using hlines.length_le

/-! ### All messages -/

/-- What is recognised inside a message is what the message gives rise to. -/
theorem filter_recognizeAll (m : Matcher) (h : message ∈ Message.ofText blob) :
  (m.recognizeAll blob).filter (fun found => found.window.span.Within message.piece.span)
    = m.recognitions message
  := by
  have hothers {messages : List Message} (hmem : ∀ other ∈ messages, other ∈ Message.ofText blob)
      (hne : ∀ other ∈ messages, other.piece.span.Before message.piece.span
        ∨ message.piece.span.Before other.piece.span) :
      (messages.flatMap m.recognitions).filter
        (fun found => found.window.span.Within message.piece.span) = [] := by
    rw [List.filter_eq_nil_iff]
    intro found hfound
    obtain ⟨other, hother, hfound⟩ := List.mem_flatMap.mp hfound
    obtain ⟨hspan, hwithin⟩ := of_mem_recognitions (hmem other hother) hfound
    rw [decide_eq_true_eq]
    intro hinside
    rcases hne other hother with hbefore | hbefore
    · apply Span.not_within_of_before hbefore hspan hwithin hinside
    · apply Span.not_within_of_before hbefore hspan hinside hwithin
  obtain ⟨as, bs, hmessages, has, hbs⟩ := Message.exists_append_of_mem_ofText h
  rw [recognizeAll, hmessages, List.flatMap_append, List.flatMap_cons, List.filter_append,
    List.filter_append, hothers _ fun other hother => .inl (has other hother),
    hothers _ fun other hother => .inr (hbs other hother), List.nil_append, List.append_nil,
    List.filter_eq_self]
  · intro found hfound
    rw [decide_eq_true_eq]
    apply (of_mem_recognitions h hfound).2
  · intro other hother
    rw [hmessages]
    apply List.mem_append_right _ (List.mem_cons_of_mem _ hother)
  · intro other hother
    rw [hmessages]
    apply List.mem_append_left _ hother

/-- A recognition is not empty and stands inside exactly one message. -/
theorem existsUnique_message (h : found ∈ m.recognizeAll blob) :
  found.window.span.start < found.window.span.stop
    ∧ ∃! message, message ∈ Message.ofText blob ∧ found.window.span.Within message.piece.span
  := by
  obtain ⟨message, hmessage, hfound⟩ := List.mem_flatMap.mp h
  obtain ⟨hspan, hwithin⟩ := of_mem_recognitions hmessage hfound
  use hspan, message, ⟨hmessage, hwithin⟩
  rintro other ⟨hother, hwithin'⟩
  apply Message.eq_of_within hspan hmessage hother hwithin hwithin'

/-- No two recognitions overlap. -/
theorem pairwise_disjoint_recognizeAll (m : Matcher) (blob : Text) :
  (m.recognizeAll blob).Pairwise fun a b =>
    a.window.span.Before b.window.span ∨ b.window.span.Before a.window.span
  := by
  rw [recognizeAll, List.pairwise_flatMap]
  constructor
  · intro message hmessage
    apply (m.pairwise_recognitions hmessage).imp
    intro a b h
    exact .inr h
  · apply (Message.pairwise_ofText blob).imp_of_mem
    intro p q hp hq hpq a ha b hb
    left
    apply hpq.of_within (of_mem_recognitions hp ha).2 (of_mem_recognitions hq hb).2

/-- The recognitions of an earlier message come before those of a later one. -/
theorem pairwise_messages_recognizeAll (m : Matcher) (blob : Text) :
  (m.recognizeAll blob).Pairwise fun a b =>
    ∀ p ∈ Message.ofText blob, ∀ q ∈ Message.ofText blob, a.window.span.Within p.piece.span →
      b.window.span.Within q.piece.span → p = q ∨ p.piece.span.Before q.piece.span
  := by
  have honly {message p : Message} {found : Recognition} (hmessage : message ∈ Message.ofText blob)
      (hfound : found ∈ m.recognitions message) (hp : p ∈ Message.ofText blob)
      (hwithin : found.window.span.Within p.piece.span) : p = message := by
    obtain ⟨hspan, hinside⟩ := of_mem_recognitions hmessage hfound
    apply Message.eq_of_within hspan hmessage hp hinside hwithin
  rw [recognizeAll, List.pairwise_flatMap]
  constructor
  · intro message hmessage
    apply List.pairwise_of_forall_mem_list
    intro a ha b hb p hp q hq hap hbq
    left
    rw [honly hmessage ha hp hap, honly hmessage hb hq hbq]
  · apply (Message.pairwise_ofText blob).imp_of_mem
    intro x y hx hy hxy a ha b hb p hp q hq hap hbq
    right
    rw [honly hx ha hp hap, honly hy hb hq hbq]
    exact hxy

/-- Inside a message the whole of it is recognised, or lines of it are, from the last one up. -/
theorem inside_message (m : Matcher) (h : message ∈ Message.ofText blob) :
  let inside := (m.recognizeAll blob).filter fun found =>
    found.window.span.Within message.piece.span
  (∃ found, inside = [found] ∧ found.window.span = message.piece.trim.span)
    ∨ (∀ found ∈ inside, found.window ∈ message.lines)
      ∧ inside.Pairwise fun a b => b.window.span.start < a.window.span.start
  := by
  intro inside
  have hinside : inside = m.recognitions message := m.filter_recognizeAll h
  rw [hinside]
  rcases m.recognitions_eq_singleton_or_sublist h with ⟨whole, hwhole, hwindow, -⟩ | hlines
  · left
    use whole, hwhole
    rw [hwindow]
  · right
    constructor
    · intro found hfound
      apply List.mem_reverse.mp (hlines.subset (List.mem_map_of_mem hfound))
    · apply (m.pairwise_recognitions h).imp_of_mem
      intro a b _ hb hba
      apply Nat.lt_of_lt_of_le (of_mem_recognitions h hb).1 hba

/-- There are no more recognitions than lines that are not blank. -/
theorem length_recognizeAll_le (m : Matcher) (blob : Text) :
  (m.recognizeAll blob).length ≤ (blob.lines.filter fun l => !Text.isBlankText l).length
  := by
  rw [← Message.length_listed 0, ← Message.flatMap_lines_ofText]
  apply length_flatMap_le
  intro message hmessage
  apply m.length_recognitions_le hmessage

/-- What is recognised in a blob is ordered, disjoint and not duplicated.  Every recognition stands
inside exactly one message and is not empty; no two of them overlap; those of an earlier message
come before those of a later one; inside a message there is one for the whole of it, or there are
some for lines of it, from the last one up.  There are no more of them than lines that are not
blank. -/
theorem recognizeAll_layout (m : Matcher) (blob : Text) :
  (∀ found ∈ m.recognizeAll blob, found.window.span.start < found.window.span.stop
      ∧ ∃! message, message ∈ Message.ofText blob
        ∧ found.window.span.Within message.piece.span)
    ∧ (m.recognizeAll blob).Pairwise (fun a b =>
      a.window.span.Before b.window.span ∨ b.window.span.Before a.window.span)
    ∧ (m.recognizeAll blob).Pairwise (fun a b =>
      ∀ p ∈ Message.ofText blob, ∀ q ∈ Message.ofText blob, a.window.span.Within p.piece.span →
        b.window.span.Within q.piece.span → p = q ∨ p.piece.span.Before q.piece.span)
    ∧ (∀ message ∈ Message.ofText blob,
      let inside := (m.recognizeAll blob).filter fun found =>
        found.window.span.Within message.piece.span
      (∃ found, inside = [found] ∧ found.window.span = message.piece.trim.span)
        ∨ (∀ found ∈ inside, found.window ∈ message.lines)
          ∧ inside.Pairwise fun a b => b.window.span.start < a.window.span.start)
    ∧ (m.recognizeAll blob).length ≤ (blob.lines.filter fun l => !Text.isBlankText l).length
  := by
  constructor
  · intro found
    apply existsUnique_message
  constructor
  · apply m.pairwise_disjoint_recognizeAll
  constructor
  · apply m.pairwise_messages_recognizeAll
  constructor
  · intro message
    apply m.inside_message
  · apply m.length_recognizeAll_le

/-- Two of three lines of a message are recognised, the later one first, and the message behind them
is recognised as a whole. -/
theorem recognizeAll_layout_chain :
  let t : Template :=
    ⟨7, .error, "é\x7b0\x7d.".toList, [.literal "é".toList, .slot 0, .literal ".".toList],
      by decide, by decide⟩
  let m : Matcher := ⟨[t]⟩
  let blob := "é1.\n ?\n é2.\né3.".toList
  let message : Message := ⟨⟨0, "é1.\n ?\n é2.\n".toList⟩,
    [⟨0, "é1.".toList⟩, ⟨6, "?".toList⟩, ⟨9, "é2.".toList⟩]⟩
  let inside := (m.recognizeAll blob).filter fun found =>
    found.window.span.Within message.piece.span
  (m.recognizeAll blob).map (·.window.span) = [⟨9, 13⟩, ⟨0, 4⟩, ⟨14, 18⟩]
    ∧ message ∈ Message.ofText blob ∧ inside.length = 2
    ∧ (∀ found ∈ inside, found.window ∈ message.lines)
    ∧ inside.Pairwise fun a b => b.window.span.start < a.window.span.start
  := by
  intro t m blob message inside
  have hmessage : message ∈ Message.ofText blob := by decide
  have hlength : inside.length = 2 := by decide
  obtain ⟨-, -, -, hinside, -⟩ := recognizeAll_layout m blob
  constructor
  · decide
  use hmessage, hlength
  apply (hinside message hmessage).resolve_left
  rintro ⟨found, hsingle, -⟩
  have hone : inside.length = 1 := congrArg List.length hsingle
  omega

end Matcher

end Diagnostics
