import Diagnostics.Proofs.Message.Folded

/-!
# White space around a blob

Every text is folded, or made of complete lines in front of a text that begins a message.  What
holds of folded texts and carries over to such texts put together therefore holds of all texts.
In this way white space around a blob is seen to make no difference but to the offsets: it may
open messages, join the first one or extend the last one, but nothing is recognised in it.
-/

namespace Diagnostics

open Text (isBlankText)

namespace Text

variable {s : Text}

/-- In a text that is not folded, some line behind the first one begins a message. -/
theorem exists_append_of_not_isFolded (h : ¬ IsFolded s) :
  ∃ a b, s = a ++ b ∧ a ≠ [] ∧ b ≠ [] ∧ IsTerminated a ∧ BeginsMessage b
  := by
  induction s with
  | nil => apply absurd List.IsChain.nil h
  | cons c s ih =>
      by_cases hs : IsFolded s
      · -- the line feed stands in front of the folded rest
        rw [IsFolded, List.isChain_cons, not_and_or, not_forall] at h
        obtain ⟨d, hd⟩ := h.resolve_right (not_not_intro hs)
        obtain ⟨t, rfl⟩ : ∃ t, s = d :: t := by
          rw [← List.head?_eq_some_iff]
          by_contra hne
          apply hd
          intro hmem
          apply absurd hmem hne
        simp only [List.head?_cons, Option.mem_def, forall_const, Classical.not_imp] at hd
        use [c], d :: t, rfl, List.cons_ne_nil _ _, List.cons_ne_nil _ _
        constructor
        · intro e he
          rw [← Option.some.inj he]
          exact hd.1
        · intro e he
          rw [← Option.some.inj he]
          exact Bool.eq_false_iff.mpr hd.2
      · obtain ⟨a, b, rfl, ha, hb, hterminated, hbegins⟩ := ih hs
        use c :: a, b, rfl, List.cons_ne_nil _ _, hb
        constructor
        · intro e he
          rw [List.getLast?_cons_of_ne_nil ha] at he
          apply hterminated e he
        · exact hbegins

/-- Induction on the messages of a text: a text is folded, or shorter texts put together at a line
that begins a message. -/
@[elab_as_elim]
theorem induction_on_messages {motive : Text → Prop} (s : Text)
    (folded : ∀ s, IsFolded s → motive s)
    (append : ∀ a b, a ≠ [] → b ≠ [] → IsTerminated a → BeginsMessage b → motive a → motive b →
      motive (a ++ b)) :
  motive s
  := by
  induction hlength : s.length using Nat.strongRecOn generalizing s with
  | _ n ih =>
      by_cases hs : IsFolded s
      · apply folded s hs
      · obtain ⟨a, b, rfl, ha, hb, hterminated, hbegins⟩ := exists_append_of_not_isFolded hs
        have hapos := List.length_pos_iff.mpr ha
        have hbpos := List.length_pos_iff.mpr hb
        rw [List.length_append] at hlength
        apply append a b ha hb hterminated hbegins
        · apply ih a.length (by omega) a rfl
        · apply ih b.length (by omega) b rfl

end Text

namespace Recognition

theorem shift_shift (n k : Nat) (r : Recognition) :
  (r.shift k).shift n = r.shift (n + k)
  := by
  have hpiece (p : Piece) : (p.shift k).shift n = p.shift (n + k) := by
    rw [Piece.shift, Piece.shift, Piece.shift, Nat.add_assoc]
  rw [shift, shift, shift, hpiece, List.map_map]
  congr 2
  funext p
  apply hpiece

theorem map_shift_shift (n k : Nat) (found : List Recognition) :
  (found.map (shift k)).map (shift n) = found.map (shift (n + k))
  := by
  rw [List.map_map]
  apply List.map_congr_left
  intro r _
  apply shift_shift

end Recognition

namespace Matcher

/-- White space around a blob, whatever lines it opens or ends, leaves what is recognised in the
blob as it is, further on by the white space in front. -/
theorem recognizeAll_padding (m : Matcher) {pre blob post : Text} (hpre : isBlankText pre = true)
    (hpost : isBlankText post = true) :
  m.recognizeAll (pre ++ blob ++ post)
    = (m.recognizeAll blob).map (Recognition.shift pre.utf8Length)
  := by
  induction blob using Text.induction_on_messages generalizing pre post with
  | folded s hs =>
      cases hblank : isBlankText s with
      | true =>
          have hall : isBlankText (pre ++ s ++ post) = true := by simp [hpre, hblank, hpost]
          rw [recognizeAll_of_isBlankText hall, recognizeAll_of_isBlankText hblank, List.map_nil]
      | false =>
          -- the white space of the text itself is as good as that around it
          obtain ⟨a, t, b, rfl, ha, ht, hne, hb⟩ := Text.exists_eq_padded hblank
          have hfolded : t.IsFolded := (List.IsChain.left_of_append hs).right_of_append
          have hfront : isBlankText (pre ++ a) = true := by simp [hpre, ha]
          have hback : isBlankText (b ++ post) = true := by simp [hb, hpost]
          have htext : pre ++ (a ++ t ++ b) ++ post = (pre ++ a) ++ t ++ (b ++ post) := by simp
          rw [htext, recognizeAll_blank_append_blank hfront ht hfolded hne hback,
            recognizeAll_blank_append_blank ha ht hfolded hne hb, Recognition.map_shift_shift,
            Text.utf8Length_append]
  | append a b ha hb hterminated hbegins iha ihb =>
      have hfront : (pre ++ a).IsTerminated := by
        intro c hc
        rw [List.getLast?_append_of_ne_nil _ ha] at hc
        apply hterminated c hc
      have hback : Text.BeginsMessage (b ++ post) := by
        intro c hc
        rw [List.head?_append_of_ne_nil _ hb] at hc
        apply hbegins c hc
      have hfirst := iha hpre (show isBlankText [] = true from rfl)
      have hsecond := ihb (show isBlankText [] = true from rfl) hpost
      have htext : pre ++ (a ++ b) ++ post = (pre ++ a) ++ (b ++ post) := by simp
      rw [List.append_nil] at hfirst
      rw [List.nil_append] at hsecond
      rw [htext, recognizeAll_append m hfront hback, hfirst, hsecond,
        recognizeAll_append m hterminated hbegins, List.map_append, Recognition.map_shift_shift,
        Recognition.map_shift_shift, Text.utf8Length_append]
      rfl

/-- White space of several kinds in front of a head line, which it turns into an indented one, and
behind an unfinished chain. -/
theorem recognizeAll_padding_chain :
  let t : Template :=
    ⟨7, .error, "é{0}.".toList, [.literal "é".toList, .slot 0, .literal ".".toList],
      by decide, by decide⟩
  let m : Matcher := ⟨[t]⟩
  let pre := "\t\n\u2003 ".toList
  let blob := "é1.\n ?\n é2.\né3.".toList
  let post := "\u0085 \r\n \n".toList
  isBlankText pre = true ∧ isBlankText post = true
    ∧ (m.recognizeAll blob).map (fun found => (found.window.span, found.items))
      = [(⟨9, 13⟩, ["2".toList]), (⟨0, 4⟩, ["1".toList]), (⟨14, 18⟩, ["3".toList])]
    ∧ (m.recognizeAll (pre ++ blob ++ post)).map (fun found => (found.window.span, found.items))
      = [(⟨15, 19⟩, ["2".toList]), (⟨6, 10⟩, ["1".toList]), (⟨20, 24⟩, ["3".toList])]
  := by
  intro t m pre blob post
  have hpre : isBlankText pre = true := by decide
  have hpost : isBlankText post = true := by decide
  rw [recognizeAll_padding m hpre hpost]
  use hpre, hpost
  decide

end Matcher

end Diagnostics
