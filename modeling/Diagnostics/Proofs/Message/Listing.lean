import Diagnostics.Proofs.Message.Tiling

/-!
# What a message lists

A message lists its own lines, those that are blank left out, each without the white space around
it.  Every character of the message that is not blank stands in exactly one listed line, so that
the first of them begins and the last of them ends where the message without the white space around
it does.
-/

namespace Diagnostics

open Text (isBlank isBlankText)

namespace Piece

variable {n : Nat} {a b s t : Text} {c : Char}

/-- A character that is not blank stands in the trimmed piece. -/
theorem within_trim_of_not_isBlank (n : Nat) (a b : Text) (hc : isBlank c = false) :
  Span.Within ⟨n + a.utf8Length, n + a.utf8Length + c.utf8Size⟩ (trim ⟨n, a ++ c :: b⟩).span
  := by
  obtain ⟨after, htext, hafter⟩ := Text.exists_eq_append_trim_append (a ++ c :: b)
  obtain ⟨m, k, ha, ht⟩ := Text.exists_eq_append_of_padded hc List.all_takeWhile hafter htext
  have hfront := congrArg Text.utf8Length ha
  have hinside := congrArg Text.utf8Length ht
  rw [Text.utf8Length_append] at hfront
  rw [Text.utf8Length_append, Text.utf8Length_cons] at hinside
  simp only [Span.Within, span, stop, trim]
  omega

/-- Blank text at the front of a piece does not show in the trimmed piece. -/
theorem trim_blank_append (n : Nat) (ha : isBlankText a = true) (s : Text) :
  trim ⟨n, a ++ s⟩ = trim ⟨n + a.utf8Length, s⟩
  := by
  induction a generalizing n with
  | nil => rfl
  | cons c a ih =>
      obtain ⟨hc, ha⟩ := (Bool.and_eq_true _ _).mp ha
      simp [trim_cons hc, ih _ ha, Nat.add_assoc]

/-- Two texts in a row that are not blank are trimmed at the front of the first and the back of the
second one. -/
theorem span_trim_append (n : Nat) (hs : isBlankText s = false) (ht : isBlankText t = false) :
  (trim ⟨n, s ++ t⟩).span
    = ⟨(trim ⟨n, s⟩).span.start, (trim ⟨n + s.utf8Length, t⟩).span.stop⟩
  := by
  obtain ⟨a, x, b, rfl, ha, hx, hxne, hb⟩ := Text.exists_eq_padded hs
  obtain ⟨d, y, e, rfl, hd, hy, hyne, he⟩ := Text.exists_eq_padded ht
  have hboth : Text.IsTrimmed (x ++ (b ++ d) ++ y) := by
    constructor
    · rw [List.append_assoc, List.head?_append_of_ne_nil x hxne]
      apply hx.head
    · rw [List.getLast?_append_of_ne_nil _ hyne]
      apply hy.last
  have htext : a ++ x ++ b ++ (d ++ y ++ e) = a ++ (x ++ (b ++ d) ++ y) ++ e := by
    simp only [List.append_assoc]
  rw [htext, trim_mk ha hboth (by simp [hxne]) he, trim_mk ha hx hxne hb, trim_mk hd hy hyne he]
  simp only [span, stop, Text.utf8Length_append, Span.mk.injEq, true_and]
  omega

end Piece

namespace Message

variable {n : Nat} {a b blob : Text} {c : Char} {ls : List Text} {p : Piece} {message : Message}

/-! ### Listed lines -/

/-- The lines that are not blank are listed, each without the white space around it. -/
theorem listed_eq_map_trim (n : Nat) (ls : List Text) :
  listed n ls = ((place n ls).filter fun l => !isBlankText l.text).map Piece.trim
  := by
  have htrim (l : Piece) : l.trim.text.isEmpty = isBlankText l.text := Text.isEmpty_trim l.text
  rw [listed, List.filter_map]
  simp only [Function.comp_def, htrim]

theorem mem_listed_cons (l : Text) (h : p ∈ listed (n + l.utf8Length) ls) :
  p ∈ listed n (l :: ls)
  := by
  rw [listed_cons]
  split
  · exact h
  · apply List.mem_cons_of_mem _ h

/-- A character that is not blank stands in a listed line. -/
theorem exists_within_listed (hc : isBlank c = false) (h : ls.flatten = a ++ c :: b) :
  ∃ p ∈ listed n ls, Span.Within ⟨n + a.utf8Length, n + a.utf8Length + c.utf8Size⟩ p.span
  := by
  induction ls generalizing n a with
  | nil =>
      apply absurd h
      simp
  | cons l ls ih =>
      rw [List.flatten_cons] at h
      rcases List.append_eq_append_iff.mp h with ⟨m, rfl, hm⟩ | ⟨m, rfl, hm⟩
      · obtain ⟨p, hp, hwithin⟩ := ih hm
        use p, mem_listed_cons l hp
        rwa [Text.utf8Length_append, ← Nat.add_assoc]
      · cases m with
        | nil =>
            obtain ⟨p, hp, hwithin⟩ := ih (a := []) hm.symm
            rw [List.append_nil]
            exact ⟨p, mem_listed_cons a hp, hwithin⟩
        | cons d m =>
            obtain ⟨rfl, -⟩ := List.cons.inj hm
            have hblank : isBlankText (a ++ c :: m) = false := by simp [isBlankText, hc]
            use Piece.trim ⟨n, a ++ c :: m⟩
            constructor
            · rw [listed_cons, hblank]
              apply List.mem_cons_self
            · apply Piece.within_trim_of_not_isBlank n a m hc

theorem not_mem_of_mem_listed {s : Text} (h : p ∈ listed n s.lines) :
  '\n' ∉ p.text
  := by
  obtain ⟨q, hq, rfl⟩ := List.mem_map.mp (List.mem_filter.mp h).1
  apply Text.not_mem_trim_of_mem_lines (s := s)
  rw [← map_text_place n s.lines]
  apply List.mem_map_of_mem hq

/-- Lines put together begin, without the white space around them, where the first listed line
does, and end where the last one does. -/
theorem span_trim_flatten (n : Nat) (ls : List Text) :
  ∀ first ∈ (listed n ls).head?, ∀ last ∈ (listed n ls).getLast?,
    (Piece.mk n ls.flatten).trim.span = ⟨first.span.start, last.span.stop⟩
  := by
  induction ls generalizing n with
  | nil =>
      intro first hfirst
      cases hfirst
  | cons l ls ih =>
      intro first hfirst last hlast
      rw [listed_cons] at hfirst hlast
      rw [List.flatten_cons]
      cases hl : isBlankText l with
      | true =>
          rw [hl, if_pos rfl] at hfirst hlast
          rw [Piece.trim_blank_append n hl]
          apply ih _ first hfirst last hlast
      | false =>
          rw [hl, if_neg Bool.false_ne_true] at hfirst hlast
          obtain rfl := Option.some.inj hfirst
          have hrest := ih (n + l.utf8Length)
          cases hlisted : listed (n + l.utf8Length) ls with
          | nil =>
              rw [hlisted] at hlast
              obtain rfl := Option.some.inj hlast
              rw [Piece.trim_append_blank hl (isBlankText_flatten_of_listed_eq_nil hlisted)]
              rfl
          | cons next others =>
              have hls : isBlankText ls.flatten = false := by
                rw [Bool.eq_false_iff]
                intro hblank
                rw [listed_eq_nil _ (Text.isBlankText_flatten_iff.mp hblank)] at hlisted
                cases hlisted
              rw [hlisted, List.getLast?_cons_cons] at hlast
              rw [hlisted] at hrest
              rw [Piece.span_trim_append n hl hls, hrest next rfl last hlast]

/-! ### The lines of a message -/

/-- A message lists its own lines. -/
theorem lines_eq_listed (h : message ∈ ofText blob) :
  message.lines = listed message.piece.start message.piece.text.lines
  := by
  obtain ⟨as, bs, cs, hlines, rfl⟩ := exists_run_of_mem_ofText h
  rw [List.append_assoc] at hlines
  obtain ⟨rest, -, hrest⟩ := Text.exists_of_lines_eq_append as hlines
  by_cases hbs : bs = []
  · rw [hbs]
    rfl
  · rw [lines_ofBlock_place, piece_ofBlock_place _ hbs, Text.lines_flatten hrest]

/-- A message lists its lines that are not blank, in their order, each without the white space
around it.  The listed lines stand behind each other inside the message, and every character of the
message that is not blank stands in exactly one of them; the message without the white space around
it begins where the first one does and ends where the last one does. -/
theorem lines_complete (h : message ∈ ofText blob) :
  message.lines = ((place message.piece.start message.piece.text.lines).filter
        fun l => !isBlankText l.text).map Piece.trim
    ∧ (∀ p ∈ message.lines, blob.slice? p.span = some p.text ∧ p.span.start < p.span.stop
      ∧ p.span.Within message.piece.span ∧ p.text.IsTrimmed ∧ '\n' ∉ p.text)
    ∧ message.lines.Pairwise (fun p q => p.span.start < q.span.start ∧ p.span.Before q.span)
    ∧ (∀ a c b, message.piece.text = a ++ c :: b → isBlank c = false →
      ∃! p, p ∈ message.lines ∧ Span.Within ⟨message.piece.start + Text.utf8Length a,
        message.piece.start + Text.utf8Length a + c.utf8Size⟩ p.span)
    ∧ ∀ hne : message.lines ≠ [], message.piece.trim.span
      = ⟨(message.lines.head hne).span.start, (message.lines.getLast hne).span.stop⟩
  := by
  have hlisted := lines_eq_listed h
  obtain ⟨hpairwise, hlines, -⟩ := lines_of_mem_ofText h
  have hspan : ∀ p ∈ message.lines, p.span.start < p.span.stop := fun p hp =>
    Piece.start_lt_stop (hlines p hp).2.1
  have hfeed : ∀ p ∈ message.lines, '\n' ∉ p.text := by
    rw [hlisted]
    intro p
    apply not_mem_of_mem_listed
  have htext : message.piece.text.lines.flatten = message.piece.text :=
    Text.flatten_lines message.piece.text
  constructor
  · rw [hlisted, listed_eq_map_trim]
  constructor
  · intro p hp
    obtain ⟨hwithin, -, htrim⟩ := hlines p hp
    have htrimmed := Text.isTrimmed_trim p.text
    rw [show p.text.trim = p.text from congrArg Piece.text htrim] at htrimmed
    exact ⟨Piece.slice?_span (isPieceOf_of_mem_lines h hp), hspan p hp, hwithin, htrimmed,
      hfeed p hp⟩
  constructor
  · apply hpairwise.imp_of_mem
    intro p q hp hq hbefore
    exact ⟨Nat.lt_of_lt_of_le (hspan p hp) hbefore, hbefore⟩
  constructor
  · intro a c b heq hc
    rw [← htext] at heq
    obtain ⟨p, hp, hwithin⟩ := exists_within_listed (n := message.piece.start) hc heq
    rw [← hlisted] at hp
    use p, ⟨hp, hwithin⟩
    rintro q ⟨hq, hwithin'⟩
    apply Span.eq_of_within_of_pairwise hpairwise _ hp hq hwithin hwithin'
    apply Nat.lt_add_of_pos_right c.utf8Size_pos
  · intro hne
    have hends := span_trim_flatten message.piece.start message.piece.text.lines
    rw [htext, ← hlisted] at hends
    apply hends _ (List.head_mem_head? hne) _ (List.getLast_mem_getLast? hne)

/-- A message with blank lines, a carriage return and white space of two and three bytes lists three
lines; its `é` stands in the first one. -/
theorem lines_complete_padded :
  let blob : Text := "\u2003a é\u3000\r\n \r\n\tb\u00a0\n\n\u2029c".toList
  let message : Message :=
    ⟨⟨0, blob⟩, [⟨3, "a é".toList⟩, ⟨16, "b".toList⟩, ⟨24, "c".toList⟩]⟩
  message ∈ ofText blob ∧ message.piece.trim.span = ⟨3, 25⟩
    ∧ ∃! p, p ∈ message.lines ∧ Span.Within ⟨5, 7⟩ p.span
  := by
  intro blob message
  have hmessage : message ∈ ofText blob := by decide
  obtain ⟨-, -, -, hcovered, hends⟩ := lines_complete hmessage
  use hmessage, hends (by decide)
  apply hcovered "\u2003a ".toList 'é' "\u3000\r\n \r\n\tb\u00a0\n\n\u2029c".toList
  · decide
  · decide

end Message

end Diagnostics
