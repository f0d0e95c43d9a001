import Diagnostics.Proofs.Message.Concat
import Mathlib.Data.List.Chain

/-!
# Folded messages

A text is folded when white space follows every line feed in it, so that no line but the first can
begin a message.  A folded text is a single message, and white space around it, whatever lines that
white space opens or ends, makes no difference to how it is recognised.
-/

namespace Diagnostics

namespace Text

variable {a b s : Text}

/-- A text in which white space follows every line feed. -/
def IsFolded (s : Text) : Prop := s.IsChain fun c d => c = '\n' → isBlank d = true

theorem isFolded_of_not_mem (h : '\n' ∉ s) :
  IsFolded s
  := by
  apply List.Pairwise.isChain
  apply List.pairwise_of_forall_mem_list
  intro c hc d _ hfeed
  apply absurd (hfeed ▸ hc) h

theorem isFolded_of_isBlankText (h : isBlankText s = true) :
  IsFolded s
  := by
  apply List.Pairwise.isChain
  apply List.pairwise_of_forall_mem_list
  intro c _ d hd _
  apply List.all_eq_true.mp h d hd

/-- Two folded texts put together are folded unless a line feed is followed by a head line. -/
theorem isFolded_append (ha : IsFolded a) (hb : IsFolded b)
    (hab : ∀ c ∈ a.getLast?, ∀ d ∈ b.head?, c = '\n' → isBlank d = true) :
  IsFolded (a ++ b)
  := List.isChain_append.mpr ⟨ha, hb, hab⟩

/-- Text without line feeds can be put in front of folded text. -/
theorem isFolded_append_of_not_mem (ha : '\n' ∉ a) (hb : IsFolded b) :
  IsFolded (a ++ b)
  := by
  apply isFolded_append (isFolded_of_not_mem ha) hb
  rintro c hc _ _ rfl
  apply absurd (List.mem_of_getLast? hc) ha

theorem isBlank_of_mem_head? (h : isBlankText s = true) :
  ∀ c ∈ s.head?, isBlank c = true
  := by
  intro c hc
  apply List.all_eq_true.mp h c (List.mem_of_mem_head? hc)

/-- White space behind a folded text leaves it folded. -/
theorem isFolded_append_blank (ha : IsFolded a) (hb : isBlankText b = true) :
  IsFolded (a ++ b)
  := by
  apply isFolded_append ha (isFolded_of_isBlankText hb)
  intro _ _ d hd _
  apply isBlank_of_mem_head? hb d hd

end Text

open Text (IsFolded IsTrimmed IsTerminated BeginsMessage isBlankText)

variable {pre text post : Text}

namespace Message

/-- A line that begins with white space continues a message. -/
theorem opens_of_head? {l : Text} (h : ∀ c ∈ l.head?, Text.isBlank c = true) :
  opens l = false
  := by
  cases l with
  | nil => rfl
  | cons c l => simp [opens, h c rfl]

/-- No line of a folded text begins a message, except perhaps the first. -/
theorem opens_of_isFolded {s l : Text} (h : IsFolded s) (hl : l ∈ s.lines.tail) :
  opens l = false
  := by
  induction s with
  | nil => cases hl
  | cons c s ih =>
      obtain ⟨hc, hs⟩ := List.isChain_cons.mp h
      rw [Text.lines] at hl
      split at hl
      case isTrue hfeed =>
          rw [List.tail_cons] at hl
          cases hlines : Text.lines s with
          | nil =>
              rw [hlines] at hl
              cases hl
          | cons x xs =>
              rw [hlines] at hl ih
              rcases List.mem_cons.mp hl with rfl | hl
              · apply opens_of_head?
                rw [Text.head?_of_lines_eq_cons hlines]
                intro d hd
                apply hc d hd hfeed
              · apply ih hs hl
      case isFalse =>
          cases hlines : Text.lines s with
          | nil =>
              rw [hlines] at hl
              cases hl
          | cons x xs =>
              rw [hlines] at hl ih
              apply ih hs hl

/-- White space at the front of a text is not listed. -/
theorem listed_lines_blank_append (n : Nat) (hpre : isBlankText pre = true) (s : Text) :
  listed n (Text.lines (pre ++ s)) = listed (n + pre.utf8Length) s.lines
  := by
  induction pre generalizing n with
  | nil => rfl
  | cons c pre ih =>
      obtain ⟨hc, hpre⟩ := (Bool.and_eq_true _ _).mp hpre
      rw [List.cons_append, Text.lines, Text.utf8Length_cons, ← Nat.add_assoc, ← ih _ hpre]
      by_cases hfeed : c = '\n'
      · -- the line feed ends a blank line
        subst hfeed
        rw [if_pos rfl, listed_cons, if_pos (by decide)]
        rfl
      · rw [if_neg hfeed]
        cases Text.lines (pre ++ s) with
        | nil => exact listed_eq_nil n (by simp [isBlankText, hc])
        | cons l ls =>
            have hblank : isBlankText (c :: l) = isBlankText l := by simp [isBlankText, hc]
            simp only [listed_cons, hblank, Piece.trim_cons hc, Text.utf8Length_cons,
              Nat.add_assoc]

/-- White space at the end of a text is not listed. -/
theorem listed_lines_append_blank (n : Nat) (s : Text) (hpost : isBlankText post = true) :
  listed n (Text.lines (s ++ post)) = listed n s.lines
  := by
  induction hlines : s.lines generalizing n s with
  | nil =>
      obtain rfl := Text.eq_nil_of_lines_eq_nil hlines
      apply listed_eq_nil
      intro l
      apply Text.isBlankText_of_mem_lines hpost
  | cons l ls ih =>
      obtain ⟨t, rfl, hl, hls, hfeed⟩ := Text.exists_of_lines_eq_cons hlines
      rcases hfeed with ⟨rfl, hfeed⟩ | ⟨a, rfl, ha⟩
      · -- the last line is extended, and other lines may follow
        obtain rfl : [] = ls := hls
        obtain ⟨w, bs, hextended, hw, hbs⟩ := Text.exists_lines_append_blank hl hfeed hpost
        rw [List.append_nil, hextended, listed_cons, listed_cons, Text.isBlankText_append, hw,
          Bool.and_true, listed_eq_nil _ hbs]
        cases hblank : isBlankText l with
        | true => rfl
        | false => exact congrArg (· :: _) (Piece.trim_append_blank hblank hw)
      · rw [List.append_assoc, List.append_assoc, List.singleton_append,
          Text.lines_append_lineFeed ha, listed_cons, listed_cons, ih _ _ hls]

/-- A folded text is one message. -/
theorem ofText_of_isFolded {s : Text} (h : IsFolded s) (hne : s ≠ []) :
  ofText s
    = [⟨Piece.whole s, listed 0 s.lines⟩]
  := by
  have hflatten := Text.flatten_lines s
  cases hlines : s.lines with
  | nil => apply absurd (Text.eq_nil_of_lines_eq_nil hlines) hne
  | cons x xs =>
      rw [hlines] at hflatten
      have hopens : ∀ a ∈ xs, opens a = false := by
        intro a ha
        apply opens_of_isFolded h
        rw [hlines]
        exact ha
      have hblocks : blocks (place 0 (x :: (xs ++ []))) = [place 0 (x :: xs)] :=
        blocks_place_cons 0 x hopens (by simp)
      rw [List.append_nil] at hblocks
      rw [ofText, hlines, hblocks, List.map_singleton, ofBlock, map_text_place, hflatten]
      rfl

end Message

namespace Matcher

variable {m : Matcher} {found : Recognition}

/-- White space around a message makes no difference. -/
theorem recognize?_of_trim_eq {message other : Message}
    (h : message.piece.trim = other.piece.trim) :
  m.recognize? message = m.recognize? other
  := by
  rw [recognize?, recognize?, h]

/-- White space around a message that lists the same lines makes no difference. -/
theorem recognitions_of_trim_eq {message other : Message}
    (htrim : message.piece.trim = other.piece.trim) (hlines : message.lines = other.lines) :
  m.recognitions message = m.recognitions other
  := by
  rw [recognitions, recognitions, recognize?_of_trim_eq htrim, Message.isChain, Message.isChain,
    Message.links, Message.links, hlines]

/-- What is recognised in a folded text is what is recognised in a single message. -/
theorem recognizeAll_eq_recognitions (h : IsFolded text) :
  m.recognizeAll text = m.recognitions ⟨Piece.whole text, Message.listed 0 text.lines⟩
  := by
  by_cases hne : text = []
  · rw [hne]
    rfl
  · rw [recognizeAll, Message.ofText_of_isFolded h hne, List.flatMap_singleton]

/-- Blank text holds nothing that is recognised. -/
theorem recognizeAll_of_isBlankText (h : isBlankText text = true) :
  m.recognizeAll text = []
  := by
  have hnone : m.recognize? ⟨Piece.whole text, []⟩ = none := by
    rw [recognize?, Piece.trim, Piece.whole, Text.trim_of_blank h]
    rfl
  rw [recognizeAll_eq_recognitions (Text.isFolded_of_isBlankText h),
    Message.listed_eq_nil 0 fun l => Text.isBlankText_of_mem_lines h, recognitions, hnone]
  rfl

/-- A folded text that is recognised as a whole is all that is recognised in it. -/
theorem recognizeAll_of_isFolded (h : IsFolded text)
    (hfound : m.recognize? (.ofLine (Piece.whole text)) = some found) :
  m.recognizeAll text = [found]
  := by
  have hwhole (lines : List Piece) : m.recognize? ⟨Piece.whole text, lines⟩ = some found := by
    rw [← hfound]
    apply recognize?_of_trim_eq rfl
  rw [recognizeAll_eq_recognitions h, recognitions, hwhole]

/-- A folded text in front of white space is recognised as it is without it. -/
theorem recognizeAll_append_blank (htrimmed : IsTrimmed text) (hfolded : IsFolded text)
    (hne : text ≠ []) (hpost : isBlankText post = true) :
  m.recognizeAll (text ++ post) = m.recognizeAll text
  := by
  have hbehind := Text.isFolded_append_blank hfolded hpost
  rw [recognizeAll_eq_recognitions hbehind, recognizeAll_eq_recognitions hfolded]
  apply recognitions_of_trim_eq
  · rw [Piece.whole, Piece.whole, Piece.trim_append htrimmed hne hpost,
      Piece.trim_eq_self htrimmed hne]
  · apply Message.listed_lines_append_blank 0 text hpost

/-- White space around a folded text shifts what is recognised in it. -/
theorem recognizeAll_blank_append_blank (hpre : isBlankText pre = true)
    (htrimmed : IsTrimmed text) (hfolded : IsFolded text) (hne : text ≠ [])
    (hpost : isBlankText post = true) :
  m.recognizeAll (pre ++ text ++ post)
    = (m.recognizeAll text).map (Recognition.shift pre.utf8Length)
  := by
  have hbehind := Text.isFolded_append_blank hfolded hpost
  by_cases hterminated : pre.IsTerminated
  · -- the text begins a line, so that the white space in front is a message of its own
    have hbegins : (text ++ post).BeginsMessage := by
      intro c hc
      rw [List.head?_append_of_ne_nil _ hne] at hc
      apply htrimmed.head c hc
    rw [List.append_assoc, recognizeAll_append m hterminated hbegins,
      recognizeAll_of_isBlankText hpre, recognizeAll_append_blank htrimmed hfolded hne hpost,
      List.nil_append]
  · -- the text continues the line that the white space in front of it ends with
    have hall : IsFolded (pre ++ text ++ post) := by
      rw [List.append_assoc]
      apply Text.isFolded_append (Text.isFolded_of_isBlankText hpre) hbehind
      rintro c hc _ _ rfl
      apply absurd _ hterminated
      intro d hd
      apply Option.mem_unique hd hc
    rw [recognizeAll_eq_recognitions hall, recognizeAll_eq_recognitions hfolded,
      ← recognitions_shift]
    apply recognitions_of_trim_eq
    · rw [Message.shift, Piece.trim_shift, Piece.whole, Piece.whole,
        Piece.trim_mk hpre htrimmed hne hpost, Piece.trim_eq_self htrimmed hne, Nat.zero_add]
      rfl
    · rw [Message.shift, Message.listed_lines_append_blank 0 _ hpost,
        Message.listed_lines_blank_append 0 hpre, Nat.zero_add, ← Message.listed_shift,
        Nat.add_zero]

/-- A folded text is recognised as one message, whatever white space stands around it. -/
theorem recognizeAll_padded (hpre : isBlankText pre = true) (htrimmed : IsTrimmed text)
    (hfolded : IsFolded text) (hpost : isBlankText post = true)
    (hfound : m.recognize? (.ofLine (Piece.whole text)) = some found) :
  m.recognizeAll (pre ++ text ++ post) = [found.shift pre.utf8Length]
  := by
  have hne : text ≠ [] := by
    rintro rfl
    cases hfound
  rw [recognizeAll_blank_append_blank hpre htrimmed hfolded hne hpost,
    recognizeAll_of_isFolded hfolded hfound, List.map_singleton]

end Matcher

end Diagnostics
