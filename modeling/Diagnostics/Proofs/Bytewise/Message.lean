import Diagnostics.Proofs.Bytewise.Basic
import Diagnostics.Proofs.Message.Concat

/-!
# Messages by bytes

`messages?` goes through a text from line to line and gathers the lines of one message after the
other, all by offsets.  It has a value for every text: the spans of the messages of the text and of
their lines.
-/

namespace Diagnostics

namespace Bytewise

open Message (place blocks ofBlock opens)

/-- A message by its span and those of its lines. -/
structure Outline where
  span : Span
  lines : List Span
  deriving DecidableEq, Repr

/-- The offset behind the line that stands at an offset: behind its line feed, or the end of the
text. -/
def lineStop? (source : Text) (pos : Nat) : Option Nat :=
  (from? source pos).map fun rest => (find? ['\n'] rest).elim source.utf8Length (pos + · + 1)

/-- Whether a line begins a message of its own behind the message that begins at `start`. -/
def breaks? (source : Text) (start : Nat) (line : Span) : Option Bool :=
  if line.start = start then some false else (source.slice? line).map opens

variable {source : Text} {start pos stop : Nat}

/-- A line takes at least one byte. -/
theorem lt_of_lineStop? (h : pos < source.utf8Length) (hstop : lineStop? source pos = some stop) :
  pos < stop
  := by
  obtain ⟨rest, -, rfl⟩ := Option.map_eq_some_iff.mp hstop
  cases find? ['\n'] rest with
  | none => exact h
  | some n =>
      rw [Option.elim_some]
      omega

/-- The lines from `pos` on of the message that begins at `start`, trimmed and without the blank
ones, and the offset behind the message. -/
def messageLines? (source : Text) (start pos : Nat) : Option (List Span × Nat) :=
  if _h : pos < source.utf8Length then
    (lineStop? source pos).pbind fun stop _hstop => do
      let line ← span? pos stop
      if ← breaks? source start line then
        some ([], pos)
      else
        let content ← trim? source line
        let (contents, stop) ← messageLines? source start stop
        some (if content.isEmpty then contents else content :: contents, stop)
  else
    some ([], pos)
termination_by source.utf8Length - pos
decreasing_by
  have := lt_of_lineStop? _h _hstop
  omega

/-- A message ends in front of a line, which is not its first one, or goes on behind it. -/
theorem cases_of_messageLines? {found : List Span × Nat} (h : pos < source.utf8Length)
    (hfound : messageLines? source start pos = some found) :
  pos ≠ start ∧ found.2 = pos
    ∨ ∃ stop others, lineStop? source pos = some stop
      ∧ messageLines? source start stop = some others ∧ found.2 = others.2
  := by
  rw [messageLines?, dif_pos h, Option.pbind_eq_bind] at hfound
  obtain ⟨stop, hstop, hfound⟩ := Option.bind_eq_some_iff.mp hfound
  obtain ⟨line, hline, hfound⟩ := Option.bind_eq_some_iff.mp hfound
  obtain ⟨breaks, hbreaks, hfound⟩ := Option.bind_eq_some_iff.mp hfound
  cases breaks with
  | true =>
      left
      obtain rfl := Option.some.inj hfound
      constructor
      · rintro rfl
        obtain ⟨-, hline⟩ := Option.ite_none_right_eq_some.mp hline
        obtain rfl := Option.some.inj hline
        rw [breaks?, if_pos rfl] at hbreaks
        cases hbreaks
      · rfl
  | false =>
      right
      obtain ⟨content, -, hfound⟩ := Option.bind_eq_some_iff.mp hfound
      obtain ⟨others, hothers, hfound⟩ := Option.bind_eq_some_iff.mp hfound
      obtain rfl := Option.some.inj hfound
      exact ⟨stop, others, hstop, hothers, rfl⟩

theorem le_of_messageLines? {found : List Span × Nat}
    (hfound : messageLines? source start pos = some found) :
  pos ≤ found.2
  := by
  induction hleft : source.utf8Length - pos using Nat.strongRecOn generalizing pos found with
  | _ n ih =>
      by_cases h : pos < source.utf8Length
      · rcases cases_of_messageLines? h hfound with ⟨-, hend⟩ | ⟨stop, others, hstop, hothers, hend⟩
        · apply Nat.le_of_eq hend.symm
        · have hlt := lt_of_lineStop? h hstop
          have hle := ih _ (by omega) hothers rfl
          omega
      · rw [messageLines?, dif_neg h] at hfound
        obtain rfl := Option.some.inj hfound
        apply Nat.le_refl

/-- A message takes at least one byte. -/
theorem lt_of_messageLines? (h : pos < source.utf8Length) {found : List Span × Nat}
    (hfound : messageLines? source pos pos = some found) :
  pos < found.2
  := by
  rcases cases_of_messageLines? h hfound with ⟨hne, -⟩ | ⟨stop, others, hstop, hothers, hfound⟩
  · apply absurd rfl hne
  · rw [hfound]
    apply Nat.lt_of_lt_of_le (lt_of_lineStop? h hstop) (le_of_messageLines? hothers)

/-- The messages from an offset on, which the first of them begins at. -/
def messages? (source : Text) (pos : Nat) : Option (List Outline) :=
  if _h : pos < source.utf8Length then
    (messageLines? source pos pos).pbind fun found _hfound => do
      let span ← span? pos found.2
      let messages ← messages? source found.2
      some (⟨span, found.1⟩ :: messages)
  else
    some []
termination_by source.utf8Length - pos
decreasing_by
  have := lt_of_messageLines? _h _hfound
  omega

/-- The outline of a message. -/
def Outline.ofMessage (m : Message) : Outline := ⟨m.piece.span, m.lines.map Piece.span⟩

variable {before l rest : Text} {ls : List Text}

/-! ### One line -/

/-- The line behind a text stops where its own characters do. -/
theorem lineStop?_append (hne : rest ≠ []) :
  ∃ l t, rest = l ++ t ∧ l ≠ [] ∧ Text.lines rest = l :: Text.lines t
    ∧ ∀ before, lineStop? (before ++ rest) before.utf8Length = some (before ++ l).utf8Length
  := by
  obtain ⟨l, t, rfl, hl, hlines, hfeed⟩ := Text.exists_lines_eq_cons hne
  use l, t, rfl, hl, hlines
  intro before
  rw [lineStop?, from?_append, Option.map_some]
  rcases hfeed with ⟨rfl, hfeed⟩ | ⟨a, rfl, ha⟩
  · rw [List.append_nil, find?_eq_none hfeed, Option.elim_none]
  · rw [List.append_assoc, List.singleton_append, find?_singleton ha, Option.elim_some,
      ← List.append_assoc, Text.utf8Length_append, Text.utf8Length_append]
    rfl

/-- Every line but the first breaks a message off when it begins a message of its own. -/
theorem messageLines?_line (hl : l ≠ [])
    (hstop : lineStop? (before ++ (l ++ rest)) before.utf8Length
      = some (before ++ l).utf8Length) :
  messageLines? (before ++ (l ++ rest)) start before.utf8Length =
    if before.utf8Length ≠ start ∧ opens l = true then
      some ([], before.utf8Length)
    else
      let content := (Piece.mk before.utf8Length l).trim.span
      (messageLines? (before ++ l ++ rest) start (before ++ l).utf8Length).map
        fun (contents, stop) => (if content.isEmpty then contents else content :: contents, stop)
  := by
  have hpiece : (Piece.mk before.utf8Length l).IsPieceOf (before ++ (l ++ rest)) :=
    ⟨before, rest, (List.append_assoc _ _ _).symm, rfl⟩
  have hlt : before.utf8Length < (before ++ (l ++ rest)).utf8Length := by
    have := Text.utf8Length_pos_iff.mpr hl
    simp only [Text.utf8Length_append]
    omega
  have hspan : span? before.utf8Length (before ++ l).utf8Length
      = some (Piece.mk before.utf8Length l).span := by
    rw [Text.utf8Length_append, span?_add]
    rfl
  have hbreaks : breaks? (before ++ (l ++ rest)) start (Piece.mk before.utf8Length l).span
      = some (decide (before.utf8Length ≠ start ∧ opens l = true)) := by
    rw [breaks?, Piece.slice?_span hpiece]
    by_cases h : before.utf8Length = start
    · simp [Piece.span, h]
    · simp [Piece.span, h]
  rw [messageLines?, dif_pos hlt, Option.pbind_eq_bind, hstop, Option.bind_some, hspan,
    Option.bind_eq_bind, Option.bind_some, hbreaks, Option.bind_eq_bind, Option.bind_some]
  by_cases h : before.utf8Length ≠ start ∧ opens l = true
  · rw [if_pos h, decide_eq_true h, if_pos rfl]
  · rw [if_neg h, decide_eq_false h, if_neg Bool.false_ne_true, trim?_span hpiece,
      Option.bind_eq_bind, Option.bind_some, ← List.append_assoc, Text.utf8Length_append,
      Piece.span, Piece.stop]
    cases messageLines? (before ++ l ++ rest) start (before.utf8Length + l.utf8Length) with
    | none => rfl
    | some found => rfl

/-! ### One message -/

/-- The trimmed lines of a block of consecutive lines, and the offset behind the block. -/
def contents (n : Nat) (ls : List Text) : List Span × Nat :=
  ((ofBlock (place n ls)).lines.map Piece.span, n + Text.utf8Length ls.flatten)

theorem contents_cons (n : Nat) (l : Text) (ls : List Text) :
  contents n (l :: ls) =
    let content := (Piece.mk n l).trim.span
    let (contents, stop) := contents (n + l.utf8Length) ls
    (if content.isEmpty then contents else content :: contents, stop)
  := by
  simp only [contents, ofBlock, place, List.map_cons, List.filter_cons, Piece.isEmpty_span,
    List.flatten_cons, Text.utf8Length_append, Nat.add_assoc]
  cases (Piece.mk n l).trim.text.isEmpty
  · rfl
  · rfl

/-- A line that does not break the message off is put in front of the lines behind it. -/
theorem messageLines?_cons (hl : l ≠ [])
    (hstop : lineStop? (before ++ (l ++ rest)) before.utf8Length
      = some (before ++ l).utf8Length)
    (hbreaks : before.utf8Length = start ∨ opens l = false)
    (hrest : messageLines? (before ++ l ++ rest) start (before ++ l).utf8Length
      = some (contents (before ++ l).utf8Length ls)) :
  messageLines? (before ++ (l ++ rest)) start before.utf8Length
    = some (contents before.utf8Length (l :: ls))
  := by
  have h : ¬ (before.utf8Length ≠ start ∧ opens l = true) := by
    rintro ⟨hne, hopens⟩
    rcases hbreaks with heq | hopens'
    · apply hne heq
    · rw [hopens] at hopens'
      cases hopens'
  rw [messageLines?_line hl hstop, if_neg h, hrest, contents_cons, Text.utf8Length_append]
  rfl

/-- Behind its first line a message goes on up to the next line that begins a message. -/
theorem messageLines?_tail (h : start < before.utf8Length) :
  messageLines? (before ++ rest) start before.utf8Length
    = some (contents before.utf8Length ((Text.lines rest).takeWhile fun l => !opens l))
  := by
  induction hlines : Text.lines rest generalizing before rest with
  | nil =>
      obtain rfl := Text.eq_nil_of_lines_eq_nil hlines
      rw [List.append_nil, messageLines?, dif_neg (Nat.lt_irrefl _)]
      rfl
  | cons x ls ih =>
      obtain ⟨l, t, rfl, hl, hcons, hstop⟩ :=
        lineStop?_append (Text.ne_nil_of_lines_eq_cons hlines)
      obtain ⟨rfl, hls⟩ := List.cons.inj (hcons.symm.trans hlines)
      cases hopens : opens l with
      | true =>
          rw [messageLines?_line hl (hstop before), if_pos ⟨Nat.ne_of_gt h, hopens⟩,
            List.takeWhile_cons_of_neg (by simp [hopens])]
          rfl
      | false =>
          rw [List.takeWhile_cons_of_pos (by simp [hopens])]
          apply messageLines?_cons hl (hstop before) (.inr hopens)
          apply ih _ hls
          simp only [Text.utf8Length_append]
          apply Nat.lt_add_right _ h

/-- A message takes its first line, and then all up to the next line that begins a message. -/
theorem messageLines?_head (before : Text) (hlines : Text.lines rest = l :: ls) :
  messageLines? (before ++ rest) before.utf8Length before.utf8Length
    = some (contents before.utf8Length (l :: ls.takeWhile fun l => !opens l))
  := by
  obtain ⟨l, t, rfl, hl, hcons, hstop⟩ :=
    lineStop?_append (Text.ne_nil_of_lines_eq_cons hlines)
  obtain ⟨rfl, rfl⟩ := List.cons.inj (hcons.symm.trans hlines)
  apply messageLines?_cons hl (hstop before) (.inl rfl)
  apply messageLines?_tail
  simp [hl]

/-! ### All messages -/

theorem ofMessage_ofBlock_place (n : Nat) (l : Text) (ls : List Text) :
  Outline.ofMessage (ofBlock (place n (l :: ls)))
    = ⟨⟨n, n + Text.utf8Length (l :: ls).flatten⟩, (contents n (l :: ls)).1⟩
  := by
  rw [Outline.ofMessage, ofBlock, Message.map_text_place]
  rfl

/-- From the end of a line on, the messages are those of the text from there on. -/
theorem messages?_append (before rest : Text) :
  messages? (before ++ rest) before.utf8Length
    = some ((blocks (place before.utf8Length rest.lines)).map (Outline.ofMessage ∘ ofBlock))
  := by
  -- every message takes at least its first line, so that less and less of the text is left
  induction hlength : rest.length using Nat.strongRecOn generalizing before rest with
  | _ n ih =>
      cases hlines : rest.lines with
      | nil =>
          obtain rfl := Text.eq_nil_of_lines_eq_nil hlines
          rw [List.append_nil, messages?, dif_neg (Nat.lt_irrefl _)]
          rfl
      | cons l ls =>
          have hfirst := messageLines?_head before hlines
          obtain ⟨as, bs, rfl, has, hbs, htake⟩ := Message.exists_opening_split ls
          rw [htake] at hfirst
          obtain ⟨t, rfl, ht⟩ := Text.exists_of_lines_eq_append (l :: as) hlines
          have hl : l ≠ [] := Text.ne_nil_of_mem_lines (hlines ▸ List.mem_cons_self)
          have hlt : before.utf8Length < (before ++ ((l :: as).flatten ++ t)).utf8Length := by
            have := Text.utf8Length_pos_iff.mpr hl
            simp only [List.flatten_cons, Text.utf8Length_append]
            omega
          have hshorter : t.length < n := by
            have := List.length_pos_iff.mpr hl
            rw [List.flatten_cons, List.length_append, List.length_append] at hlength
            omega
          rw [messages?, dif_pos hlt, Option.pbind_eq_bind, hfirst, Option.bind_some, contents,
            Message.blocks_place_cons _ _ has hbs]
          dsimp only
          rw [span?_add, Option.bind_eq_bind, Option.bind_some, ← Text.utf8Length_append,
            ← List.append_assoc, ih _ hshorter _ _ rfl, ht, List.map_cons, Function.comp_apply,
            ofMessage_ofBlock_place, ← Text.utf8Length_append]
          rfl

/-- The messages of a text are found by bytes. -/
theorem messages?_zero (s : Text) :
  messages? s 0 = some ((Message.ofText s).map Outline.ofMessage)
  := by
  rw [Message.ofText, List.map_map]
  apply messages?_append []

end Bytewise

end Diagnostics
