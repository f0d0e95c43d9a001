import Diagnostics.Matching.Recognition
import Diagnostics.Proofs.Message.Folded
import Diagnostics.Proofs.Message.Listing

/-!
# Taking messages line by line

A message that no template accounts for is taken line by line only if it lists several lines.
Nothing is lost by this: a single line begins and ends where the message without the white space
around it does, so that it is recognised just when the message as a whole is.
-/

namespace Diagnostics

namespace Piece

variable {p q : Piece} {source : Text}

/-- A piece of a text is determined by its span. -/
theorem eq_of_span_eq (hp : p.IsPieceOf source) (hq : q.IsPieceOf source) (h : p.span = q.span) :
  p = q
  := by
  have hpiece := piece?_span hp
  rw [h, piece?_span hq] at hpiece
  exact (Option.some.inj hpiece).symm

end Piece

namespace Message

variable {blob : Text} {message : Message} {line : Piece}

/-- A message that lists a single line is that line with white space around it. -/
theorem trim_piece_of_lines (h : message ∈ ofText blob) (hline : message.lines = [line]) :
  message.piece.trim = line
  := by
  have hmem : line ∈ message.lines := hline ▸ List.mem_singleton_self line
  have hends := span_trim_flatten message.piece.start message.piece.text.lines
  rw [Text.flatten_lines, ← lines_eq_listed h, hline] at hends
  apply Piece.eq_of_span_eq (isPieceOf_of_mem_ofText h).trim (isPieceOf_of_mem_lines h hmem)
  apply hends line rfl line rfl

end Message

namespace Matcher

variable {m : Matcher} {blob : Text} {message : Message} {line : Piece}

/-- A message that lists a single line is recognised just as that line is. -/
theorem recognize?_ofLine (m : Matcher) (h : message ∈ Message.ofText blob)
    (hline : message.lines = [line]) :
  m.recognize? (.ofLine line) = m.recognize? message
  := by
  have hmem : line ∈ message.lines := hline ▸ List.mem_singleton_self line
  obtain ⟨-, -, htrim⟩ := (Message.lines_of_mem_ofText h).2.1 line hmem
  apply recognize?_of_trim_eq
  rw [Message.trim_piece_of_lines h hline]
  exact htrim

/-- The recognitions that one message gives rise to if it is taken line by line however few lines
it lists. -/
def recognitionsByLine (m : Matcher) (message : Message) : List Recognition :=
  match m.recognize? message with
  | some r => [r]
  | none => (message.links.filterMap m.recognize?).reverse

/-- The lines of a message that is no chain give rise to nothing that the message does not. -/
theorem filterMap_links_of_not_isChain (m : Matcher) (h : message ∈ Message.ofText blob)
    (hchain : message.isChain = false) (hnone : m.recognize? message = none) :
  message.links.filterMap m.recognize? = []
  := by
  rw [Message.isChain, decide_eq_false_iff_not, Nat.not_lt] at hchain
  rw [Message.links]
  cases hlines : message.lines with
  | nil => rfl
  | cons line lines =>
      rw [hlines, List.length_cons] at hchain
      obtain rfl : lines = [] := List.length_eq_zero_iff.mp (by omega)
      have hline : m.recognize? (.ofLine line) = none := by
        rw [m.recognize?_ofLine h hlines, hnone]
      rw [List.map_singleton, List.filterMap_cons_none hline]
      rfl

theorem recognitions_eq_recognitionsByLine (m : Matcher) (h : message ∈ Message.ofText blob) :
  m.recognitions message = m.recognitionsByLine message
  := by
  rw [recognitions, recognitionsByLine]
  cases hfound : m.recognize? message with
  | some found => rfl
  | none =>
      dsimp only
      cases hchain : message.isChain with
      | true => rfl
      | false =>
          rw [m.filterMap_links_of_not_isChain h hchain hfound]
          rfl

/-- What is recognised in a blob is, for one message after the other, the recognition of the message
as a whole, and without one those of all its lines from the last one up, however few lines the
message lists. -/
theorem recognizeAll_eq_recognitionsByLine (m : Matcher) (blob : Text) :
  m.recognizeAll blob = (Message.ofText blob).flatMap m.recognitionsByLine
  := by
  rw [recognizeAll, List.flatMap_congr]
  intro message hmessage
  apply m.recognitions_eq_recognitionsByLine hmessage

/-- A line that nothing accounts for, a message of three lines of which two are recognised, and one
that is recognised as a whole. -/
theorem recognizeAll_eq_recognitionsByLine_chain :
  let t : Template :=
    ⟨7, .error, "é\x7b0\x7d.".toList, [.literal "é".toList, .slot 0, .literal ".".toList],
      by decide, by decide⟩
  let m : Matcher := ⟨[t]⟩
  let blob := "?\né1.\n ?\n é2.\né3.".toList
  (Message.ofText blob).map (·.isChain) = [false, true, false]
    ∧ (Message.ofText blob).map (fun message => (m.recognitionsByLine message).map (·.window.span))
      = [[], [⟨11, 15⟩, ⟨2, 6⟩], [⟨16, 20⟩]]
    ∧ (m.recognizeAll blob).map (·.window.span) = [⟨11, 15⟩, ⟨2, 6⟩, ⟨16, 20⟩]
  := by
  intro t m blob
  rw [recognizeAll_eq_recognitionsByLine]
  decide

end Matcher

end Diagnostics
