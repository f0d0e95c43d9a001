import Diagnostics.Placeholder

/-!
# Segments

The pattern of a template is read in two steps.  `Token.ofText` reads it into tokens, which are
single characters and placeholders with their numerals as written; the tokens put together are
the pattern.  `Segment.ofTokens` then joins neighbouring characters into literals and keeps of
a placeholder only its index.
-/

namespace Diagnostics

/-- A token of a pattern. -/
inductive Token where
  /-- A character that belongs to no placeholder. -/
  | char (c : Char)
  /-- A placeholder with the numeral between its braces. -/
  | slot (numeral : Text)
  deriving DecidableEq, Repr

namespace Token

/-- The text that a token was read from. -/
def text : Token → Text
  | char c => [c]
  | slot numeral => Placeholder.spell numeral

/-- The tokens of a text after its first `n` characters. -/
def ofTextFrom : Nat → Text → List Token
  | _, [] => []
  | n + 1, _ :: s => ofTextFrom n s
  | 0, c :: s =>
    match Placeholder.numeral? (c :: s) with
    | some numeral => slot numeral :: ofTextFrom (numeral.length + 1) s
    | none => char c :: ofTextFrom 0 s

/-- The tokens of a text. -/
def ofText (s : Text) : List Token := ofTextFrom 0 s

theorem ofTextFrom_eq_ofText_drop (n : Nat) (s : Text) :
  ofTextFrom n s = ofText (s.drop n)
  := by
  induction n generalizing s with
  | zero => rfl
  | succ n ih =>
    cases s with
    | nil => rfl
    | cons c s => rw [ofTextFrom, ih, List.drop_succ_cons]

end Token

/-- A segment of a pattern. -/
inductive Segment where
  /-- Text that a message holds as it stands. -/
  | literal (text : Text)
  /-- A slot, filled by any text of a message. -/
  | slot (index : Nat)
  deriving DecidableEq, Repr

namespace Segment

/-- A character put in front of the segments after it. -/
def pushChar (c : Char) : List Segment → List Segment
  | literal l :: segments => literal (c :: l) :: segments
  | segments => literal [c] :: segments

/-- The segments of a list of tokens. -/
def ofTokens : List Token → List Segment
  | [] => []
  | .char c :: tokens => pushChar c (ofTokens tokens)
  | .slot numeral :: tokens => slot (Placeholder.value numeral) :: ofTokens tokens

/-- The segments of a pattern. -/
def ofText (pattern : Text) : List Segment := ofTokens (Token.ofText pattern)

/-- The index of a slot. -/
def index? : Segment → Option Nat
  | literal _ => none
  | slot i => some i

/-- The number of bytes that a segment asks for as they stand. -/
def literalLength : Segment → Nat
  | literal l => l.utf8Length
  | slot _ => 0

/-- The indices of the slots, in order of occurrence. -/
def indices (segments : List Segment) : List Nat := segments.filterMap index?

/-- One more than the largest index, and `0` without slots. -/
def arity (segments : List Segment) : Nat :=
  (indices segments).foldr (fun i n => max (i + 1) n) 0

/-- A segment as text, with the items that there are in place of its slot. -/
def render (items : List Text) : Segment → Text
  | literal l => l
  | slot i => (items[i]?).getD (Placeholder.write i)

end Segment

end Diagnostics
