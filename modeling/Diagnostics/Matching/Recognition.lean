import Diagnostics.Matching.Filling
import Diagnostics.Matching.Specificity
import Diagnostics.Message

/-!
# Recognitions

A recognition says which template a message comes from and what fills its slots.  A message is
recognised as a whole, without the white space around it, by the first template that accounts
for all of it.  A chain that no template accounts for is recognised line by line, and the
innermost cause, which stands last in the blob, comes first.  Messages and lines that nothing
accounts for are left out.
-/

namespace Diagnostics

/-- A message together with the template it comes from. -/
structure Recognition where
  template : Template
  /-- The message, without the white space around it. -/
  window : Piece
  /-- What fills the slots of the template, by index. -/
  captures : List Piece
  deriving DecidableEq

namespace Recognition

/-- The texts that fill the slots. -/
def items (r : Recognition) : List Text := r.captures.map (·.text)

end Recognition

/-- The templates that messages are compared with, in the order in which they are tried. -/
structure Matcher where
  order : List Template

namespace Matcher

/-- The matcher of a registry. -/
def ofRegistry (r : Registry) : Matcher := ⟨r.bySpecificity⟩

/-- The recognition of a message as a whole. -/
def recognize? (m : Matcher) (message : Message) : Option Recognition :=
  let window := message.piece.trim
  if window.text.isEmpty then
    none
  else
    m.order.findSome? fun t => (t.captures? window).map (⟨t, window, ·⟩)

/-- The recognitions that one message gives rise to. -/
def recognitions (m : Matcher) (message : Message) : List Recognition :=
  match m.recognize? message with
  | some r => [r]
  | none =>
    if message.isChain then
      (message.links.filterMap m.recognize?).reverse
    else
      []

/-- The recognitions of all messages of a blob, in order. -/
def recognizeAll (m : Matcher) (blob : Text) : List Recognition :=
  (Message.ofText blob).flatMap m.recognitions

end Matcher

end Diagnostics
