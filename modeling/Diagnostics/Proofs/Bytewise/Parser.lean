import Diagnostics.Parser
import Diagnostics.Proofs.Bytewise.FrontMatter
import Diagnostics.Proofs.Bytewise.Message
import Diagnostics.Proofs.Bytewise.Scan
import Diagnostics.Proofs.Bytewise.Substitution
import Diagnostics.Proofs.Parser.Concat

/-!
# Parsing by bytes

`Bytewise.parse?` puts the functions that work by bytes together: it goes through the messages of a
blob, scans the templates along them and along their lines, cuts the documents of the explanations
and converts the offsets.  It has a value for every parser and every blob, and this is `parse`.
-/

namespace Diagnostics

namespace Bytewise

/-- A template that a span of a text has been matched with. -/
structure Match where
  template : Template
  window : Span
  captures : List Capture
  deriving DecidableEq

namespace Match

/-- The texts that fill the slots. -/
def items (found : Match) : List Text := found.captures.map (·.text)

/-- The match of a recognition. -/
def ofRecognition (r : Recognition) : Match :=
  ⟨r.template, r.window.span, r.captures.map Capture.ofPiece⟩

end Match

/-! ### Recognitions -/

/-- The first template that accounts for a span. -/
def firstMatch? (source : Text) (window : Span) : List Template → Option (Option Match)
  | [] => some none
  | t :: ts => do
    match ← captures? t source window with
    | some captures => some (some ⟨t, window, captures⟩)
    | none => firstMatch? source window ts

/-- The match of a span, without the white space around it. -/
def recognize? (m : Matcher) (source : Text) (span : Span) : Option (Option Match) := do
  let window ← trim? source span
  if window.isEmpty then
    some none
  else
    firstMatch? source window m.order

/-- The matches that one message gives rise to. -/
def recognitions? (m : Matcher) (source : Text) (message : Outline) : Option (List Match) := do
  match ← recognize? m source message.span with
  | some found => some [found]
  | none =>
    if 1 < message.lines.length then
      let links ← message.lines.mapM (recognize? m source)
      some (links.filterMap id).reverse
    else
      some []

/-- The matches of all messages of a text. -/
def recognizeAll? (m : Matcher) (source : Text) : Option (List Match) := do
  let messages ← messages? source 0
  let found ← messages.mapM (recognitions? m source)
  some found.flatten

/-! ### Findings -/

/-- The explanation that a document gives for the items of a message. -/
def ofDocument? (source : Explanation.Source) (code : Nat) (items : List Text)
    (document : Text) : Option (Except Explanation.Error Explanation) := do
  match ← splitFrontMatter? document with
  | none => some (.error (.missingFrontMatter code))
  | some (matter, body) =>
    match source.excerpt? matter with
    | none => some (.error (.frontMatter code))
    | some excerpt =>
      let body ← substitute? .bare items body
      let excerpt ← substitute? .quoted items excerpt
      some (.ok ⟨body, excerpt⟩)

/-- The explanation of a message, by its code and its items. -/
def load? (source : Explanation.Source) (code : Nat) (items : List Text) :
    Option (Except Explanation.Error Explanation) :=
  match source.read code with
  | .error e => some (.error e)
  | .ok document => ofDocument? source code items document

/-- The explanation of a match, if explanations are asked for and there is one. -/
def explain? (p : Parser) (found : Match) : Option (Option Explanation) :=
  match p.source with
  | none => some none
  | some source => (load? source found.template.code found.items).map Except.toOption

/-- The offset in a unit of a byte offset in a text. -/
def offset? (unit : OffsetUnit) (source : Text) (n : Nat) : Option Nat :=
  match unit with
  | .utf8 => some n
  | .utf16 => (upTo? source n).map fun before => (OffsetUnit.utf16.encode before).length

/-- The finding of a match in a text. -/
def finding? (p : Parser) (source : Text) (found : Match) : Option Finding := do
  let improvedError ← explain? p found
  let start ← offset? p.options.offsets source found.window.start
  let stop ← offset? p.options.offsets source found.window.stop
  some
    ⟨found.template.code, found.template.pattern, improvedError,
      ⟨start, stop, found.items, p.options.legacyItemFields⟩⟩

/-- The findings in a text. -/
def parse? (p : Parser) (source : Text) : Option (List Finding) := do
  let found ← recognizeAll? p.matcher source
  found.mapM (finding? p source)

variable {m : Matcher} {p : Parser} {source : Text}

/-! ### What is recognised -/

theorem mapM_eq_some_map {α β : Type} {f : α → Option β} {g : α → β} {l : List α}
    (h : ∀ a ∈ l, f a = some (g a)) :
  l.mapM f = some (l.map g)
  := by
  rw [mapM_eq_some_iff, List.map_map]
  apply List.map_congr_left h

/-- The templates are tried by bytes in their order. -/
theorem firstMatch?_span {window : Piece} (h : window.IsPieceOf source) (ts : List Template) :
  firstMatch? source window.span ts
    = some ((ts.findSome? fun t => (t.captures? window).map (⟨t, window, ·⟩)).map
        Match.ofRecognition)
  := by
  induction ts with
  | nil => rfl
  | cons t ts ih =>
      rw [firstMatch?, captures?_span h, Option.bind_eq_bind, Option.bind_some,
        List.findSome?_cons]
      cases t.captures? window with
      | none => exact ih
      | some captures => rfl

/-- A span is recognised by bytes as the message of its piece is. -/
theorem recognize?_span (message : Message) (h : message.piece.IsPieceOf source) :
  recognize? m source message.piece.span
    = some ((m.recognize? message).map Match.ofRecognition)
  := by
  rw [recognize?, trim?_span h, Option.bind_eq_bind, Option.bind_some, Piece.isEmpty_span,
    firstMatch?_span h.trim, Matcher.recognize?]
  split
  · rfl
  · rfl

/-- A message is recognised by bytes as a whole or line by line, as it is. -/
theorem recognitions?_ofMessage {message : Message} (h : message.piece.IsPieceOf source)
    (hlines : ∀ line ∈ message.lines, line.IsPieceOf source) :
  recognitions? m source (Outline.ofMessage message)
    = some ((m.recognitions message).map Match.ofRecognition)
  := by
  have hlinks : (message.lines.map Piece.span).mapM (recognize? m source)
      = some (message.lines.map fun line =>
          (m.recognize? (.ofLine line)).map Match.ofRecognition) := by
    rw [List.mapM_map]
    apply mapM_eq_some_map
    intro line hline
    apply recognize?_span (.ofLine line) (hlines line hline)
  rw [recognitions?, Outline.ofMessage, recognize?_span message h, Option.bind_eq_bind,
    Option.bind_some, Matcher.recognitions, Message.isChain]
  cases m.recognize? message with
  | some found => rfl
  | none =>
      dsimp only [Option.map_none]
      rw [List.length_map, hlinks, Message.links]
      simp only [decide_eq_true_eq, Option.bind_eq_bind, Option.bind_some, List.filterMap_map]
      split
      · rw [List.map_reverse, List.map_filterMap]
        rfl
      · rfl

/-- All that is recognised in a text is recognised by bytes. -/
theorem recognizeAll?_eq (m : Matcher) (source : Text) :
  recognizeAll? m source = some ((m.recognizeAll source).map Match.ofRecognition)
  := by
  have hfound : ((Message.ofText source).map Outline.ofMessage).mapM (recognitions? m source)
      = some ((Message.ofText source).map fun message =>
          (m.recognitions message).map Match.ofRecognition) := by
    rw [List.mapM_map]
    apply mapM_eq_some_map
    intro message hmessage
    apply recognitions?_ofMessage (Message.isPieceOf_of_mem_ofText hmessage)
    intro line hline
    apply Message.isPieceOf_of_mem_lines hmessage hline
  rw [recognizeAll?, messages?_zero, Option.bind_eq_bind, Option.bind_some, hfound,
    Matcher.recognizeAll, List.map_flatMap]
  rfl

/-! ### What is found -/

theorem ofDocument?_eq (source : Explanation.Source) (code : Nat) (items : List Text)
    (document : Text) :
  ofDocument? source code items document
    = some (Explanation.ofDocument source code items document)
  := by
  rw [ofDocument?, splitFrontMatter?_eq, Option.bind_eq_bind, Option.bind_some,
    Explanation.ofDocument]
  cases FrontMatter.split? document with
  | none => rfl
  | some parts =>
      obtain ⟨matter, body⟩ := parts
      dsimp only
      cases source.excerpt? matter with
      | none => rfl
      | some excerpt =>
          dsimp only
          rw [substitute?_eq, substitute?_eq]
          rfl

theorem load?_eq (source : Explanation.Source) (code : Nat) (items : List Text) :
  load? source code items = some (Explanation.load source code items)
  := by
  rw [load?, Explanation.load]
  cases source.read code with
  | error e => rfl
  | ok document => exact ofDocument?_eq source code items document

theorem items_ofRecognition (found : Recognition) :
  (Match.ofRecognition found).items = found.items
  := by
  rw [Match.items, Match.ofRecognition, List.map_map]
  rfl

theorem explain?_ofRecognition (p : Parser) (found : Recognition) :
  explain? p (Match.ofRecognition found) = some (p.explain found).1
  := by
  rw [explain?, Parser.explain, items_ofRecognition]
  cases p.source with
  | none => rfl
  | some source =>
      dsimp only [Option.elim_some]
      rw [load?_eq, Option.map_some, Explanation.loadOrWarn, Match.ofRecognition]
      cases Explanation.load source found.template.code found.items with
      | ok e => rfl
      | error e =>
          cases e with
          | notFound _ => rfl
          | unreadable _ _ => rfl
          | missingFrontMatter _ => rfl
          | frontMatter _ => rfl

/-- An offset between two characters is converted by cutting the text there. -/
theorem offset?_eq (unit : OffsetUnit) {n : Nat} (h : source.IsBoundary n) :
  offset? unit source n = some (unit.offset source n)
  := by
  obtain ⟨a, b, rfl, rfl⟩ := h
  cases unit with
  | utf8 => rfl
  | utf16 =>
      simp [offset?, upTo?_append]

theorem finding?_ofRecognition {found : Recognition} (h : found.window.IsPieceOf source) :
  finding? p source (Match.ofRecognition found) = some (p.finding source found)
  := by
  have hstart : offset? p.options.offsets source (Match.ofRecognition found).window.start = _ :=
    offset?_eq p.options.offsets h.isBoundary_start
  have hstop : offset? p.options.offsets source (Match.ofRecognition found).window.stop = _ :=
    offset?_eq p.options.offsets h.isBoundary_stop
  rw [finding?, explain?_ofRecognition, hstart, hstop, items_ofRecognition]
  rfl

/-- Parsing works by bytes: whatever the templates, the options, the explanation documents and the
text are, no step of `parse?` cuts a text past its end or inside a character, asks for a slot that
the template does not have, takes a larger offset from a smaller one or makes a span that runs
backwards, and what comes of it are the findings in the text. -/
theorem parse?_eq_some (p : Parser) (source : Text) :
  parse? p source = some (p.parse source)
  := by
  rw [parse?, recognizeAll?_eq, Option.bind_eq_bind, Option.bind_some, List.mapM_map,
    Parser.parse]
  apply mapM_eq_some_map
  intro found hfound
  apply finding?_ofRecognition (Matcher.isPieceOf_of_mem_recognizeAll hfound)

end Bytewise

end Diagnostics
