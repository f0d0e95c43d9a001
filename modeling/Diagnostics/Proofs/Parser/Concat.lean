import Diagnostics.Proofs.Message.Concat
import Diagnostics.Proofs.Parser.Faithful

/-!
# Parsing texts put together

What stands in front of a head line and what stands behind a complete line have no influence on
what is found: a parser finds in two texts put together what it finds in the first and then what it
finds in the second, with the offsets of the latter counted from the beginning of the whole.
-/

namespace Diagnostics

open Text (IsTerminated BeginsMessage)

namespace Piece

variable {p : Piece} {source : Text}

theorem IsPieceOf.isBoundary_start (h : p.IsPieceOf source) :
  source.IsBoundary p.start
  := by
  obtain ⟨before, after, rfl, hstart⟩ := h
  use before, p.text ++ after, List.append_assoc _ _ _, hstart

theorem IsPieceOf.isBoundary_stop (h : p.IsPieceOf source) :
  source.IsBoundary p.stop
  := by
  obtain ⟨before, after, rfl, hstart⟩ := h
  use before ++ p.text, after, rfl
  simp [stop, hstart]

end Piece

namespace OffsetUnit

variable {a b : Text} {n : Nat}

/-- An offset in a text does not depend on what follows the text. -/
theorem offset_append_of_isBoundary (unit : OffsetUnit) (h : a.IsBoundary n) (b : Text) :
  unit.offset (a ++ b) n = unit.offset a n
  := by
  obtain ⟨x, y, rfl, rfl⟩ := h
  simp

/-- An offset in a text grows by what stands in front of the text. -/
theorem offset_add_of_isBoundary (unit : OffsetUnit) (a : Text) (h : b.IsBoundary n) :
  unit.offset (a ++ b) (a.utf8Length + n) = (unit.encode a).length + unit.offset b n
  := by
  obtain ⟨x, y, rfl, rfl⟩ := h
  simpa using offset_append unit (a ++ x) y

end OffsetUnit

namespace Matcher

variable {m : Matcher} {blob : Text} {found : Recognition}

theorem window_of_recognize? {message : Message} (h : m.recognize? message = some found) :
  found.window = message.piece.trim
  := by
  rw [recognize?] at h
  split at h
  · cases h
  · obtain ⟨t, -, ht⟩ := List.exists_of_findSome?_eq_some h
    obtain ⟨captures, -, rfl⟩ := Option.map_eq_some_iff.mp ht
    rfl

/-- What is recognised stands in the blob. -/
theorem isPieceOf_of_mem_recognizeAll (h : found ∈ m.recognizeAll blob) :
  found.window.IsPieceOf blob
  := by
  obtain ⟨message, hmessage, hfound⟩ := exists_of_mem_recognizeAll h
  rw [window_of_recognize? hfound]
  apply hmessage.trim

end Matcher

/-- A finding, `n` units further on. -/
def Finding.shift (n : Nat) (f : Finding) : Finding :=
  { f with
    parseInfo :=
      { f.parseInfo with
        startIndex := n + f.parseInfo.startIndex
        endIndex := n + f.parseInfo.endIndex } }

namespace Parser

variable {p : Parser} {a b : Text} {found : Recognition}

theorem explain_shift (p : Parser) (n : Nat) (r : Recognition) :
  p.explain (r.shift n) = p.explain r
  := by
  rw [explain, explain, Recognition.items_shift]
  rfl

/-- A finding does not depend on what follows the text that it was made in. -/
theorem finding_append (h : found.window.IsPieceOf a) (b : Text) :
  p.finding (a ++ b) found = p.finding a found
  := by
  simp only [finding, OffsetUnit.offset_append_of_isBoundary _ h.isBoundary_start,
    OffsetUnit.offset_append_of_isBoundary _ h.isBoundary_stop]

/-- The finding behind another text is the finding, further on by the length of that text. -/
theorem finding_shift (a : Text) (h : found.window.IsPieceOf b) :
  p.finding (a ++ b) (found.shift a.utf8Length)
    = (p.finding b found).shift (p.options.offsets.encode a).length
  := by
  have hstart := OffsetUnit.offset_add_of_isBoundary p.options.offsets a h.isBoundary_start
  have hstop := OffsetUnit.offset_add_of_isBoundary p.options.offsets a h.isBoundary_stop
  rw [finding, explain_shift, Recognition.items_shift, Recognition.shift, Piece.stop_shift,
    Piece.shift, hstart, hstop]
  rfl

/-- Parsing distributes over two texts put together at a head line: the findings of the whole are
those of the first text and those of the second one, whose offsets are larger by the length of the
first text in the unit of the options; the warnings of the two follow each other as well. -/
theorem parse_append (p : Parser) (ha : IsTerminated a) (hb : BeginsMessage b) :
  p.parse (a ++ b)
      = p.parse a ++ (p.parse b).map (Finding.shift (p.options.offsets.encode a).length)
    ∧ p.warnings (a ++ b) = p.warnings a ++ p.warnings b
  := by
  constructor
  · rw [parse, p.matcher.recognizeAll_append ha hb, List.map_append, List.map_map, parse, parse,
      List.map_map]
    congr 1
    · apply List.map_congr_left
      intro found hfound
      apply finding_append (Matcher.isPieceOf_of_mem_recognizeAll hfound)
    · apply List.map_congr_left
      intro found hfound
      apply finding_shift a (Matcher.isPieceOf_of_mem_recognizeAll hfound)
  · rw [warnings, p.matcher.recognizeAll_append ha hb, List.flatMap_append, List.flatMap_map,
      warnings, warnings]
    simp only [explain_shift]

/-- Behind a message of five code units, a message is found five code units further on, and told
about again. -/
theorem parse_append_surrogates :
  let t : Template :=
    ⟨7, .error, "é{0}.".toList, [.literal "é".toList, .slot 0, .literal ".".toList],
      by decide, by decide⟩
  let p : Parser :=
    ⟨⟨[t]⟩, { offsets := .utf16 }, some (.ofTable [(7, "no front matter".toList)])⟩
  let a := "é😀.\n".toList
  let b := "éb.\n ?".toList
  IsTerminated a ∧ BeginsMessage b
    ∧ p.parse b = [⟨7, "é{0}.".toList, none, ⟨0, 3, ["b".toList], false⟩⟩]
    ∧ p.parse (a ++ b)
      = [⟨7, "é{0}.".toList, none, ⟨0, 4, ["😀".toList], false⟩⟩,
        ⟨7, "é{0}.".toList, none, ⟨5, 8, ["b".toList], false⟩⟩]
    ∧ p.warnings (a ++ b) = [⟨7, .missingFrontMatter 7⟩, ⟨7, .missingFrontMatter 7⟩]
  := by
  intro t p a b
  have hlast : a.getLast? = some '\n' := by decide
  have hhead : b.head? = some 'é' := by decide
  have ha : IsTerminated a := by
    intro c hc
    rw [hlast] at hc
    exact (Option.some.inj hc).symm
  have hb : BeginsMessage b := by
    intro c hc
    rw [hhead] at hc
    obtain rfl := Option.some.inj hc
    decide
  obtain ⟨hparse, hwarnings⟩ := parse_append p ha hb
  rw [hparse, hwarnings]
  use ha, hb
  decide

end Parser

end Diagnostics
