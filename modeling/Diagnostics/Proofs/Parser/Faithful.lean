import Diagnostics.Parser
import Diagnostics.Proofs.Matching.Choice
import Diagnostics.Proofs.Message.Places
import Diagnostics.Proofs.Text.Encoding

/-!
# Faithful findings

A recognition comes from a message or from a line of a message, which stands in the blob, and its
items account for all of it.  A finding therefore says nothing about a blob that is not so: the
template of its code, filled with its items, is what the blob holds between its offsets.
-/

namespace Diagnostics

namespace Matcher

variable {m : Matcher} {blob : Text} {found : Recognition}

/-- A recognition comes from a message of the blob or from a line of one. -/
theorem exists_of_mem_recognizeAll (h : found ∈ m.recognizeAll blob) :
  ∃ message : Message, message.piece.IsPieceOf blob ∧ m.recognize? message = some found
  := by
  obtain ⟨message, hmessage, hfound⟩ := List.mem_flatMap.mp h
  rw [recognitions] at hfound
  split at hfound
  case h_1 other hother =>
      use message, Message.isPieceOf_of_mem_ofText hmessage
      rw [hother, List.mem_singleton.mp hfound]
  split at hfound
  case isFalse => cases hfound
  obtain ⟨link, hlink, hrecognize⟩ := List.mem_filterMap.mp (List.mem_reverse.mp hfound)
  obtain ⟨line, hline, rfl⟩ := List.mem_map.mp hlink
  use Message.ofLine line, Message.isPieceOf_of_mem_lines hmessage hline

end Matcher

namespace Parser

/-- Every finding is a faithful account of the blob.  The template that the registry has for its
code has its pattern and one slot for each of its items, and filled with them it is the part of
the blob between the two offsets, in the unit that the options ask for; this part is not empty
and has no white space at its ends. -/
theorem parse_faithful (r : Registry) (options : Options) (source : Option Explanation.Source)
    (blob : Text) {f : Finding}
    (h : f ∈ (Parser.mk (.ofRegistry r) options source).parse blob) :
  ∃ t, r.lookup f.code = some t ∧ t.pattern = f.error ∧ f.parseInfo.items.length = t.arity
    ∧ options.offsets.Cuts blob f.parseInfo.startIndex f.parseInfo.endIndex
      (t.render f.parseInfo.items)
    ∧ (options.offsets.encode blob).extract f.parseInfo.startIndex f.parseInfo.endIndex
      = options.offsets.encode (t.render f.parseInfo.items)
    ∧ t.render f.parseInfo.items ≠ [] ∧ (t.render f.parseInfo.items).IsTrimmed
  := by
  obtain ⟨found, hfound, rfl⟩ := List.mem_map.mp h
  obtain ⟨message, hpiece, hrecognize⟩ := Matcher.exists_of_mem_recognizeAll hfound
  obtain ⟨hempty, hwindow, hmem, hcaptures, -⟩ := Matcher.of_recognize?_eq_some hrecognize
  obtain ⟨hlength, hrender, -, -⟩ := Template.accounts_of_captures? hcaptures
  have hcuts := options.offsets.cuts_of_isPieceOf hpiece.trim
  rw [← hrender, ← hwindow] at hcuts
  use found.template, Registry.lookup_eq_some_of_mem hmem, rfl, hlength, hcuts,
    hcuts.extract_encode
  dsimp only [finding, Recognition.items]
  rw [hrender]
  exact ⟨hempty, Text.isTrimmed_trim _⟩

/-- A cause below a head line that nothing accounts for, behind a character of two code units. -/
theorem parse_faithful_cause :
  let t : Template :=
    ⟨7, .error, "é{0}.".toList, [.literal "é".toList, .slot 0, .literal ".".toList],
      by decide, by decide⟩
  let r : Registry := ⟨[t], by decide⟩
  let blob := "?\n 😀\n é😀é.\n".toList
  let f : Finding := ⟨7, "é{0}.".toList, none, ⟨7, 12, ["😀é".toList], false⟩⟩
  f ∈ (Parser.mk (.ofRegistry r) { offsets := .utf16 } none).parse blob
    ∧ (OffsetUnit.utf16.encode blob).extract 7 12 = OffsetUnit.utf16.encode "é😀é.".toList
  := by
  intro t r blob f
  have horder : Matcher.ofRegistry r = ⟨[t]⟩ := by
    rw [Matcher.ofRegistry, Registry.bySpecificity, List.mergeSort_singleton]
  have hmem : f ∈ (Parser.mk (.ofRegistry r) { offsets := .utf16 } none).parse blob := by
    rw [horder]
    decide
  use hmem
  obtain ⟨u, hu, -, -, -, hextract, -⟩ := parse_faithful r _ none blob hmem
  obtain rfl : t = u := by simpa [Registry.lookup, r, f, t] using hu
  exact hextract

end Parser

end Diagnostics
