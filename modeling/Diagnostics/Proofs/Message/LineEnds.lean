import Diagnostics.Proofs.Message.Tiling
import Diagnostics.Proofs.Registry.Order
import Diagnostics.Proofs.Template.Segments
import Diagnostics.Proofs.Text.LineEnds
import Mathlib.Data.List.TakeWhile

/-!
# Messages with other line ends

A text and the same text with a carriage return in front of every line feed have the same messages
in different places.  A piece of the one and the piece that stands there in the other are in a
simulation, as long as no literal holds one of the two characters.
-/

namespace Diagnostics

namespace Piece

variable {source a b t : Text} {p p' : Piece}

/-- A piece of a text, and what stands in its place when a carriage return is put in front of every
line feed of the text. -/
def Crlf (source : Text) (p p' : Piece) : Prop :=
  ∃ before after, source = before ++ p.text ++ after ∧ p.start = before.utf8Length
    ∧ p' = ⟨before.crlf.utf8Length, p.text.crlf⟩

theorem Crlf.text (h : Crlf source p p') :
  p'.text = p.text.crlf
  := by
  obtain ⟨before, after, -, -, rfl⟩ := h
  rfl

/-- The bounds of a piece move by the number of the line feeds in front of them. -/
theorem Crlf.span (h : Crlf source p p') :
  p'.span = source.crlfSpan p.span
  := by
  obtain ⟨before, after, rfl, hstart, rfl⟩ := h
  have hstop : p.stop = (before ++ p.text).utf8Length := by simp [stop, hstart]
  rw [Piece.span, Piece.span, Text.crlfSpan, hstop, Text.feedsBefore_append, ← Text.utf8Length_crlf,
    hstart, List.append_assoc, Text.feedsBefore_append, ← Text.utf8Length_crlf, stop,
    ← Text.utf8Length_append, ← Text.crlf_append]

/-- What stands in the place of a part of a piece. -/
theorem Crlf.part (h : Crlf source p p') (htext : p.text = a ++ t ++ b) :
  Crlf source ⟨p.start + a.utf8Length, t⟩ ⟨p'.start + a.crlf.utf8Length, t.crlf⟩
  := by
  obtain ⟨before, after, hsource, hstart, rfl⟩ := h
  use before ++ a, b ++ after
  constructor
  · rw [hsource, htext]
    simp
  constructor
  · simp [hstart]
  · simp

/-- Line ends that are trimmed away may be of either kind. -/
theorem trim_crlf (n : Nat) (s : Text) :
  trim ⟨n, s.crlf⟩ = ⟨n + (Text.crlf (s.takeWhile Text.isBlank)).utf8Length, s.trim.crlf⟩
  := by
  cases hblank : Text.isBlankText s with
  | true =>
      have hcrlf : Text.isBlankText s.crlf = true := by simpa using hblank
      rw [trim, Text.trim_of_blank hcrlf, Text.trim_of_blank hblank,
        List.takeWhile_eq_self_iff.mpr (List.all_eq_true.mp hcrlf),
        List.takeWhile_eq_self_iff.mpr (List.all_eq_true.mp hblank)]
      rfl
  | false =>
      obtain ⟨after, hs, hafter⟩ := Text.exists_eq_append_trim_append s
      have hne : s.trim.crlf ≠ [] := by
        rw [ne_eq, Text.crlf_eq_nil_iff, ← List.isEmpty_iff, Text.isEmpty_trim, hblank]
        apply Bool.false_ne_true
      have hcrlf : s.crlf = Text.crlf (s.takeWhile Text.isBlank) ++ s.trim.crlf ++ after.crlf := by
        rw [← Text.crlf_append, ← Text.crlf_append, ← hs]
      have hfront : Text.isBlankText (Text.crlf (s.takeWhile Text.isBlank)) = true := by
        rw [Text.isBlankText_crlf]
        apply List.all_takeWhile
      have hback : Text.isBlankText after.crlf = true := by simpa using hafter
      rw [hcrlf, trim_mk hfront (Text.isTrimmed_trim s).crlf hne hback]

/-- Matching respects what stands in a place as long as it looks for nothing that holds one of the
two characters. -/
theorem simulation_crlf (source : Text) :
  Simulation (Crlf source) fun l => '\r' ∉ l ∧ '\n' ∉ l
  where
  text_eq_iff := by
    intro p p' q q' hp hq
    rw [hp.text, hq.text, Text.crlf_injective.eq_iff]
  front := by
    intro p p' h
    exact h.part (a := []) (t := []) rfl
  trim := by
    intro p p' h
    obtain ⟨after, htext, -⟩ := Text.exists_eq_append_trim_append p.text
    have htrim := h.part htext
    rwa [← trim_crlf, ← h.text] at htrim
  after? := by
    rintro p p' l ⟨hr, hn⟩ h
    rw [after?, after?, h.text, Text.isPrefixOf?_crlf hr hn, Option.map_map]
    cases hprefix : l.isPrefixOf? p.text with
    | none => exact .none
    | some rest =>
        have htext := Text.isPrefixOf?_eq_some_iff.mp hprefix
        have hrest := h.part (a := l) (t := rest) (b := []) (by simpa using htext)
        rw [Text.crlf_eq_self hn] at hrest
        exact .some hrest
  splitAtFirst? := by
    rintro p p' l ⟨hr, hn⟩ h
    rw [splitAtFirst?, splitAtFirst?, h.text, Text.splitAtFirst?_crlf hr hn, Option.map_map]
    cases hsplit : Text.splitAtFirst? l p.text with
    | none => exact .none
    | some ab =>
        obtain ⟨a, b⟩ := ab
        obtain ⟨htext, -⟩ := Text.splitAtFirst?_eq_some_iff.mp hsplit
        have hitem := h.part (a := []) (t := a) (b := l ++ b) (by simpa using htext)
        have hrest := h.part (a := a ++ l) (t := b) (b := []) (by simpa using htext)
        simp only [Text.crlf_append, Text.crlf_eq_self hn, Text.utf8Length_append,
          ← Nat.add_assoc] at hrest
        exact .some ⟨hitem, hrest⟩

end Piece

namespace Message

variable {source before after : Text} {ls : List Text}

theorem opens_crlf (l : Text) :
  opens l.crlf = opens l
  := by
  have hopens (s : Text) : opens s = (s.head?.map Text.isBlank).any (!·) := by
    rw [opens, Option.any_map]
  rw [hopens, hopens, Text.map_isBlank_head?_crlf]

/-- The lines that are listed are those that stand in their places. -/
theorem listed_crlf (h : source = before ++ ls.flatten ++ after) :
  List.Forall₂ (Piece.Crlf source) (listed before.utf8Length ls)
    (listed before.crlf.utf8Length (ls.map Text.crlf))
  := by
  induction ls generalizing before with
  | nil => exact .nil
  | cons l ls ih =>
      have hsource : source = (before ++ l) ++ ls.flatten ++ after := by simp [h]
      have hrest := ih hsource
      have hline : Piece.Crlf source ⟨before.utf8Length, l⟩ ⟨before.crlf.utf8Length, l.crlf⟩ := by
        use before, ls.flatten ++ after
        simp [h]
      simp only [Text.crlf_append, Text.utf8Length_append] at hrest
      rw [List.map_cons, listed_cons, listed_cons, Text.isBlankText_crlf]
      split
      · exact hrest
      · exact .cons ((Piece.simulation_crlf source).trim hline) hrest

/-- The message of a run of lines and the one of the lines in their places. -/
theorem ofBlock_crlf (hne : ls ≠ []) (h : source = before ++ ls.flatten ++ after) :
  Rel (Piece.Crlf source) (ofBlock (place before.utf8Length ls))
    (ofBlock (place before.crlf.utf8Length (ls.map Text.crlf)))
  := by
  constructor
  · rw [piece_ofBlock_place _ hne, piece_ofBlock_place _ (by simpa using hne), ← Text.crlf_flatten]
    exact ⟨before, after, h, rfl, rfl⟩
  · apply listed_crlf h

/-- Blocks begin at the same lines. -/
theorem blocks_crlf :
  ∀ {before : Text} (ls : List Text), source = before ++ ls.flatten ++ after →
    List.Forall₂ (Rel (Piece.Crlf source)) ((blocks (place before.utf8Length ls)).map ofBlock)
      ((blocks (place before.crlf.utf8Length (ls.map Text.crlf))).map ofBlock)
  | _, [], _ => .nil
  | before, l :: ls, h => by
      obtain ⟨as, bs, rfl, has, hbs, -⟩ := exists_opening_split ls
      have hclosed : ∀ a ∈ as.map Text.crlf, opens a = false := by
        simpa [opens_crlf] using has
      have hopen : ∀ b ∈ (bs.map Text.crlf).head?, opens b = true := by
        simpa [opens_crlf] using hbs
      have hfirst : source = before ++ (l :: as).flatten ++ (bs.flatten ++ after) := by simp [h]
      have hrest : source = (before ++ (l :: as).flatten) ++ bs.flatten ++ after := by simp [h]
      have ih := blocks_crlf bs hrest
      simp only [Text.crlf_append, Text.utf8Length_append, Text.crlf_flatten] at ih
      rw [List.map_cons, List.map_append, blocks_place_cons _ _ has hbs,
        blocks_place_cons _ _ hclosed hopen]
      exact .cons (ofBlock_crlf (List.cons_ne_nil l as) hfirst) ih
termination_by _ ls => ls.length

/-- The messages of a blob are those that stand in their places. -/
theorem ofText_crlf (blob : Text) :
  List.Forall₂ (Rel (Piece.Crlf blob)) (ofText blob) (ofText blob.crlf)
  := by
  have hblob : blob = [] ++ blob.lines.flatten ++ [] := by simp
  have h := blocks_crlf blob.lines hblob
  rw [← Text.lines_crlf] at h
  exact h

end Message

/-! ### Recognitions -/

namespace Recognition

variable {blob : Text} {found found' : Recognition}

theorem items_crlf (h : Rel (Piece.Crlf blob) found found') :
  found'.items = found.items.map Text.crlf
  := by
  rw [items, items, List.map_map]
  apply (map_eq_of_rel h.captures _).symm
  intro p p' hp
  apply hp.text.symm

theorem spans_crlf (h : Rel (Piece.Crlf blob) found found') :
  found'.captures.map (·.span) = found.captures.map fun p => blob.crlfSpan p.span
  := by
  apply (map_eq_of_rel h.captures _).symm
  intro p p' hp
  apply hp.span.symm

end Recognition

namespace Matcher

/-- What is recognised in a blob does not depend on its line ends, as long as no pattern holds a
carriage return or a line feed: with a carriage return in front of every line feed of the blob, the
same templates are recognised in the same order, their slots are filled with the same texts but for
the line ends in them, and every offset has moved by the number of line feeds in front of it. -/
theorem recognizeAll_crlf (r : Registry) (blob : Text)
    (hr : ∀ t ∈ r.templates, '\r' ∉ t.pattern ∧ '\n' ∉ t.pattern) :
  List.Forall₂
    (fun found found' => found'.template = found.template
      ∧ found'.items = found.items.map Text.crlf
      ∧ found'.window.span = blob.crlfSpan found.window.span
      ∧ found'.captures.map (·.span) = found.captures.map fun p => blob.crlfSpan p.span)
    ((ofRegistry r).recognizeAll blob) ((ofRegistry r).recognizeAll blob.crlf)
  := by
  have hliterals : ∀ t ∈ (ofRegistry r).order, ∀ l, .literal l ∈ t.segments →
      '\r' ∉ l ∧ '\n' ∉ l := by
    intro t ht l hl
    obtain ⟨hcr, hlf⟩ := hr t (Registry.mem_bySpecificity.mp ht)
    exact ⟨fun h => hcr (Template.mem_pattern_of_mem_literal hl h),
      fun h => hlf (Template.mem_pattern_of_mem_literal hl h)⟩
  have hrel : List.Forall₂ (Recognition.Rel (Piece.Crlf blob)) ((ofRegistry r).recognizeAll blob)
      ((ofRegistry r).recognizeAll blob.crlf) := by
    apply List.rel_flatMap (Message.ofText_crlf blob)
    intro message message' hmessage
    apply (Piece.simulation_crlf blob).recognitions hliterals hmessage
  apply hrel.imp
  intro found found' h
  use h.template.symm, Recognition.items_crlf h, h.window.span, Recognition.spans_crlf h

/-- A slot that is filled twice across the end of a line, behind a line that nothing accounts
for. -/
theorem recognizeAll_crlf_lines :
  let t : Template :=
    ⟨7, .error, "{0}:{0}".toList, [.slot 0, .literal ":".toList, .slot 0], by decide, by decide⟩
  let r : Registry := ⟨[t], by decide⟩
  let blob : Text := "x\na\n b:a\n b\n".toList
  let seen (rs : List Recognition) := rs.map fun r => (r.template.code, r.items, r.window.span)
  seen ((ofRegistry r).recognizeAll blob) = [(7, ["a\n b".toList], ⟨2, 11⟩)]
    ∧ seen ((ofRegistry r).recognizeAll blob.crlf) = [(7, ["a\r\n b".toList], ⟨3, 14⟩)]
  := by
  intro t r blob seen
  have horder : ofRegistry r = ⟨[t]⟩ := by
    rw [ofRegistry, Registry.bySpecificity, List.mergeSort_singleton]
  have hfound : (ofRegistry r).recognizeAll blob =
      [⟨t, ⟨2, "a\n b:a\n b".toList⟩, [⟨2, "a\n b".toList⟩]⟩] := by
    rw [horder]
    decide
  have hall := recognizeAll_crlf r blob (by decide)
  rw [hfound] at hall
  obtain ⟨found, rest, ⟨htemplate, hitems, hspan, -⟩, hrest, hcrlf⟩ :=
    List.forall₂_cons_left_iff.mp hall
  rw [List.forall₂_nil_left_iff.mp hrest] at hcrlf
  have hitems' : found.items = ["a\r\n b".toList] := hitems.trans (by decide)
  have hspan' : found.window.span = ⟨3, 14⟩ := hspan.trans (by decide)
  rw [hfound, hcrlf]
  constructor
  · rfl
  · dsimp only [seen, List.map]
    rw [htemplate, hitems', hspan']

end Matcher

end Diagnostics
