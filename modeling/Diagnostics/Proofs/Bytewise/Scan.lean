import Diagnostics.Proofs.Bytewise.Basic
import Diagnostics.Proofs.Matching.Account

/-!
# Scans by bytes

A scan walks along a span of a text with the segments of a template.  It keeps an offset, the slot
that waits for its end, and a list of what the slots have been filled with.  A step can come out in
three ways: it stops for a cut that is out of range, it finds that the template does not fit, or it
leaves a scan.  The first of these never happens, and the others are those of `Filling.cut`.
-/

namespace Diagnostics

namespace Piece

variable {a b l source : Text} {p q item : Piece}

/-! ### Parts of pieces -/

theorem IsPieceOf.left (h : p.IsPieceOf source) (htext : p.text = q.text ++ b)
    (hstart : q.start = p.start) :
  q.IsPieceOf source
  := by
  obtain ⟨before, after, hsource, hp⟩ := h
  use before, b ++ after
  rw [hsource, htext, hstart, hp]
  simp

theorem IsPieceOf.right (h : p.IsPieceOf source) (htext : p.text = a ++ q.text)
    (hstart : q.start = p.start + a.utf8Length) :
  q.IsPieceOf source
  := by
  obtain ⟨before, after, hsource, hp⟩ := h
  use before ++ a, after
  simp [hsource, htext, hstart, hp]

theorem stop_of_right (htext : p.text = a ++ q.text) (hstart : q.start = p.start + a.utf8Length) :
  q.stop = p.stop
  := by
  simp [stop, htext, hstart, Nat.add_assoc]

theorem IsPieceOf.front (h : p.IsPieceOf source) :
  p.front.IsPieceOf source
  := h.left (b := p.text) rfl rfl

/-- What is left of a piece after a literal is a part of the source that ends where the piece
does. -/
theorem IsPieceOf.after? (h : p.IsPieceOf source) (hafter : p.after? l = some q) :
  q.IsPieceOf source ∧ q.stop = p.stop
  := by
  obtain ⟨htext, hstart⟩ := after?_eq_some_iff.mp hafter
  exact ⟨h.right htext hstart, stop_of_right htext hstart⟩

/-- What stands on the two sides of a literal in a piece are parts of the source, and the second
of them ends where the piece does. -/
theorem IsPieceOf.splitAtFirst? (h : p.IsPieceOf source)
    (hsplit : p.splitAtFirst? l = some (item, q)) :
  item.IsPieceOf source ∧ q.IsPieceOf source ∧ q.stop = p.stop
  := by
  obtain ⟨htext, -, hitem, hstart⟩ := splitAtFirst?_eq_some_iff.mp hsplit
  rw [Nat.add_assoc, ← Text.utf8Length_append] at hstart
  use h.left (htext.trans (List.append_assoc _ _ _)) hitem, h.right htext hstart,
    stop_of_right htext hstart

end Piece

namespace Filling

variable {fs gs : List Filling} {f : Filling} {i : Nat} {p : Piece}

/-! ### More fillings -/

theorem first?_append (fs gs : List Filling) (i : Nat) :
  first? (fs ++ gs) i = (first? fs i).or (first? gs i)
  := by
  rw [first?, first?, first?, List.find?_append, Option.map_or]

theorem first?_append_of_some (h : first? fs i = some p) :
  first? (fs ++ gs) i = some p
  := by
  rw [first?_append, h, Option.some_or]

theorem consistent_iff :
  consistent fs = true ↔ ∀ f ∈ fs, ∀ p, first? fs f.index = some p → p.text = f.piece.text
  := by
  rw [consistent, List.all_eq_true]
  constructor
  · intro h f hf p hp
    simpa [hp] using h f hf
  · intro h f hf
    obtain ⟨g, -, -, hfirst⟩ := first?_of_mem hf
    simpa [hfirst] using h f hf _ hfirst

/-- Fillings that do not agree do not come to agree through others behind them. -/
theorem consistent_of_append (h : consistent (fs ++ gs) = true) :
  consistent fs = true
  := by
  rw [consistent_iff] at h ⊢
  intro f hf p hp
  apply h f (List.mem_append_left _ hf) p (first?_append_of_some hp)

/-- The first filling of a slot agrees with those in front of it. -/
theorem consistent_append_of_none (h : consistent fs = true) (hfirst : first? fs f.index = none) :
  consistent (fs ++ [f]) = true
  := by
  rw [consistent_iff] at h ⊢
  intro g hg p hp
  rcases List.mem_append.mp hg with hg | hg
  · obtain ⟨g', -, -, hsome⟩ := first?_of_mem hg
    rw [first?_append_of_some hsome] at hp
    apply h g hg p (hsome.trans hp)
  · obtain rfl := List.mem_singleton.mp hg
    rw [first?_append, hfirst, Option.none_or] at hp
    simp [first?] at hp
    rw [hp]

/-- Another filling of a slot agrees with the others when it agrees with the first one. -/
theorem consistent_append_of_some (h : consistent fs = true) (hfirst : first? fs f.index = some p) :
  consistent (fs ++ [f]) = true ↔ p.text = f.piece.text
  := by
  rw [consistent_iff] at h ⊢
  constructor
  · intro hall
    apply hall f (by simp) p (first?_append_of_some hfirst)
  · intro htext g hg q hq
    rcases List.mem_append.mp hg with hg | hg
    · obtain ⟨g', -, -, hsome⟩ := first?_of_mem hg
      rw [first?_append_of_some hsome] at hq
      apply h g hg q (hsome.trans hq)
    · obtain rfl := List.mem_singleton.mp hg
      rw [first?_append_of_some hfirst] at hq
      obtain rfl := Option.some.inj hq
      exact htext

end Filling

namespace Bytewise

/-- A text that fills a slot, with its span. -/
structure Capture where
  text : Text
  span : Span
  deriving DecidableEq, Repr

/-- The capture of a piece. -/
def Capture.ofPiece (p : Piece) : Capture := ⟨p.text, p.span⟩

/-- How far a scan has come. -/
structure Scan where
  /-- The offset up to which the template fits. -/
  cursor : Nat
  /-- The slot that begins at the cursor, if there is one. -/
  pending : Option Nat
  /-- What the slots have been filled with, by index. -/
  captures : List (Option Capture)
  deriving DecidableEq, Repr

/-- Goes on with the result of a step unless the template does not fit. -/
def andThen {α β : Type} (x : Option (Option α)) (f : α → Option (Option β)) :
    Option (Option β) := do
  match ← x with
  | none => some none
  | some a => f a

namespace Scan

variable (source : Text) (stop : Nat)

/-- Fills a slot with a span.  A slot that occurs again must be filled with the same text. -/
def fill? (index : Nat) (span : Span) (scan : Scan) : Option (Option Scan) := do
  let text ← source.slice? span
  match ← scan.captures[index]? with
  | some capture => some (if capture.text = text then some scan else none)
  | none => some (some { scan with captures := scan.captures.set index (some ⟨text, span⟩) })

/-- Goes over a literal, which stands at the cursor or behind the slot that is pending. -/
def literal? (l : Text) (scan : Scan) : Option (Option Scan) := do
  let rest ← source.slice? ⟨scan.cursor, stop⟩
  match scan.pending with
  | none =>
    some
      (if l.isPrefixOf rest then some { scan with cursor := scan.cursor + l.utf8Length } else none)
  | some index =>
    match find? l rest with
    | none => some none
    | some n =>
      let span ← span? scan.cursor (scan.cursor + n)
      andThen (fill? source index span { scan with pending := none }) fun scan =>
        some (some { scan with cursor := scan.cursor + n + l.utf8Length })

/-- Leaves a slot pending.  One that was pending before captures nothing. -/
def slot? (index : Nat) (scan : Scan) : Option (Option Scan) := do
  let next := { scan with pending := some index }
  match scan.pending with
  | none => some (some next)
  | some previous => fill? source previous (← span? scan.cursor scan.cursor) next

/-- Fills the slot that is pending, if there is one, with all that is left. -/
def close? (scan : Scan) : Option (Option Scan) := do
  match scan.pending with
  | none => some (some scan)
  | some index =>
    let span ← span? scan.cursor stop
    andThen (fill? source index span { scan with pending := none }) fun scan =>
      some (some { scan with cursor := stop })

/-- What a scan has captured when it comes to an end, where nothing may be left over. -/
def finish? (scan : Scan) : Option (Option (List Capture)) :=
  andThen (close? source stop scan) fun scan =>
    some (if scan.cursor = stop then scan.captures.mapM id else none)

/-- Walks along the segments of a template. -/
def run? : List Segment → Scan → Option (Option (List Capture))
  | [], scan => finish? source stop scan
  | .literal l :: segments, scan => andThen (literal? source stop l scan) (run? segments)
  | .slot index :: segments, scan => andThen (slot? source index scan) (run? segments)

end Scan

/-- The captures of a template in a span of a text. -/
def captures? (t : Template) (source : Text) (w : Span) : Option (Option (List Capture)) :=
  Scan.run? source w.stop t.segments ⟨w.start, none, List.replicate t.arity none⟩

/-! ### Filling slots -/

/-- The captures of the slots below `n` by the first of their fillings. -/
def record (n : Nat) (fs : List Filling) : List (Option Capture) :=
  (List.range n).map fun i => (Filling.first? fs i).map Capture.ofPiece

variable {source : Text} {n : Nat} {fs : List Filling} {f : Filling} {p : Piece}

theorem record_nil (n : Nat) :
  record n [] = List.replicate n none
  := by
  rw [record, List.eq_replicate_iff, List.length_map, List.length_range]
  simp [Filling.first?]

theorem getElem?_record {i : Nat} (hi : i < n) :
  (record n fs)[i]? = some ((Filling.first? fs i).map Capture.ofPiece)
  := by
  rw [record, List.getElem?_map, List.getElem?_range hi, Option.map_some]

/-- A slot that has been filled keeps its first capture. -/
theorem record_append_of_some (h : Filling.first? fs f.index = some p) :
  record n (fs ++ [f]) = record n fs
  := by
  apply List.map_congr_left
  intro i _
  by_cases hi : f.index = i
  · rw [← hi, Filling.first?_append_of_some h, h]
  · rw [Filling.first?_append]
    simp [Filling.first?, hi]

/-- A slot that has not been filled gets its capture. -/
theorem set_record (h : Filling.first? fs f.index = none) :
  (record n fs).set f.index (some (Capture.ofPiece f.piece)) = record n (fs ++ [f])
  := by
  apply List.ext_getElem
  · simp [record]
  · intro i _ _
    simp only [List.getElem_set, record, List.getElem_map, List.getElem_range,
      Filling.first?_append]
    split
    · rename_i hi
      rw [← hi, h]
      simp [Filling.first?]
    · rename_i hi
      simp [Filling.first?, hi]

theorem mapM_map {α β γ : Type} (f : α → Option β) (g : β → γ) (l : List α) :
  (l.mapM fun a => (f a).map g) = (l.mapM f).map (List.map g)
  := by
  induction l with
  | nil => rfl
  | cons a l ih =>
      rw [List.mapM_cons, List.mapM_cons, ih]
      cases f a with
      | none => rfl
      | some b =>
          cases l.mapM f with
          | none => rfl
          | some bs => rfl

theorem mapM_record (n : Nat) (fs : List Filling) :
  (record n fs).mapM id = ((List.range n).mapM (Filling.first? fs)).map (List.map Capture.ofPiece)
  := by
  rw [record, List.mapM_map, ← mapM_map]
  rfl

/-- A slot is filled with a piece unless it has been filled with another text. -/
theorem fill?_record (cursor : Nat) (pending : Option Nat) (hpiece : f.piece.IsPieceOf source)
    (hindex : f.index < n) (hfs : Filling.consistent fs = true) :
  Scan.fill? source f.index f.piece.span ⟨cursor, pending, record n fs⟩
    = some (if Filling.consistent (fs ++ [f]) then
        some ⟨cursor, pending, record n (fs ++ [f])⟩
      else
        none)
  := by
  rw [Scan.fill?, Piece.slice?_span hpiece, Option.bind_eq_bind, Option.bind_some,
    getElem?_record hindex, Option.bind_eq_bind, Option.bind_some]
  cases hfirst : Filling.first? fs f.index with
  | none =>
      rw [if_pos (Filling.consistent_append_of_none hfs hfirst), ← set_record hfirst]
      rfl
  | some p =>
      rw [Option.map_some, record_append_of_some hfirst]
      simp only [Filling.consistent_append_of_some hfs hfirst]
      rfl

/-! ### Steps -/

variable {rest : Piece} {l : Text} {captures : List (Option Capture)}

/-- A literal that nothing is pending in front of stands at the cursor. -/
theorem literal?_of_none (hrest : rest.IsPieceOf source) :
  Scan.literal? source rest.stop l ⟨rest.start, none, captures⟩
    = some ((rest.after? l).map fun q => ⟨q.start, none, captures⟩)
  := by
  have hslice : source.slice? ⟨rest.start, rest.stop⟩ = some rest.text := Piece.slice?_span hrest
  rw [Scan.literal?, hslice, Option.bind_eq_bind, Option.bind_some]
  cases hafter : rest.after? l with
  | none =>
      have hopens : ¬ l <+: rest.text := by
        rwa [Piece.after?, Option.map_eq_none_iff, Text.isPrefixOf?_eq_none_iff] at hafter
      rw [← List.isPrefixOf_iff_prefix] at hopens
      simp [hopens]
  | some q =>
      obtain ⟨htext, hstart⟩ := Piece.after?_eq_some_iff.mp hafter
      have hopens : l <+: rest.text := ⟨q.text, htext.symm⟩
      rw [← List.isPrefixOf_iff_prefix] at hopens
      simp [hopens, hstart]

/-- A literal behind a slot ends the slot where it first occurs. -/
theorem literal?_of_some {j : Nat} (hrest : rest.IsPieceOf source) (hj : j < n)
    (hfs : Filling.consistent fs = true) :
  Scan.literal? source rest.stop l ⟨rest.start, some j, record n fs⟩
    = some ((rest.splitAtFirst? l).bind fun (item, q) =>
        if Filling.consistent (fs ++ [⟨j, item⟩]) then
          some ⟨q.start, none, record n (fs ++ [⟨j, item⟩])⟩
        else
          none)
  := by
  have hslice : source.slice? ⟨rest.start, rest.stop⟩ = some rest.text := Piece.slice?_span hrest
  rw [Scan.literal?, hslice, Option.bind_eq_bind, Option.bind_some]
  cases hsplit : rest.splitAtFirst? l with
  | none =>
      rw [Piece.splitAtFirst?, Option.map_eq_none_iff] at hsplit
      dsimp only
      rw [find?, hsplit]
      rfl
  | some parts =>
      obtain ⟨item, q⟩ := parts
      have hitem := (hrest.splitAtFirst? hsplit).1
      obtain ⟨htext, hclosed, hitemstart, hstart⟩ := Piece.splitAtFirst?_eq_some_iff.mp hsplit
      have hfill := fill?_record (f := ⟨j, item⟩) rest.start none hitem hj hfs
      rw [Piece.span, Piece.stop, hitemstart] at hfill
      dsimp only
      rw [htext, find?_append hclosed]
      dsimp only
      rw [span?_add, Option.bind_eq_bind, Option.bind_some, hfill]
      dsimp only [Option.bind_some]
      rw [hstart]
      split
      · rfl
      · rfl

theorem slot?_of_some {i j : Nat} (hrest : rest.IsPieceOf source) (hj : j < n)
    (hfs : Filling.consistent fs = true) :
  Scan.slot? source i ⟨rest.start, some j, record n fs⟩
    = some (if Filling.consistent (fs ++ [⟨j, rest.front⟩]) then
        some ⟨rest.start, some i, record n (fs ++ [⟨j, rest.front⟩])⟩
      else
        none)
  := by
  have hfill := fill?_record (f := ⟨j, rest.front⟩) rest.start (some i) hrest.front hj hfs
  have hspan : span? rest.start rest.start = some rest.front.span := span?_add rest.start 0
  rw [← hfill, Scan.slot?, hspan]
  rfl

theorem finish?_of_none :
  Scan.finish? source rest.stop ⟨rest.start, none, captures⟩
    = some (if rest.text.isEmpty then captures.mapM id else none)
  := by
  have hempty : rest.start = rest.stop ↔ rest.text.isEmpty = true := by
    rw [← Piece.isEmpty_span, Span.isEmpty, decide_eq_true_iff]
    rfl
  rw [Scan.finish?, Scan.close?, andThen, Option.bind_eq_bind, Option.bind_some]
  simp only [hempty]

theorem finish?_of_some {j : Nat} (hrest : rest.IsPieceOf source) (hj : j < n)
    (hfs : Filling.consistent fs = true) :
  Scan.finish? source rest.stop ⟨rest.start, some j, record n fs⟩
    = some (if Filling.consistent (fs ++ [⟨j, rest⟩]) then
        (record n (fs ++ [⟨j, rest⟩])).mapM id
      else
        none)
  := by
  have hfill := fill?_record (f := ⟨j, rest⟩) rest.start none hrest hj hfs
  rw [Scan.finish?, Scan.close?]
  dsimp only
  rw [span?_piece, Option.bind_eq_bind, Option.bind_some, hfill]
  cases Filling.consistent (fs ++ [⟨j, rest⟩])
  · rfl
  · simp [andThen]

/-! ### Runs -/

/-- What a scan comes to that has the fillings `fs` and cuts the rest of its window into others. -/
def outcome (n : Nat) (fs : List Filling) (others : Option (List Filling)) :
    Option (List Capture) :=
  others.bind fun gs =>
    if Filling.consistent (fs ++ gs) then (record n (fs ++ gs)).mapM id else none

theorem outcome_map_cons (n : Nat) (fs : List Filling) (f : Filling)
    (others : Option (List Filling)) :
  outcome n fs (others.map (f :: ·))
    = if Filling.consistent (fs ++ [f]) then outcome n (fs ++ [f]) others else none
  := by
  cases others with
  | none => simp [outcome]
  | some gs =>
      have happend : fs ++ f :: gs = fs ++ [f] ++ gs := List.append_cons fs f gs
      rw [outcome, Option.map_some, Option.bind_some, happend]
      split
      case isTrue hconsistent =>
          rw [if_pos (Filling.consistent_of_append hconsistent), outcome, Option.bind_some,
            if_pos hconsistent]
      case isFalse hconsistent =>
          rw [outcome, Option.bind_some, if_neg hconsistent, ite_self]

/-- A run along some segments never stops, and comes out as the rest of the window is cut by the
slot that is pending and these segments.  What every step preserves is that the scan stands in
front of a piece of the source that ends where the window does, and that its captures record
fillings that agree. -/
theorem run?_eq :
  ∀ (segments : List Segment) (pending : Option Nat) {fs : List Filling} {rest : Piece},
    rest.IsPieceOf source → Filling.consistent fs = true →
    (∀ i, .slot i ∈ pending.toList.map .slot ++ segments → i < n) →
    Scan.run? source rest.stop segments ⟨rest.start, pending, record n fs⟩
      = some (outcome n fs (Filling.cut (pending.toList.map .slot ++ segments) rest))
  | [], none, fs, rest, _, hfs, _ => by
      rw [Scan.run?, finish?_of_none]
      cases hempty : rest.text.isEmpty with
      | true => simp [Filling.cut, outcome, hempty, hfs]
      | false => simp [Filling.cut, outcome, hempty]
  | [], some j, fs, rest, hrest, hfs, hslots => by
      rw [Scan.run?, finish?_of_some hrest (hslots j List.mem_cons_self) hfs]
      rfl
  | .slot i :: segments, none, fs, rest, hrest, hfs, hslots =>
      run?_eq segments (some i) hrest hfs hslots
  | .slot i :: segments, some j, fs, rest, hrest, hfs, hslots => by
      have hcut : Filling.cut ((some j).toList.map .slot ++ .slot i :: segments) rest
          = (Filling.cut (.slot i :: segments) rest).map (⟨j, rest.front⟩ :: ·) := rfl
      rw [Scan.run?, slot?_of_some hrest (hslots j List.mem_cons_self) hfs, hcut,
        outcome_map_cons]
      split
      case isTrue hconsistent =>
          apply run?_eq segments (some i) hrest hconsistent
          intro k hk
          apply hslots k (List.mem_cons_of_mem _ hk)
      case isFalse => rfl
  | .literal l :: segments, none, fs, rest, hrest, hfs, hslots => by
      have hcut : Filling.cut ((none : Option Nat).toList.map .slot ++ .literal l :: segments) rest
          = (rest.after? l).bind (Filling.cut segments) := rfl
      rw [Scan.run?, literal?_of_none hrest, hcut]
      cases hafter : rest.after? l with
      | none => rfl
      | some q =>
          obtain ⟨hq, hstop⟩ := hrest.after? hafter
          rw [← hstop]
          apply run?_eq segments none hq hfs
          intro k hk
          apply hslots k (List.mem_cons_of_mem _ hk)
  | .literal l :: segments, some j, fs, rest, hrest, hfs, hslots => by
      rw [Scan.run?, literal?_of_some hrest (hslots j List.mem_cons_self) hfs]
      have hcut : Filling.cut ((some j).toList.map .slot ++ .literal l :: segments) rest
          = (rest.splitAtFirst? l).bind fun (item, q) =>
              (Filling.cut segments q).map (⟨j, item⟩ :: ·) := rfl
      rw [hcut]
      cases hsplit : rest.splitAtFirst? l with
      | none => rfl
      | some parts =>
          obtain ⟨item, q⟩ := parts
          obtain ⟨-, hq, hstop⟩ := hrest.splitAtFirst? hsplit
          rw [Option.bind_some, Option.bind_some]
          dsimp only
          rw [outcome_map_cons]
          split
          case isTrue hconsistent =>
              rw [← hstop]
              apply run?_eq segments none hq hconsistent
              intro k hk
              apply hslots k (List.mem_cons_of_mem _ (List.mem_cons_of_mem _ hk))
          case isFalse => rfl

/-- A template is scanned along a piece with every cut in range, and captures what it does. -/
theorem captures?_span {t : Template} {window : Piece} (h : window.IsPieceOf source) :
  captures? t source window.span = some ((t.captures? window).map (List.map Capture.ofPiece))
  := by
  have hempty : Filling.consistent [] = true := rfl
  have hrun := run?_eq (n := t.arity) t.segments none h hempty fun i => Segment.lt_arity_of_mem
  rw [record_nil] at hrun
  rw [captures?, Piece.span, hrun, outcome, Template.captures?, Option.map_bind]
  congr 2
  funext gs
  rw [List.nil_append, mapM_record, Function.comp_apply]
  cases Filling.consistent gs
  · rfl
  · rfl

/-- A span that is not the one of a piece cannot be scanned. -/
example : captures? ⟨1, .error, "{0}".toList, [.slot 0], by decide, by decide⟩ "é".toList ⟨1, 2⟩
    = none
  := by decide

end Bytewise

end Diagnostics
