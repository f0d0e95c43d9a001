import Diagnostics.Proofs.Matching.Reading
import Diagnostics.Proofs.Sketch.Basic

/-!
# Progress over a line

Segments that read a text of several lines read its first line up to some point: they fail on it,
end where it ends, have a last slot that takes all that follows, or are left with an open slot that
awaits a literal in the lines below.  `advance` tells from the sketch of the line which of these it
is, and `describes_advance` that the reading of the whole text then goes on accordingly.
-/

namespace Diagnostics

open Text (EndsLine isStop)
open Sketch (Shows front search)

namespace Segment

variable {segments rest : List Segment} {σ : Sketch} {s u : Text}

/-- Whether the literals have no line feeds, each slot but a last one stands in front of a literal,
and such a literal begins with a stop. -/
def delimited : List Segment → Bool
  | [] => true
  | .literal l :: segments => !l.contains '\n' && delimited segments
  | [.slot _] => true
  | .slot _ :: .slot _ :: _ => false
  | .slot _ :: .literal [] :: _ => false
  | .slot _ :: .literal (c :: l) :: segments =>
    isStop c && !(c :: l).contains '\n' && delimited segments

/-- How far segments come over a line. -/
inductive Progress where
  /-- The line does not suit them. -/
  | failed
  /-- They end where the line ends. -/
  | finished
  /-- Their last slot takes all that follows. -/
  | trailing
  /-- The first slot of those that are left is still open at the end of the line. -/
  | waiting (rest : List Segment)
  /-- The words decide. -/
  | unclear
  deriving DecidableEq

/-- How far segments come over the lines that a sketch shows. -/
def advance : List Segment → Sketch → Progress
  | [], [] => .finished
  | [], _ :: _ => .failed
  | .literal l :: segments, σ =>
    match front l σ with
    | .absent => .failed
    | .unclear => .unclear
    | .found τ => advance segments τ
  | [.slot _], _ => .trailing
  | .slot _ :: .slot _ :: _, _ => .unclear
  | .slot _ :: .literal [] :: _, _ => .unclear
  | .slot i :: .literal (c :: l) :: segments, σ =>
    match search c l σ with
    | .absent => .waiting (.slot i :: .literal (c :: l) :: segments)
    | .unclear => .unclear
    | .found τ => advance segments τ

end Segment

namespace Reading

/-- The reading of a line, a text at its end that belongs to a slot still open, and the reading of
what follows, whose first entry is of that slot. -/
def resume (r : Reading) (a : Text) : Reading → Reading
  | [] => r
  | (i, b) :: es => r ++ (i, a ++ b) :: es

theorem cons_resume (r : Reading) (a : Text) (e : Nat × Text) (es : Reading) :
  e :: resume r a es = resume (e :: r) a es
  := by
  cases es <;> rfl

/-- With as many entries behind the open slot, they are those of the reading of what follows. -/
theorem tail_of_resume {r es es' : Reading} {a : Text} {e e' : Nat × Text}
    (h : resume r a (e :: es) = e' :: es') (hlength : es.length = es'.length) :
  es = es'
  := by
  have happend : r ++ (e.1, a ++ e.2) :: es = [] ++ e' :: es' := h
  have htail := List.append_inj_right' happend (by simpa using hlength)
  exact (List.cons.inj htail).2

end Reading

namespace Segment.Progress

variable {u : Text} {x : Option Reading}

/-- What the progress over a line says of the reading of the line and the lines below it. -/
def Describes (u : Text) (x : Option Reading) : Progress → Prop
  | failed => x = none
  | finished => x.isSome = u.isEmpty
  | trailing => x.isSome = true
  | waiting rest => ∃ (r : Reading) (a : Text), x = (read rest u).map (Reading.resume r a)
  | unclear => True

/-- A progress describes what it describes with one more slot filled in front. -/
theorem Describes.map_cons {p : Progress} (h : p.Describes u x) (e : Nat × Text) :
  p.Describes u (x.map (e :: ·))
  := by
  cases p with
  | failed =>
      rw [Describes] at h
      rw [h]
      rfl
  | finished => rwa [Describes, Option.isSome_map]
  | trailing => rwa [Describes, Option.isSome_map]
  | waiting rest =>
      obtain ⟨r, a, rfl⟩ := h
      use e :: r, a
      rw [Option.map_map]
      congr 1
      funext es
      apply Reading.cons_resume
  | unclear => trivial

end Segment.Progress

namespace Segment

open Text (splitAtFirst?)

variable {segments rest : List Segment} {σ : Sketch} {s u : Text}

/-- The progress over the sketch of a line describes the reading of every text that begins with
such a line. -/
theorem describes_advance (hu : EndsLine u) :
  ∀ {segments : List Segment} {σ : Sketch} {s : Text}, delimited segments = true → σ.Shows s →
    (advance segments σ).Describes u (read segments (s ++ u))
  | [], _, _, _, .nil => by
      rw [advance, List.nil_append, read, Progress.Describes]
      cases u with
      | nil => rfl
      | cons c u => rfl
  | [], _, _, _, .char c hs => rfl
  | [], _, _, _, .word hw hs => by
      obtain ⟨c, w, rfl⟩ := List.exists_cons_of_ne_nil hw.ne_nil
      rfl
  | .literal l :: segments, σ, s, hsegments, hs => by
      rw [delimited, Bool.and_eq_true] at hsegments
      have hl : '\n' ∉ l := by simpa using hsegments.1
      rw [advance, read]
      cases hfront : front l σ with
      | absent =>
          rw [Text.isPrefixOf?_eq_none_iff.mpr (hs.of_front_absent hfront hu hl)]
          rfl
      | unclear => trivial
      | found τ =>
          obtain ⟨t, rfl, ht⟩ := hs.of_front_found hfront
          rw [List.append_assoc, Text.isPrefixOf?_eq_some_iff.mpr rfl]
          apply describes_advance hu hsegments.2 ht
  | [.slot i], _, _, _, _ => rfl
  | .slot i :: .slot j :: segments, _, _, hsegments, _ => by cases hsegments
  | .slot i :: .literal [] :: segments, _, _, hsegments, _ => by cases hsegments
  | .slot i :: .literal (c :: l) :: segments, σ, s, hsegments, hs => by
      rw [delimited, Bool.and_eq_true, Bool.and_eq_true] at hsegments
      obtain ⟨⟨hc, hl⟩, hsegments⟩ := hsegments
      replace hl : '\n' ∉ c :: l := by simpa using hl
      rw [advance]
      cases hsearch : search c l σ with
      | absent =>
          use [], s
          rw [read, read, hs.of_search_absent hsearch hc hu hl, Option.bind_map, Option.map_bind]
          congr 1
          funext ab
          rw [Function.comp_apply, Function.comp_apply, Option.map_map]
          rfl
      | unclear => trivial
      | found τ =>
          obtain ⟨a, t, -, ht, hsplit⟩ := hs.of_search_found hsearch hc hu hl
          rw [read, hsplit]
          apply (describes_advance hu hsegments ht).map_cons

/-- The segments that are left wait for the literal behind an open slot. -/
theorem of_advance_eq_waiting :
  ∀ {segments : List Segment} {σ : Sketch}, delimited segments = true →
    advance segments σ = .waiting rest →
    rest <:+ segments ∧ delimited rest = true
      ∧ ∃ i c l more, rest = .slot i :: .literal (c :: l) :: more
  | [], [], _, h => by cases h
  | [], _ :: _, _, h => by cases h
  | .literal l :: segments, σ, hsegments, h => by
      rw [delimited, Bool.and_eq_true] at hsegments
      rw [advance] at h
      cases hfront : front l σ with
      | absent =>
          rw [hfront] at h
          cases h
      | unclear =>
          rw [hfront] at h
          cases h
      | found τ =>
          rw [hfront] at h
          obtain ⟨hsuffix, hrest⟩ := of_advance_eq_waiting hsegments.2 h
          exact ⟨hsuffix.trans (List.suffix_cons _ _), hrest⟩
  | [.slot i], _, _, h => by cases h
  | .slot i :: .slot j :: segments, _, _, h => by cases h
  | .slot i :: .literal [] :: segments, _, hsegments, _ => by cases hsegments
  | .slot i :: .literal (c :: l) :: segments, σ, hsegments, h => by
      rw [advance] at h
      cases hsearch : search c l σ with
      | absent =>
          rw [hsearch] at h
          obtain rfl := Progress.waiting.inj h
          exact ⟨List.suffix_rfl, hsegments, i, c, l, segments, rfl⟩
      | unclear =>
          rw [hsearch] at h
          cases h
      | found τ =>
          rw [hsearch] at h
          rw [delimited, Bool.and_eq_true] at hsegments
          obtain ⟨hsuffix, hrest⟩ := of_advance_eq_waiting hsegments.2 h
          exact ⟨hsuffix.trans (List.suffix_append [_, _] _), hrest⟩

theorem read_nil_of_waiting (hsegments : delimited segments = true)
    (h : advance segments σ = .waiting rest) :
  read rest [] = none
  := by
  obtain ⟨-, -, i, c, l, more, rfl⟩ := of_advance_eq_waiting hsegments h
  rfl

end Segment

end Diagnostics
