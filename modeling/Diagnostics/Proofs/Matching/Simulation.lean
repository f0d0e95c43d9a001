import Diagnostics.Matching.Recognition
import Mathlib.Data.List.Forall2
import Mathlib.Tactic.Use

/-!
# Simulations

Matching asks little of a window: whether two pieces hold the same text, and what is left of a
piece when it is trimmed or when a literal is looked for.  A simulation is a relation between the
pieces of two texts that all of this respects.  Related messages are then recognised alike, by the
same templates and with related captures.
-/

namespace Diagnostics

/-- A relation between pieces that matching respects when it looks for literals of a kind. -/
structure Piece.Simulation (R : Piece → Piece → Prop) (IsLiteral : Text → Prop) : Prop where
  text_eq_iff {p p' q q' : Piece} : R p p' → R q q' → (p.text = q.text ↔ p'.text = q'.text)
  front {p p' : Piece} : R p p' → R p.front p'.front
  trim {p p' : Piece} : R p p' → R p.trim p'.trim
  after? {p p' : Piece} {l : Text} :
    IsLiteral l → R p p' → Option.Rel R (p.after? l) (p'.after? l)
  splitAtFirst? {p p' : Piece} {l : Text} :
    IsLiteral l → R p p' →
      Option.Rel (fun ab ab' => R ab.1 ab'.1 ∧ R ab.2 ab'.2) (p.splitAtFirst? l)
        (p'.splitAtFirst? l)

/-- Fillings of the same slot with related pieces. -/
structure Filling.Rel (R : Piece → Piece → Prop) (f f' : Filling) : Prop where
  index : f.index = f'.index
  piece : R f.piece f'.piece

/-- Recognitions of the same template with related pieces. -/
structure Recognition.Rel (R : Piece → Piece → Prop) (r r' : Recognition) : Prop where
  template : r.template = r'.template
  window : R r.window r'.window
  captures : List.Forall₂ R r.captures r'.captures

/-- Messages with related lines. -/
structure Message.Rel (R : Piece → Piece → Prop) (m m' : Message) : Prop where
  piece : R m.piece m'.piece
  lines : List.Forall₂ R m.lines m'.lines

section Options

variable {α α' β β' : Type} {R : α → α' → Prop} {S : β → β' → Prop}

theorem rel_map {x : Option α} {x' : Option α'} {f : α → β} {f' : α' → β'}
    (hx : Option.Rel R x x') (hf : ∀ a a', R a a' → S (f a) (f' a')) :
  Option.Rel S (x.map f) (x'.map f')
  := by
  cases hx with
  | none => exact .none
  | some h => exact .some (hf _ _ h)

theorem rel_bind {x : Option α} {x' : Option α'} {f : α → Option β} {f' : α' → Option β'}
    (hx : Option.Rel R x x') (hf : ∀ a a', R a a' → Option.Rel S (f a) (f' a')) :
  Option.Rel S (x.bind f) (x'.bind f')
  := by
  cases hx with
  | none => exact .none
  | some h => exact hf _ _ h

theorem rel_mapM {f : α → Option β} {f' : α → Option β'} (l : List α)
    (hf : ∀ a, Option.Rel S (f a) (f' a)) :
  Option.Rel (List.Forall₂ S) (l.mapM f) (l.mapM f')
  := by
  induction l with
  | nil => exact .some .nil
  | cons a l ih =>
      rw [List.mapM_cons, List.mapM_cons]
      apply rel_bind (hf a)
      intro b b' hb
      apply rel_bind ih
      intro bs bs' hbs
      exact .some (.cons hb hbs)

theorem rel_findSome? {f : α → Option β} {f' : α → Option β'} {l : List α}
    (hf : ∀ a ∈ l, Option.Rel S (f a) (f' a)) :
  Option.Rel S (l.findSome? f) (l.findSome? f')
  := by
  induction l with
  | nil => exact .none
  | cons a l ih =>
      obtain ⟨ha, hl⟩ := List.forall_mem_cons.mp hf
      rw [List.findSome?_cons, List.findSome?_cons]
      generalize f a = x, f' a = x' at ha
      cases ha with
      | none => exact ih hl
      | some h => exact .some h

theorem rel_all {p : α → Bool} {p' : α' → Bool} {l : List α} {l' : List α'}
    (hl : List.Forall₂ R l l') (hp : ∀ a a', R a a' → p a = p' a') :
  l.all p = l'.all p'
  := by
  induction hl with
  | nil => rfl
  | cons h _ ih => rw [List.all_cons, List.all_cons, hp _ _ h, ih]

/-- Functions that agree on related elements map related lists to the same list. -/
theorem map_eq_of_rel {γ : Type} {f : α → γ} {f' : α' → γ} {l : List α} {l' : List α'}
    (hl : List.Forall₂ R l l') (hf : ∀ a a', R a a' → f a = f' a') :
  l.map f = l'.map f'
  := by
  rw [← List.forall₂_eq_eq_eq, List.forall₂_map_left_iff, List.forall₂_map_right_iff]
  apply hl.imp hf

end Options

namespace Piece.Simulation

variable {R : Piece → Piece → Prop} {IsLiteral : Text → Prop} (hR : Simulation R IsLiteral)
include hR

/-- A piece is empty where the related one is. -/
theorem isEmpty {p p' : Piece} (h : R p p') :
  p.text.isEmpty = p'.text.isEmpty
  := by
  rw [Bool.eq_iff_iff, List.isEmpty_iff, List.isEmpty_iff]
  apply hR.text_eq_iff h (hR.front h)

/-! ### Fillings -/

/-- Related windows are cut into related fillings. -/
theorem cut :
  ∀ {segments : List Segment} {w w' : Piece},
    (∀ l, .literal l ∈ segments → IsLiteral l) → R w w' →
    Option.Rel (List.Forall₂ (Filling.Rel R)) (Filling.cut segments w) (Filling.cut segments w')
  | [], w, w', _, h => by
      rw [Filling.cut, Filling.cut, hR.isEmpty h]
      split
      · exact .some .nil
      · exact .none
  | .literal l :: segments, w, w', hl, h => by
      rw [Filling.cut, Filling.cut]
      apply rel_bind (hR.after? (hl l List.mem_cons_self) h)
      intro rest rest' hrest
      apply cut (fun l h => hl l (List.mem_cons_of_mem _ h)) hrest
  | [.slot i], w, w', _, h => .some (.cons ⟨rfl, h⟩ .nil)
  | .slot i :: .slot j :: segments, w, w', hl, h => by
      rw [Filling.cut, Filling.cut]
      apply rel_map (cut (fun l h => hl l (List.mem_cons_of_mem _ h)) h)
      intro fs fs' hfs
      exact .cons ⟨rfl, hR.front h⟩ hfs
  | .slot i :: .literal l :: segments, w, w', hl, h => by
      have hmem : .literal l ∈ (.slot i :: .literal l :: segments : List Segment) := by simp
      rw [Filling.cut, Filling.cut]
      apply rel_bind (hR.splitAtFirst? (hl l hmem) h)
      rintro ⟨item, rest⟩ ⟨item', rest'⟩ ⟨hitem, hrest⟩
      apply rel_map (cut (fun l h => hl l (by simp [h])) hrest)
      intro fs fs' hfs
      exact .cons ⟨rfl, hitem⟩ hfs

omit hR in
/-- A slot is first filled with related pieces. -/
theorem first? {fs fs' : List Filling} (h : List.Forall₂ (Filling.Rel R) fs fs') (i : Nat) :
  Option.Rel R (Filling.first? fs i) (Filling.first? fs' i)
  := by
  induction h with
  | nil => exact .none
  | @cons f f' fs fs' hf _ ih =>
      rw [Filling.first?, Filling.first?] at ih ⊢
      by_cases hi : f.index = i
      · rw [List.find?_cons_of_pos (by simpa using hi),
          List.find?_cons_of_pos (by simpa [← hf.index] using hi)]
        exact .some hf.piece
      · rw [List.find?_cons_of_neg (by simpa using hi),
          List.find?_cons_of_neg (by simpa [← hf.index] using hi)]
        exact ih

/-- The fillings of a slot agree where the related ones do. -/
theorem consistent {fs fs' : List Filling} (h : List.Forall₂ (Filling.Rel R) fs fs') :
  Filling.consistent fs = Filling.consistent fs'
  := by
  rw [Filling.consistent, Filling.consistent]
  apply rel_all h
  intro f f' hf
  have hfirst := first? h f.index
  rw [← hf.index]
  generalize Filling.first? fs f.index = x, Filling.first? fs' f.index = x' at hfirst
  cases hfirst with
  | none => rfl
  | some hp =>
      rw [Option.any_some, Option.any_some, decide_eq_decide]
      apply hR.text_eq_iff hp hf.piece

/-- The slots of a template are filled with related pieces in related windows. -/
theorem captures? {t : Template} {w w' : Piece} (ht : ∀ l, .literal l ∈ t.segments → IsLiteral l)
    (h : R w w') :
  Option.Rel (List.Forall₂ R) (t.captures? w) (t.captures? w')
  := by
  rw [Template.captures?, Template.captures?]
  apply rel_bind (hR.cut ht h)
  intro fs fs' hfs
  rw [hR.consistent hfs]
  split
  · apply rel_mapM _ (first? hfs)
  · exact .none

/-! ### Recognitions -/

variable {m : Matcher} (hm : ∀ t ∈ m.order, ∀ l, .literal l ∈ t.segments → IsLiteral l)
include hm

/-- Related messages are recognised alike. -/
theorem recognize? {message message' : Message} (h : R message.piece message'.piece) :
  Option.Rel (Recognition.Rel R) (m.recognize? message) (m.recognize? message')
  := by
  have hwindow := hR.trim h
  rw [Matcher.recognize?, Matcher.recognize?, hR.isEmpty hwindow]
  split
  · exact .none
  · apply rel_findSome?
    intro t ht
    apply rel_map (hR.captures? (hm t ht) hwindow)
    intro captures captures' hcaptures
    exact ⟨rfl, hwindow, hcaptures⟩

theorem recognitions {message message' : Message} (h : Message.Rel R message message') :
  List.Forall₂ (Recognition.Rel R) (m.recognitions message) (m.recognitions message')
  := by
  have hlines := List.Forall₂.length_eq h.lines
  have hchain : message.isChain = message'.isChain := by
    rw [Message.isChain, Message.isChain, hlines]
  have hlinks : List.Forall₂ (fun l l' => R l.piece l'.piece) message.links message'.links := by
    rw [Message.links, Message.links, List.forall₂_map_left_iff, List.forall₂_map_right_iff]
    apply h.lines
  have hwhole := hR.recognize? hm h.piece
  rw [Matcher.recognitions, Matcher.recognitions, hchain]
  generalize m.recognize? message = x, m.recognize? message' = x' at hwhole
  cases hwhole with
  | some hr => exact .cons hr .nil
  | none =>
      dsimp only
      split
      · apply List.rel_reverse
        apply List.rel_filterMap _ hlinks
        intro link link' hlink
        apply hR.recognize? hm hlink
      · exact .nil

end Piece.Simulation

end Diagnostics
