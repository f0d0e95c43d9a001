import Diagnostics.Proofs.Matching.Simulation

/-!
# Shifts

A shift moves what stands in a text some bytes further on.  Matching looks at the text of a window
and not at its place, so that a shift is a simulation: the recognitions of a shifted message are
those of the message, shifted.
-/

namespace Diagnostics

namespace Piece

/-- A piece, `n` bytes further on. -/
def shift (n : Nat) (p : Piece) : Piece := ⟨n + p.start, p.text⟩

@[simp]
theorem text_shift (n : Nat) (p : Piece) :
  (p.shift n).text = p.text
  := rfl

@[simp]
theorem stop_shift (n : Nat) (p : Piece) :
  (p.shift n).stop = n + p.stop
  := Nat.add_assoc _ _ _

@[simp]
theorem trim_shift (n : Nat) (p : Piece) :
  (p.shift n).trim = p.trim.shift n
  := by
  rw [trim, trim, shift, shift, Nat.add_assoc]

/-- Pieces that stand further on are matched alike, whatever the literals are. -/
theorem simulation_shift (n : Nat) :
  Simulation (fun p p' => p.shift n = p') fun _ => True
  where
  text_eq_iff := by
    rintro p _ q _ rfl rfl
    simp
  front := by
    rintro p _ rfl
    rfl
  trim := by
    rintro p _ rfl
    simp
  after? := by
    rintro p _ l - rfl
    rw [after?, after?, text_shift]
    cases l.isPrefixOf? p.text with
    | none => exact .none
    | some rest => exact .some (by simp only [shift, Nat.add_assoc])
  splitAtFirst? := by
    rintro p _ l - rfl
    rw [splitAtFirst?, splitAtFirst?, text_shift]
    cases Text.splitAtFirst? l p.text with
    | none => exact .none
    | some ab => exact .some ⟨rfl, by simp only [shift, Nat.add_assoc]⟩

end Piece

namespace Recognition

/-- A recognition, `n` bytes further on. -/
def shift (n : Nat) (r : Recognition) : Recognition :=
  ⟨r.template, r.window.shift n, r.captures.map (Piece.shift n)⟩

@[simp]
theorem items_shift (n : Nat) (r : Recognition) :
  (r.shift n).items = r.items
  := by
  rw [items, items, shift, List.map_map]
  rfl

theorem shift_eq_of_rel {n : Nat} {r r' : Recognition}
    (h : Rel (fun p p' => p.shift n = p') r r') :
  r.shift n = r'
  := by
  have hcaptures : r.captures.map (Piece.shift n) = r'.captures.map id :=
    map_eq_of_rel h.captures fun _ _ => id
  rw [List.map_id] at hcaptures
  rw [shift, h.template, h.window, hcaptures]

end Recognition

namespace Message

/-- A message, `n` bytes further on. -/
def shift (n : Nat) (m : Message) : Message := ⟨m.piece.shift n, m.lines.map (Piece.shift n)⟩

theorem rel_shift (n : Nat) (m : Message) :
  Rel (fun p p' => p.shift n = p') m (m.shift n)
  := by
  constructor
  · rfl
  · rw [shift, List.forall₂_map_right_iff, List.forall₂_same]
    intro l _
    rfl

end Message

namespace Matcher

/-- A shifted message is recognised as the message is. -/
theorem recognitions_shift (n : Nat) (m : Matcher) (message : Message) :
  m.recognitions (message.shift n) = (m.recognitions message).map (Recognition.shift n)
  := by
  have hrel := (Piece.simulation_shift n).recognitions (m := m) (fun _ _ _ _ => trivial)
    (message.rel_shift n)
  have hshift : (m.recognitions message).map (Recognition.shift n)
      = (m.recognitions (message.shift n)).map id :=
    map_eq_of_rel hrel fun _ _ => Recognition.shift_eq_of_rel
  rw [hshift, List.map_id]

end Matcher

end Diagnostics
