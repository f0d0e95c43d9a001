import Diagnostics.Proofs.Sketch.Progress

/-!
# Chains of lines

Whether segments read a chain of lines can be told from the sketches of the lines alone, as long as
the words never decide on the way: the segments are then settled over the lines.  `joins` tells it,
and `isSome_read_below` that it is right.  Segments that are stuck read a chain only in such a way
that a slot is filled with lines at one place and with a part of a line at another.
-/

namespace Diagnostics

open Text (EndsLine isBlankText)
open Sketch (Shows skips)

namespace Sketch

/-- Sketches show the lines below a head line, which have white space in front of them. -/
def ShowBelow (σs : List Sketch) (ls : List (Text × Text)) : Prop :=
  List.Forall₂ (fun σ p => isBlankText p.1 = true ∧ Shows σ p.2) σs ls

end Sketch

namespace Segment

open Text (below endsLine_below isBlankText_lineFeed_cons)

variable {lines : List Sketch} {segments rest : List Segment} {σ τ : Sketch} {τs : List Sketch}
  {s u : Text} {ls : List (Text × Text)} {n : Nat}

/-- Whether the literal that an open slot waits for begins in the white space in front of none of
the lines. -/
def awaits (lines : List Sketch) : List Segment → Bool
  | .slot _ :: .literal l :: _ => lines.all (skips l)
  | _ => true

/-- Whether the words never decide how far the segments come over the lines, in `n` changes of the
literal that is waited for. -/
def settled (lines : List Sketch) : Nat → List Segment → Bool
  | 0, _ => false
  | n + 1, segments =>
    awaits lines segments && lines.all fun σ =>
      match advance segments σ with
      | .unclear => false
      | .waiting rest => rest.length = segments.length || settled lines n rest
      | _ => true

/-- Whether segments read a head line with lines below it. -/
def joins (segments : List Segment) (σ : Sketch) : List Sketch → Bool
  | [] =>
    match advance segments σ with
    | .finished | .trailing => true
    | _ => false
  | τ :: τs =>
    match advance segments σ with
    | .trailing => true
    | .waiting rest => joins rest τ τs
    | _ => false

/-! ### Reading on -/

theorem advance_ne_unclear (h : settled lines n segments = true) (hσ : σ ∈ lines) :
  advance segments σ ≠ .unclear
  := by
  cases n with
  | zero => cases h
  | succ n =>
      rw [settled, Bool.and_eq_true, List.all_eq_true] at h
      have hline := h.2 σ hσ
      intro hunclear
      rw [hunclear] at hline
      cases hline

/-- What is left of settled segments is settled. -/
theorem settled_of_waiting (h : settled lines n segments = true)
    (hsegments : delimited segments = true) (hσ : σ ∈ lines)
    (hrest : advance segments σ = .waiting rest) :
  ∃ m, settled lines m rest = true
  := by
  cases n with
  | zero => cases h
  | succ n =>
      rw [settled, Bool.and_eq_true, List.all_eq_true] at h
      have hline := h.2 σ hσ
      rw [hrest] at hline
      simp only [Bool.or_eq_true, decide_eq_true_eq] at hline
      rcases hline with hlength | hsettled
      · obtain ⟨hsuffix, -⟩ := of_advance_eq_waiting hsegments hrest
        obtain rfl := hsuffix.eq_of_length hlength
        use n + 1
        rw [settled, Bool.and_eq_true, List.all_eq_true]
        exact h
      · use n

theorem awaits_of_settled (h : settled lines n segments = true) :
  awaits lines segments = true
  := by
  cases n with
  | zero => cases h
  | succ n =>
      rw [settled, Bool.and_eq_true] at h
      exact h.1

/-- An open slot takes the white space in front of a line. -/
theorem read_indent {i : Nat} {c : Char} {l indent : Text} {more : List Segment}
    (hawaits : awaits lines (.slot i :: .literal (c :: l) :: more) = true)
    (hsegments : delimited (.slot i :: .literal (c :: l) :: more) = true) (hσ : σ ∈ lines)
    (hs : σ.Shows s) (hindent : isBlankText indent = true) (hu : EndsLine u) :
  read (.slot i :: .literal (c :: l) :: more) (indent ++ (s ++ u))
    = (read (.slot i :: .literal (c :: l) :: more) (s ++ u)).map (Reading.resume [] indent)
  := by
  rw [delimited, Bool.and_eq_true, Bool.and_eq_true] at hsegments
  have hl : '\n' ∉ c :: l := by simpa using hsegments.1.2
  have hskips : skips (c :: l) σ = true := List.all_eq_true.mp hawaits σ hσ
  rw [read, read, hs.splitAtFirst?_indent hskips hu hl hindent, Option.bind_map, Option.map_bind]
  congr 1
  funext ab
  rw [Function.comp_apply, Function.comp_apply, Option.map_map]
  rfl

/-- Whether a line and what follows is read depends on how far the segments come over the line. -/
theorem isSome_read_append (hclear : advance segments σ ≠ .unclear)
    (hsegments : delimited segments = true) (hs : σ.Shows s) (hu : EndsLine u) :
  (read segments (s ++ u)).isSome =
    match advance segments σ with
    | .failed | .unclear => false
    | .finished => u.isEmpty
    | .trailing => true
    | .waiting rest => (read rest u).isSome
  := by
  have hdescribes := describes_advance hu hsegments hs
  cases hadvance : advance segments σ with
  | failed =>
      rw [hadvance] at hdescribes
      rw [hdescribes]
      rfl
  | finished =>
      rw [hadvance] at hdescribes
      exact hdescribes
  | trailing =>
      rw [hadvance] at hdescribes
      exact hdescribes
  | waiting rest =>
      rw [hadvance] at hdescribes
      obtain ⟨r, a, hread⟩ := hdescribes
      rw [hread, Option.isSome_map]
  | unclear => apply absurd hadvance hclear

/-- Settled segments read a chain of lines when the sketches of the lines say so. -/
theorem isSome_read_below (h : settled lines n segments = true)
    (hsegments : delimited segments = true) (hσ : σ ∈ lines) (hs : σ.Shows s)
    (hτs : ∀ τ ∈ τs, τ ∈ lines) (hls : Sketch.ShowBelow τs ls) :
  (read segments (s ++ below ls)).isSome = joins segments σ τs
  := by
  induction hls generalizing n segments σ s with
  | nil =>
      rw [isSome_read_append (advance_ne_unclear h hσ) hsegments hs (endsLine_below []), joins]
      cases hadvance : advance segments σ with
      | waiting rest =>
          rw [below]
          dsimp only
          rw [read_nil_of_waiting hsegments hadvance, Option.isSome_none]
      | failed => rfl
      | finished => rfl
      | trailing => rfl
      | unclear => rfl
  | @cons τ p τs ls hp hls ih =>
      rw [isSome_read_append (advance_ne_unclear h hσ) hsegments hs (endsLine_below (p :: ls)),
        joins]
      cases hadvance : advance segments σ with
      | waiting rest =>
          obtain ⟨m, hm⟩ := settled_of_waiting h hsegments hσ hadvance
          obtain ⟨-, hrest, i, c, l, more, rfl⟩ := of_advance_eq_waiting hsegments hadvance
          obtain ⟨hτ, hτs⟩ := List.forall_mem_cons.mp hτs
          dsimp only
          rw [below, read_indent (awaits_of_settled hm) hrest hτ hp.2
            (isBlankText_lineFeed_cons hp.1) (endsLine_below ls), Option.isSome_map]
          apply ih hm hrest hτ hp.2 hτs
      | failed => rfl
      | finished => rfl
      | trailing => rfl
      | unclear => rfl

/-! ### Slots filled unlike -/

/-- Whether segments with an open slot read all that is left of them in the line where the literal
that they wait for stands, and have the slot again. -/
def clashes (lines : List Sketch) : List Segment → Bool
  | .slot i :: segments =>
    awaits lines (.slot i :: segments) && (indices segments).contains i && lines.all fun σ =>
      match advance (.slot i :: segments) σ with
      | .failed | .finished => true
      | .waiting rest => rest.length = segments.length + 1
      | _ => false
  | _ => false

/-- Whether segments read more than one line only with a slot that is filled unlike. -/
def stuck (lines : List Sketch) (segments : List Segment) : Bool :=
  lines.all fun σ =>
    match advance segments σ with
    | .failed | .finished => true
    | .waiting rest => clashes lines rest
    | _ => false

theorem advance_of_clashes {i : Nat} (h : clashes lines (.slot i :: segments) = true)
    (hsegments : delimited (.slot i :: segments) = true) (hσ : σ ∈ lines) :
  advance (.slot i :: segments) σ = .failed ∨ advance (.slot i :: segments) σ = .finished
    ∨ advance (.slot i :: segments) σ = .waiting (.slot i :: segments)
  := by
  rw [clashes, Bool.and_eq_true, List.all_eq_true] at h
  have hline := h.2 σ hσ
  cases hadvance : advance (.slot i :: segments) σ with
  | failed => exact .inl rfl
  | finished => exact .inr (.inl rfl)
  | waiting rest =>
      rw [hadvance] at hline
      obtain ⟨hsuffix, -⟩ := of_advance_eq_waiting hsegments hadvance
      obtain rfl := hsuffix.eq_of_length (by simpa using hline)
      exact .inr (.inr rfl)
  | trailing =>
      rw [hadvance] at hline
      cases hline
  | unclear =>
      rw [hadvance] at hline
      cases hline

theorem exists_literal_of_clashes {i : Nat} (h : clashes lines (.slot i :: segments) = true)
    (hsegments : delimited (.slot i :: segments) = true) :
  ∃ c l more, segments = .literal (c :: l) :: more
  := by
  rw [clashes, Bool.and_eq_true, Bool.and_eq_true] at h
  cases segments with
  | nil => simp [indices] at h
  | cons t more =>
      cases t with
      | slot j => cases hsegments
      | literal l =>
          cases l with
          | nil => cases hsegments
          | cons c l => use c, l, more

/-- The open slot takes the white space in front of the first of the lines below. -/
theorem read_below_cons {i : Nat} {p : Text × Text} {r : Reading}
    (h : clashes lines (.slot i :: segments) = true)
    (hsegments : delimited (.slot i :: segments) = true) (hτ : τ ∈ lines)
    (hp : isBlankText p.1 = true ∧ τ.Shows p.2)
    (hread : read (.slot i :: segments) (below (p :: ls)) = some r) :
  ∃ a es, r = (i, '\n' :: p.1 ++ a) :: es
    ∧ read (.slot i :: segments) (p.2 ++ below ls) = some ((i, a) :: es)
  := by
  obtain ⟨c, l, more, rfl⟩ := exists_literal_of_clashes h hsegments
  rw [clashes, Bool.and_eq_true, Bool.and_eq_true] at h
  rw [below, read_indent h.1.1 hsegments hτ hp.2 (isBlankText_lineFeed_cons hp.1)
    (endsLine_below ls)] at hread
  obtain ⟨r', hr', hresume⟩ := Option.map_eq_some_iff.mp hread
  obtain ⟨a, es, rfl, -⟩ := exists_of_read_slot hr'
  use a, es, hresume.symm

/-- Segments with an open slot are read to their end in one line, or the slot stays open. -/
theorem read_append_of_clashes {i : Nat} {a : Text} {es : Reading}
    (h : clashes lines (.slot i :: segments) = true)
    (hsegments : delimited (.slot i :: segments) = true)
    (hlines : ∀ σ ∈ lines, some '\n' ∉ σ) (hσ : σ ∈ lines) (hs : σ.Shows s) (hu : EndsLine u)
    (hread : read (.slot i :: segments) (s ++ u) = some ((i, a) :: es)) :
  (u = [] ∧ ∀ e ∈ es, '\n' ∉ e.2)
    ∨ ∃ b, read (.slot i :: segments) u = some ((i, b) :: es)
  := by
  have hdescribes := describes_advance hu hsegments hs
  rw [hread] at hdescribes
  rcases advance_of_clashes h hsegments hσ with hadvance | hadvance | hadvance
  · rw [hadvance] at hdescribes
    cases hdescribes
  · rw [hadvance] at hdescribes
    have hempty : u = [] := List.isEmpty_iff.mp hdescribes.symm
    left
    use hempty
    intro e he hmem
    rw [hempty, List.append_nil] at hread
    apply hs.not_mem_lineFeed (hlines σ hσ)
    apply (infix_of_mem_read hread (List.mem_cons_of_mem _ he)).subset hmem
  · rw [hadvance] at hdescribes
    obtain ⟨r, b, hrest⟩ := hdescribes
    obtain ⟨r', hr', hresume⟩ := Option.map_eq_some_iff.mp hrest.symm
    obtain ⟨c, es', rfl, hes'⟩ := exists_of_read_slot hr'
    obtain ⟨_, _, hcons, hes⟩ := exists_of_read_slot hread
    obtain ⟨-, rfl⟩ := List.cons.inj hcons
    have hlength : es'.length = es.length := by
      simpa using congrArg List.length (hes'.trans hes.symm)
    obtain rfl := Reading.tail_of_resume hresume hlength
    right
    use c

/-- The slots behind an open slot are filled with parts of a line. -/
theorem not_mem_lineFeed_of_clashes {i : Nat} {a : Text} {es : Reading}
    (h : clashes lines (.slot i :: segments) = true)
    (hsegments : delimited (.slot i :: segments) = true)
    (hlines : ∀ σ ∈ lines, some '\n' ∉ σ) (hσ : σ ∈ lines) (hs : σ.Shows s)
    (hτs : ∀ τ ∈ τs, τ ∈ lines) (hls : Sketch.ShowBelow τs ls)
    (hread : read (.slot i :: segments) (s ++ below ls) = some ((i, a) :: es)) :
  ∀ e ∈ es, '\n' ∉ e.2
  := by
  induction hls generalizing σ s a with
  | nil =>
      rcases read_append_of_clashes h hsegments hlines hσ hs (endsLine_below []) hread
        with ⟨-, hes⟩ | ⟨b, hb⟩
      · exact hes
      · obtain ⟨c, l, more, rfl⟩ := exists_literal_of_clashes h hsegments
        cases hb
  | @cons τ p τs ls hp hls ih =>
      rcases read_append_of_clashes h hsegments hlines hσ hs (endsLine_below (p :: ls)) hread
        with ⟨-, hes⟩ | ⟨b, hb⟩
      · exact hes
      · obtain ⟨hτ, hτs⟩ := List.forall_mem_cons.mp hτs
        obtain ⟨c, es', hcons, hrest⟩ := read_below_cons h hsegments hτ hp hb
        obtain ⟨-, rfl⟩ := List.cons.inj hcons
        apply ih hτ hp.2 hτs hrest

/-- The slot of segments that clash is filled once more behind the first time. -/
theorem exists_mem_of_clashes {i : Nat} {a : Text} {es : Reading}
    (h : clashes lines (.slot i :: segments) = true)
    (hread : read (.slot i :: segments) s = some ((i, a) :: es)) :
  ∃ c, (i, c) ∈ es
  := by
  rw [clashes, Bool.and_eq_true, Bool.and_eq_true] at h
  obtain ⟨_, _, hcons, hes⟩ := exists_of_read_slot hread
  obtain ⟨-, rfl⟩ := List.cons.inj hcons
  have hagain : i ∈ es.map Prod.fst := by
    rw [hes]
    apply List.contains_iff_mem.mp h.1.2
  obtain ⟨⟨_, c⟩, hc, rfl⟩ := List.mem_map.mp hagain
  use c

/-- Stuck segments that read more than a line are left with an open slot at the end of the line. -/
theorem exists_waiting_of_stuck (h : stuck lines segments = true)
    (hsegments : delimited segments = true) (hσ : σ ∈ lines) (hs : σ.Shows s) (hu : EndsLine u)
    (hne : u ≠ []) (hread : (read segments (s ++ u)).isSome = true) :
  ∃ rest, advance segments σ = .waiting rest ∧ clashes lines rest = true
  := by
  have hline := List.all_eq_true.mp h σ hσ
  have hdescribes := describes_advance hu hsegments hs
  cases hadvance : advance segments σ with
  | failed =>
      rw [hadvance] at hdescribes
      rw [hdescribes] at hread
      cases hread
  | finished =>
      rw [hadvance] at hdescribes
      have hempty := hdescribes.symm.trans hread
      apply absurd (List.isEmpty_iff.mp hempty) hne
  | waiting rest =>
      rw [hadvance] at hline
      use rest, rfl, hline
  | trailing =>
      rw [hadvance] at hline
      cases hline
  | unclear =>
      rw [hadvance] at hline
      cases hline

/-- Where segments are stuck, some slot is filled unlike: with lines where it stays open at the
end of a line, and with a part of a line where it occurs again. -/
theorem not_agrees_of_stuck {r : Reading} (h : stuck lines segments = true)
    (hsegments : delimited segments = true) (hlines : ∀ σ ∈ lines, some '\n' ∉ σ)
    (hσ : σ ∈ lines) (hs : σ.Shows s) (hτs : ∀ τ ∈ τs, τ ∈ lines)
    (hls : Sketch.ShowBelow τs ls) (hne : ls ≠ [])
    (hread : read segments (s ++ below ls) = some r) :
  ¬ r.Agrees
  := by
  cases hls with
  | nil => apply absurd rfl hne
  | @cons τ p τs ls hp hls =>
      obtain ⟨hτ, hτs⟩ := List.forall_mem_cons.mp hτs
      have hu := endsLine_below (p :: ls)
      obtain ⟨rest, hadvance, hclashes⟩ := exists_waiting_of_stuck h hsegments hσ hs hu
        (List.cons_ne_nil _ _) (by rw [hread, Option.isSome_some])
      -- the reading of the lines below, whose first slot was open
      have hdescribes := describes_advance hu hsegments hs
      rw [hadvance, hread] at hdescribes
      obtain ⟨r', b, hrest⟩ := hdescribes
      obtain ⟨r'', hr'', hresume⟩ := Option.map_eq_some_iff.mp hrest.symm
      obtain ⟨-, hdelimited, i, d, l, more, rfl⟩ := of_advance_eq_waiting hsegments hadvance
      obtain ⟨a, es, rfl, hbelow⟩ := read_below_cons hclashes hdelimited hτ hp hr''
      -- its filling has the line feed in front of them, the next one of its index has none
      obtain ⟨c, hc⟩ := exists_mem_of_clashes hclashes hbelow
      intro hagrees
      rw [← hresume] at hagrees
      have hfilled := hagrees i (b ++ ('\n' :: p.1 ++ a)) c
        (List.mem_append_right _ List.mem_cons_self)
        (List.mem_append_right _ (List.mem_cons_of_mem _ hc))
      apply not_mem_lineFeed_of_clashes hclashes hdelimited hlines hτ hp.2 hτs hls hbelow _ hc
      rw [← hfilled]
      simp

end Segment

end Diagnostics
