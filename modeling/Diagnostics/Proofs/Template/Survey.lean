import Diagnostics.Proofs.Template.Measures
import Mathlib.Data.Fin.Tuple.Basic
import Mathlib.Data.Finset.Card
import Mathlib.Order.Bounds.Defs
import Mathlib.Tactic.Use

/-!
# Surveys of patterns

A pattern is checked in a single pass over its segments.  The pass keeps a table of the indices that
have occurred, the least number above all of them, and the literal bytes so far, and it ends at the
first index that has no place in the table.  At the end of the pattern the least index without a
mark in the table is looked for.  In this way a pattern is refused for its first large index, and
without one for the least index that it lacks; otherwise the indices are those below the arity.
-/

namespace Diagnostics

namespace Template

/-- The first of some indices that is larger than the largest one allowed. -/
def IsFirstLarge (indices : List Nat) (i : Nat) : Prop :=
  ∃ before after, indices = before ++ i :: after ∧ (∀ j ∈ before, j ≤ maxIndex) ∧ maxIndex < i

/-- An index that is absent although a larger one occurs. -/
def IsGap (indices : List Nat) (i : Nat) : Prop := i ∉ indices ∧ ∃ j ∈ indices, i < j

/-- What forbids some indices as those of a template. -/
inductive Forbids (code : Nat) (indices : List Nat) : TemplateError → Prop where
  | indexTooLarge {i : Nat} (h : IsFirstLarge indices i) :
      Forbids code indices (.indexTooLarge code i)
  | notContiguous {i : Nat} (hall : ∀ j ∈ indices, j ≤ maxIndex)
      (h : IsLeast {i | IsGap indices i} i) : Forbids code indices (.notContiguous code i)

end Template

open Template (IsFirstLarge IsGap Forbids maxIndex)

/-- What a pass over the segments of a pattern keeps. -/
structure Survey where
  /-- Which indices have occurred. -/
  seen : Vector Bool (maxIndex + 1)
  /-- The least number above all indices that have occurred. -/
  arity : Nat
  arity_le : arity ≤ maxIndex + 1
  /-- The number of bytes of the literals. -/
  literalLength : Nat

namespace Survey

/-- The survey of no segments. -/
def empty : Survey := ⟨Vector.replicate _ false, 0, Nat.zero_le _, 0⟩

/-- A survey with one more segment.  An index without a place in the table is refused. -/
def note (s : Survey) : Segment → Except Nat Survey
  | .literal l => .ok { s with literalLength := s.literalLength + l.utf8Length }
  | .slot i =>
    if h : i ≤ maxIndex then
      .ok { s with
        seen := s.seen.set i true (Nat.lt_succ_of_le h)
        arity := max s.arity (i + 1)
        arity_le := Nat.max_le.mpr ⟨s.arity_le, Nat.succ_le_succ h⟩ }
    else
      .error i

/-- The survey of some segments, or the first index that has no place in the table. -/
def ofSegments (segments : List Segment) : Except Nat Survey := segments.foldlM note empty

/-- The least index below the arity that has not occurred. -/
def missing? (s : Survey) : Option Nat :=
  (Fin.find? fun i : Fin s.arity => !s.seen[i.castLE s.arity_le]).map (·.val)

/-- The arity and the number of literal bytes of a pattern, or what forbids it as a template. -/
def check (code : Nat) (p : Text) : Except TemplateError (Nat × Nat) :=
  match ofSegments (Segment.ofText p) with
  | .error i => .error (.indexTooLarge code i)
  | .ok s =>
    match s.missing? with
    | some i => .error (.notContiguous code i)
    | none => .ok (s.arity, s.literalLength)

end Survey

/-! ### Gaps -/

namespace Template

variable {segments : List Segment} {indices : List Nat} {code i : Nat} {e : TemplateError}

theorem isGap_iff :
  IsGap (Segment.indices segments) i ↔ i < Segment.arity segments ∧ i ∉ Segment.indices segments
  := by
  rw [IsGap, Segment.lt_arity_iff]
  constructor
  · rintro ⟨hi, j, hj, hlt⟩
    exact ⟨⟨j, hj, hlt.le⟩, hi⟩
  · rintro ⟨⟨j, hj, hle⟩, hi⟩
    have hne : i ≠ j := fun h => hi (h ▸ hj)
    exact ⟨hi, j, hj, lt_of_le_of_ne hle hne⟩

/-- Below the least gap every index occurs. -/
theorem isLeast_isGap_iff :
  IsLeast {i | IsGap (Segment.indices segments) i} i
    ↔ i < Segment.arity segments ∧ i ∉ Segment.indices segments
      ∧ ∀ j < i, j ∈ Segment.indices segments
  := by
  constructor
  · rintro ⟨hgap, hleast⟩
    obtain ⟨hi, hnot⟩ := isGap_iff.mp hgap
    use hi, hnot
    intro j hj
    by_contra habsent
    have := hleast (isGap_iff.mpr ⟨hj.trans hi, habsent⟩)
    omega
  · rintro ⟨hi, hnot, hbelow⟩
    use isGap_iff.mpr ⟨hi, hnot⟩
    intro k hk
    by_contra hlt
    apply (isGap_iff.mp hk).2 (hbelow k (Nat.lt_of_not_le hlt))

theorem find?_large_eq_some_iff :
  indices.find? (fun i => maxIndex < i) = some i ↔ IsFirstLarge indices i
  := by
  rw [List.find?_eq_some_iff_append, IsFirstLarge]
  simp only [decide_eq_true_eq, Bool.not_eq_true', decide_eq_false_iff_not, Nat.not_lt]
  tauto

theorem find?_large_eq_none_iff :
  indices.find? (fun i => maxIndex < i) = none ↔ ∀ i ∈ indices, i ≤ maxIndex
  := by
  simp [List.find?_eq_none]

theorem not_isFirstLarge (hall : ∀ j ∈ indices, j ≤ maxIndex) :
  ¬ IsFirstLarge indices i
  := by
  rintro ⟨before, after, rfl, -, hlarge⟩
  have := hall i (by simp)
  omega

/-- The segments of a pattern are forbidden for their indices. -/
theorem fault?_eq_some_iff :
  fault? code segments = some e ↔ Forbids code (Segment.indices segments) e
  := by
  rw [fault?]
  split
  case h_1 i hi =>
      have hlarge := find?_large_eq_some_iff.mp hi
      constructor
      · intro h
        obtain rfl := Option.some.inj h
        exact .indexTooLarge hlarge
      · rintro (h | ⟨hall, -⟩)
        · rw [find?_large_eq_some_iff.mpr h] at hi
          rw [Option.some.inj hi]
        · apply absurd hlarge (not_isFirstLarge hall)
  case h_2 hnone =>
      have hall := find?_large_eq_none_iff.mp hnone
      have hfind (i : Nat) :
          (List.range (Segment.arity segments)).find?
              (fun i => !(Segment.indices segments).contains i) = some i
            ↔ IsLeast {i | IsGap (Segment.indices segments) i} i := by
        rw [List.find?_range_eq_some, isLeast_isGap_iff]
        simp
        tauto
      rw [Option.map_eq_some_iff]
      simp only [hfind]
      constructor
      · rintro ⟨i, hi, rfl⟩
        exact .notContiguous hall hi
      · rintro (h | ⟨-, h⟩)
        · apply absurd h (not_isFirstLarge hall)
        · exact ⟨_, h, rfl⟩

/-- A pattern is refused for what forbids its indices. -/
theorem ofPattern_eq_error_iff {p : Text} :
  ofPattern code p = .error e ↔ Forbids code (Segment.indices (Segment.ofText p)) e
  := by
  rw [← fault?_eq_some_iff, ofPattern]
  split
  case h_1 e' he' => rw [he', Except.error.injEq, Option.some.injEq]
  case h_2 hnone => simp [hnone]

end Template

/-! ### A pass over the segments -/

namespace Survey

variable {s s' : Survey} {front segments : List Segment} {segment : Segment} {i : Nat}

/-- A survey keeps what there is to know of the segments that the pass has gone over. -/
structure Describes (s : Survey) (segments : List Segment) : Prop where
  seen_iff : ∀ i (_ : i < maxIndex + 1), s.seen[i] = true ↔ i ∈ Segment.indices segments
  arity_eq : s.arity = Segment.arity segments
  literalLength_eq : s.literalLength = (segments.map Segment.literalLength).sum

theorem describes_empty :
  empty.Describes []
  := by
  constructor
  · intro i hi
    simp [empty, Segment.indices]
  · rfl
  · rfl

/-- One more segment is either noted, or it is a slot whose index has no place in the table. -/
theorem describes_note (h : s.Describes front) (hnote : s.note segment = .ok s') :
  s'.Describes (front ++ [segment]) ∧ ∀ i ∈ segment.index?, i ≤ maxIndex
  := by
  cases segment with
  | literal l =>
      obtain rfl := Except.ok.inj hnote
      constructor
      · constructor
        · intro i hi
          rw [Segment.indices_append]
          simpa [Segment.indices, Segment.index?] using h.seen_iff i hi
        · rw [Segment.arity_append, ← h.arity_eq]
          exact (Nat.max_zero _).symm
        · rw [List.map_append, List.sum_append, ← h.literalLength_eq]
          rfl
      · intro i hi
        cases hi
  | slot j =>
      rw [Survey.note] at hnote
      split at hnote
      case isFalse => cases hnote
      rename_i hj
      obtain rfl := Except.ok.inj hnote
      constructor
      · constructor
        · intro i hi
          rw [Segment.indices_append, List.mem_append, ← h.seen_iff i hi]
          by_cases hij : j = i
          · simp [hij, Segment.indices, Segment.index?]
          · simp [hij, Ne.symm hij, Segment.indices, Segment.index?]
        · rw [Segment.arity_append, ← h.arity_eq]
          rfl
        · rw [List.map_append, List.sum_append, ← h.literalLength_eq]
          rfl
      · intro i hi
        obtain rfl := Option.some.inj hi
        exact hj

theorem note_eq_error_iff :
  s.note segment = .error i ↔ segment = .slot i ∧ maxIndex < i
  := by
  cases segment with
  | literal l => simp [Survey.note]
  | slot j =>
      rw [Survey.note]
      split
      case isTrue hj =>
          simp only [reduceCtorEq, Segment.slot.injEq, false_iff, not_and, Nat.not_lt]
          rintro rfl
          exact hj
      case isFalse hj =>
          rw [Except.error.injEq, Segment.slot.injEq]
          constructor
          · rintro rfl
            exact ⟨rfl, Nat.lt_of_not_le hj⟩
          · exact And.left

/-- A pass that reaches the end keeps what there is to know of all segments. -/
theorem describes_foldlM (h : s.Describes front) (hrun : segments.foldlM note s = .ok s') :
  s'.Describes (front ++ segments) ∧ ∀ i ∈ Segment.indices segments, i ≤ maxIndex
  := by
  induction segments generalizing s front with
  | nil =>
      obtain rfl := Except.ok.inj hrun
      rw [List.append_nil]
      exact ⟨h, by simp [Segment.indices]⟩
  | cons segment segments ih =>
      rw [List.foldlM_cons] at hrun
      cases hnote : s.note segment with
      | error i =>
          rw [hnote] at hrun
          cases hrun
      | ok t =>
          rw [hnote] at hrun
          obtain ⟨hstep, hle⟩ := describes_note h hnote
          obtain ⟨hall, hrest⟩ := ih hstep hrun
          rw [List.append_assoc] at hall
          use hall
          intro i hi
          obtain ⟨other, hother, hindex⟩ := List.mem_filterMap.mp hi
          rcases List.mem_cons.mp hother with rfl | hother
          · apply hle i hindex
          · apply hrest i (List.mem_filterMap.mpr ⟨other, hother, hindex⟩)

/-- A pass that does not reach the end stops at the first index that is too large. -/
theorem isFirstLarge_of_foldlM (h : s.Describes front)
    (hrun : segments.foldlM note s = .error i) :
  IsFirstLarge (Segment.indices segments) i
  := by
  induction segments generalizing s front with
  | nil => cases hrun
  | cons segment segments ih =>
      rw [List.foldlM_cons] at hrun
      cases hnote : s.note segment with
      | error j =>
          rw [hnote] at hrun
          obtain rfl := Except.error.inj hrun
          obtain ⟨rfl, hlarge⟩ := note_eq_error_iff.mp hnote
          use [], Segment.indices segments, rfl, by simp, hlarge
      | ok t =>
          rw [hnote] at hrun
          obtain ⟨hstep, hle⟩ := describes_note h hnote
          obtain ⟨before, after, hsplit, hbefore, hlarge⟩ := ih hstep hrun
          cases segment with
          | literal l => use before, after, hsplit, hbefore
          | slot j =>
              use j :: before, after
              rw [List.forall_mem_cons]
              exact ⟨congrArg (j :: ·) hsplit, ⟨hle j rfl, hbefore⟩, hlarge⟩

theorem Describes.missing?_eq_some_iff (h : s.Describes segments) :
  s.missing? = some i ↔ IsLeast {i | IsGap (Segment.indices segments) i} i
  := by
  have hseen (k : Fin s.arity) :
      (!s.seen[k.castLE s.arity_le]) = true ↔ k.val ∉ Segment.indices segments := by
    have := h.seen_iff k (Nat.lt_of_lt_of_le k.isLt s.arity_le)
    simp [← this]
  rw [missing?, Option.map_eq_some_iff, Template.isLeast_isGap_iff, ← h.arity_eq]
  simp only [Fin.find?_eq_some_iff, hseen, ← Bool.not_eq_true, not_not]
  constructor
  · rintro ⟨k, ⟨habsent, hbelow⟩, rfl⟩
    use k.isLt, habsent
    intro j hj
    apply hbelow ⟨j, hj.trans k.isLt⟩ hj
  · rintro ⟨hi, habsent, hbelow⟩
    use ⟨i, hi⟩
    exact ⟨⟨habsent, fun j hj => hbelow j hj⟩, rfl⟩

/-- What a survey comes to is what forbids the pattern as a template; where nothing does, it is the
arity and the literal bytes of the segments. -/
theorem check_eq_error_or (code : Nat) (p : Text) :
  (∃ e, check code p = .error e ∧ Forbids code (Segment.indices (Segment.ofText p)) e)
    ∨ (∀ e, ¬ Forbids code (Segment.indices (Segment.ofText p)) e)
      ∧ check code p = .ok (Segment.arity (Segment.ofText p),
        ((Segment.ofText p).map Segment.literalLength).sum)
  := by
  rw [check]
  cases hrun : ofSegments (Segment.ofText p) with
  | error i =>
      left
      use .indexTooLarge code i, rfl
      apply Forbids.indexTooLarge (isFirstLarge_of_foldlM describes_empty hrun)
  | ok s =>
      obtain ⟨hall, hle⟩ := describes_foldlM describes_empty hrun
      rw [List.nil_append] at hall
      dsimp only
      cases hmissing : s.missing? with
      | some i =>
          left
          use .notContiguous code i, rfl
          apply Forbids.notContiguous hle (hall.missing?_eq_some_iff.mp hmissing)
      | none =>
          right
          constructor
          · rintro e (h | ⟨-, h⟩)
            · apply absurd h (Template.not_isFirstLarge hle)
            · rw [hall.missing?_eq_some_iff.mpr h] at hmissing
              cases hmissing
          · dsimp only
            rw [hall.arity_eq, hall.literalLength_eq]

/-- A survey comes to the same as the making of a template. -/
theorem check_eq (code : Nat) (p : Text) :
  check code p = (Template.ofPattern code p).map fun t => (t.arity, t.literalLength)
  := by
  rcases check_eq_error_or code p with ⟨e, hcheck, hforbids⟩ | ⟨hnone, hcheck⟩
  · rw [hcheck, Template.ofPattern_eq_error_iff.mpr hforbids]
    rfl
  · rw [hcheck]
    cases ht : Template.ofPattern code p with
    | error e => apply absurd (Template.ofPattern_eq_error_iff.mp ht) (hnone e)
    | ok t =>
        obtain ⟨-, rfl⟩ := Template.of_ofPattern_eq_ok ht
        rw [Except.map, Template.arity, Template.literalLength_eq_sum, t.segments_eq]

end Survey

namespace Template

/-- Indices without a gap are those below their number. -/
theorem card_indices {segments : List Segment}
    (h : ∀ i, i ∈ Segment.indices segments ↔ i < Segment.arity segments) :
  (Segment.indices segments).toFinset.card = Segment.arity segments
  := by
  have hrange : (Segment.indices segments).toFinset = Finset.range (Segment.arity segments) := by
    ext i
    rw [List.mem_toFinset, Finset.mem_range, h]
  rw [hrange, Finset.card_range]

/-- A pattern is refused for the first of its indices that is too large.  If there is none, it is
refused for the least index that is absent although a larger one occurs.  If there is none of these
either, there is a template of the pattern: its indices are those below its arity, the arity is the
number of distinct indices, and with the placeholders as they are written the literals make up all
bytes of the pattern.  A single pass over the segments comes to the same. -/
theorem ofPattern_outcome (code : Nat) (p : Text) :
  let indices := (Placeholder.numerals p).map Placeholder.value
  (∀ i, IsFirstLarge indices i → ofPattern code p = .error (.indexTooLarge code i))
    ∧ ((∀ i ∈ indices, i ≤ maxIndex) →
      (∀ i, IsLeast {i | IsGap indices i} i → ofPattern code p = .error (.notContiguous code i))
      ∧ ((∀ i, ¬ IsGap indices i) →
        ∃ t, ofPattern code p = .ok t ∧ t.code = code ∧ t.pattern = p
          ∧ (∀ i, i ∈ indices ↔ i < t.arity) ∧ t.arity = indices.toFinset.card
          ∧ p.utf8Length
            = t.literalLength
              + ((Placeholder.numerals p).map fun n => (Placeholder.spell n).utf8Length).sum))
    ∧ Survey.check code p = (ofPattern code p).map fun t => (t.arity, t.literalLength)
  := by
  intro indices
  rw [show indices = Segment.indices (Segment.ofText p) from (Segment.indices_ofText p).symm]
  use fun i h => ofPattern_eq_error_iff.mpr (.indexTooLarge h)
  constructor
  · intro hall
    use fun i h => ofPattern_eq_error_iff.mpr (.notContiguous hall h)
    intro hnone
    cases ht : ofPattern code p with
    | error e =>
        rcases ofPattern_eq_error_iff.mp ht with hlarge | ⟨-, hgap⟩
        · apply absurd hlarge (not_isFirstLarge hall)
        · apply absurd hgap.1 (hnone _)
    | ok t =>
        obtain ⟨rfl, rfl⟩ := of_ofPattern_eq_ok ht
        have hindices (i : Nat) :
            i ∈ Segment.indices (Segment.ofText t.pattern)
              ↔ i < Segment.arity (Segment.ofText t.pattern) := by
          constructor
          · intro hi
            apply Segment.lt_arity_iff.mpr ⟨i, hi, le_rfl⟩
          · intro hi
            by_contra habsent
            apply hnone i (isGap_iff.mpr ⟨hi, habsent⟩)
        use t, rfl, rfl, rfl
        rw [arity, t.segments_eq]
        exact ⟨hindices, (card_indices hindices).symm, t.utf8Length_pattern⟩
  · apply Survey.check_eq

/-- A large index is told of although there is a gap below it, and the first one is. -/
example :
    ofPattern 7 "{1}{032}{40}".toList = .error (.indexTooLarge 7 32)
      ∧ ofPattern 7 "{4}{01}{4}".toList = .error (.notContiguous 7 0) := by
  decide

end Template

end Diagnostics
