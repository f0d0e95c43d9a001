import Diagnostics.Proofs.Text.Lines
import Diagnostics.Proofs.Text.Occurrence

/-!
# Sketches

A sketch shows lines that differ in their words only.  Where a literal stands for the first time
can often be read off a sketch, whatever the words are: a literal that begins with a stop never
begins inside a word, so that the places to look at are the known characters.  `front` tells whether
a literal stands at the front of the lines that a sketch shows, and `search` looks for its first
occurrence in them; both give up where that depends on the words.
-/

namespace Diagnostics

namespace Text

/-- The characters that no word has: white space, quotes, commas and full stops. -/
def isStop (c : Char) : Bool := isBlank c || c = '\'' || c = ',' || c = '.'

/-- A text that is not empty and has no stops. -/
structure IsWord (w : Text) : Prop where
  ne_nil : w ≠ []
  not_stop : ∀ c ∈ w, isStop c = false

instance : DecidablePred IsWord := fun w =>
  decidable_of_iff (w ≠ [] ∧ w.all (fun c => !isStop c) = true)
    ⟨fun h => ⟨h.1, by simpa using h.2⟩, fun h => ⟨h.1, by simpa using h.2⟩⟩

variable {l s t w u : Text}

theorem isStop_of_isBlank {c : Char} (h : isBlank c = true) :
  isStop c = true
  := by
  simp [isStop, h]

theorem IsWord.not_mem_lineFeed (h : IsWord w) :
  '\n' ∉ w
  := by
  intro hmem
  have := h.not_stop _ hmem
  cases this

/-- Where the first character of a literal does not stand, neither does the literal. -/
theorem not_prefix_of_head {c d : Char} (h : c ≠ d) :
  ¬ c :: l <+: d :: s
  := by
  rw [List.cons_prefix_cons, not_and]
  intro hcd
  apply absurd hcd h

/-- A literal is searched for behind a text that it cannot begin in. -/
theorem splitAtFirst?_append {c : Char} (h : c ∉ w) :
  splitAtFirst? (c :: l) (w ++ t)
    = (splitAtFirst? (c :: l) t).map fun (a, b) => (w ++ a, b)
  := by
  induction w with
  | nil => simp
  | cons d w ih =>
      rw [List.mem_cons, not_or] at h
      rw [List.cons_append, splitAtFirst?_cons_of_absent (not_prefix_of_head h.1), ih h.2,
        Option.map_map]
      rfl

end Text

open Text (IsWord EndsLine isBlank isStop splitAtFirst?)

/-- The characters of a line, with `none` in place of its words. -/
abbrev Sketch := List (Option Char)

namespace Sketch

/-- A line that a sketch shows has words where they are left out. -/
inductive Shows : Sketch → Text → Prop where
  | nil : Shows [] []
  | char (c : Char) {σ : Sketch} {s : Text} (h : Shows σ s) : Shows (some c :: σ) (c :: s)
  | word {w : Text} {σ : Sketch} {s : Text} (hw : IsWord w) (h : Shows σ s) :
      Shows (none :: σ) (w ++ s)

variable {l s u w : Text} {σ τ : Sketch}

theorem Shows.append {t : Text} (hs : Shows σ s) (ht : Shows τ t) :
  Shows (σ ++ τ) (s ++ t)
  := by
  induction hs with
  | nil => exact ht
  | char c _ ih => exact .char c ih
  | word hw _ ih =>
      rw [List.append_assoc]
      exact .word hw ih

theorem shows_map_some (s : Text) :
  Shows (s.map some) s
  := by
  induction s with
  | nil => exact .nil
  | cons c s ih => exact .char c ih

/-- The characters of a shown line are those of the sketch and those of words. -/
theorem Shows.mem {c : Char} (h : Shows σ s) (hc : c ∈ s) :
  some c ∈ σ ∨ isStop c = false
  := by
  induction h with
  | nil => cases hc
  | char d _ ih =>
      rcases List.mem_cons.mp hc with rfl | hc
      · exact .inl List.mem_cons_self
      · exact (ih hc).imp_left (List.mem_cons_of_mem _)
  | word hw _ ih =>
      rcases List.mem_append.mp hc with hc | hc
      · exact .inr (hw.not_stop c hc)
      · exact (ih hc).imp_left (List.mem_cons_of_mem _)

theorem Shows.not_mem_lineFeed (h : Shows σ s) (hσ : some '\n' ∉ σ) :
  '\n' ∉ s
  := by
  intro hmem
  rcases h.mem hmem with hmem | hstop
  · apply hσ hmem
  · cases hstop

/-! ### Refutation -/

/-- Whether no line that the sketch shows begins with a literal.  With `inside`, the rest of a
word may stand in front of the line. -/
def refutes : Bool → Text → Sketch → Bool
  | _, [], _ => false
  | inside, c :: l, σ =>
    (!inside || isStop c || refutes true l σ)
      && match σ with
        | [] => true
        | some d :: σ => c ≠ d || refutes false l σ
        | none :: σ => isStop c || refutes true l σ

/-- A character of a word is no stop, so that the rest of the literal is refuted behind it. -/
theorem refutes_of_mem_word {c : Char} (h : (isStop c || refutes true l σ) = true) (hc : c ∈ w)
    (hw : ∀ c ∈ w, isStop c = false) :
  refutes true l σ = true
  := by
  rwa [hw c hc, Bool.false_or] at h

theorem not_prefix_of_refutes {inside : Bool} (h : refutes inside l σ = true)
    (hinside : inside = false → w = []) (hw : ∀ c ∈ w, isStop c = false) (hs : Shows σ s)
    (hu : EndsLine u) (hl : '\n' ∉ l) :
  ¬ l <+: w ++ (s ++ u)
  := by
  -- the word in front is used up first, then the known characters one by one
  induction l generalizing inside w σ s with
  | nil => cases h
  | cons c l ih =>
      rw [List.mem_cons, not_or] at hl
      obtain ⟨hrest, hfront⟩ := (Bool.and_eq_true _ _).mp h
      cases w with
      | cons d w =>
          rw [List.cons_append, List.cons_prefix_cons]
          rintro ⟨rfl, hprefix⟩
          have : inside = true := by
            by_contra hfalse
            cases hinside (by simpa using hfalse)
          subst this
          have hrefutes := refutes_of_mem_word (by simpa using hrest) List.mem_cons_self hw
          apply ih hrefutes (by simp) (fun c hc => hw c (List.mem_cons_of_mem _ hc)) hs hl.2
            hprefix
      | nil =>
          rw [List.nil_append]
          cases hs with
          | nil =>
              rintro ⟨q, hq⟩
              apply hl.1
              rw [List.nil_append] at hq
              exact (hu c (by simp [← hq])).symm
          | @char d σ s hs =>
              rw [List.cons_append, List.cons_prefix_cons]
              rintro ⟨rfl, hprefix⟩
              have hrefutes : refutes false l σ = true := by simpa using hfront
              apply ih (w := []) hrefutes (fun _ => rfl) (by simp) hs hl.2 hprefix
          | @word w' σ' s' hw' hs =>
              obtain ⟨d, w', rfl⟩ := List.exists_cons_of_ne_nil hw'.ne_nil
              rw [List.append_assoc, List.cons_append, List.cons_prefix_cons]
              rintro ⟨rfl, hprefix⟩
              have hrefutes := refutes_of_mem_word hfront List.mem_cons_self hw'.not_stop
              apply ih hrefutes (by simp)
                (fun c hc => hw'.not_stop c (List.mem_cons_of_mem _ hc)) hs hl.2 hprefix

/-! ### Search -/

/-- What comes of looking for a literal in a sketch. -/
inductive Search where
  /-- It does not stand there. -/
  | absent
  /-- The words decide. -/
  | unclear
  /-- It stands there, with this rest of the line behind it. -/
  | found (rest : Sketch)
  deriving DecidableEq

/-- Whether a literal stands at the front. -/
def front : Text → Sketch → Search
  | [], σ => .found σ
  | _ :: _, [] => .absent
  | c :: l, some d :: σ => if c = d then front l σ else .absent
  | c :: l, none :: σ => if isStop c || refutes true l σ then .absent else .unclear

/-- The rests of a line that begin with a stop, without it. -/
def stops : Sketch → List (Char × Sketch)
  | [] => []
  | none :: σ => stops σ
  | some d :: σ => if isStop d then (d, σ) :: stops σ else stops σ

/-- The first of some rests of a line that the literal `c :: l` stands in front of. -/
def firstFront (c : Char) (l : Text) : List (Char × Sketch) → Search
  | [] => .absent
  | (d, σ) :: rests =>
    if c = d then
      match front l σ with
      | .found τ => .found τ
      | .unclear => .unclear
      | .absent => firstFront c l rests
    else
      firstFront c l rests

/-- The first occurrence of the literal `c :: l`, whose first character is a stop. -/
def search (c : Char) (l : Text) (σ : Sketch) : Search := firstFront c l (stops σ)

theorem Shows.of_front_found (hs : Shows σ s) (h : front l σ = .found τ) :
  ∃ t, s = l ++ t ∧ Shows τ t
  := by
  fun_induction front l σ generalizing s with
  | case1 σ =>
      obtain rfl := Search.found.inj h
      use s, rfl
  | case2 => cases h
  | case3 c l σ ih =>
      cases hs with
      | char _ hs =>
          obtain ⟨t, rfl, ht⟩ := ih hs h
          use t, rfl
  | case4 => cases h
  | case5 => cases h
  | case6 => cases h

theorem Shows.of_front_absent (hs : Shows σ s) (h : front l σ = .absent) (hu : EndsLine u)
    (hl : '\n' ∉ l) :
  ¬ l <+: s ++ u
  := by
  fun_induction front l σ generalizing s with
  | case1 => cases h
  | case2 c l =>
      cases hs with
      | nil =>
          rintro ⟨q, hq⟩
          apply hl
          rw [List.nil_append] at hq
          have hc := hu c (by simp [← hq])
          simp [hc]
  | case3 c l σ ih =>
      cases hs with
      | char _ hs =>
          rw [List.cons_append, List.cons_prefix_cons, not_and]
          rintro -
          apply ih hs h (fun hmem => hl (List.mem_cons_of_mem _ hmem))
  | case4 c l d σ hcd =>
      cases hs with
      | char _ hs => apply Text.not_prefix_of_head hcd
  | case5 c l σ hc =>
      cases hs with
      | @word w σ s hw hs =>
          obtain ⟨d, w, rfl⟩ := List.exists_cons_of_ne_nil hw.ne_nil
          rw [List.append_assoc, List.cons_append, List.cons_prefix_cons]
          rintro ⟨rfl, hprefix⟩
          have hrefutes := refutes_of_mem_word hc List.mem_cons_self hw.not_stop
          apply not_prefix_of_refutes hrefutes (by simp)
            (fun c hc => hw.not_stop c (List.mem_cons_of_mem _ hc)) hs hu
            (fun hmem => hl (List.mem_cons_of_mem _ hmem)) hprefix
  | case6 => cases h

/-- A literal that begins with a stop is searched for behind a word. -/
theorem splitAtFirst?_word {c : Char} (hc : isStop c = true) (hw : IsWord w) (t : Text) :
  splitAtFirst? (c :: l) (w ++ t) = (splitAtFirst? (c :: l) t).map fun (a, b) => (w ++ a, b)
  := by
  apply Text.splitAtFirst?_append
  intro hmem
  rw [hw.not_stop c hmem] at hc
  cases hc

/-- A search goes on behind a character unless the literal stands there. -/
theorem search_some {c : Char} (hc : isStop c = true) (d : Char) (l : Text) (σ : Sketch) :
  search c l (some d :: σ) =
    match front (c :: l) (some d :: σ) with
    | .found τ => .found τ
    | .unclear => .unclear
    | .absent => search c l σ
  := by
  rw [search, stops, front]
  by_cases hd : isStop d = true
  · rw [if_pos hd, firstFront]
    by_cases hcd : c = d
    · rw [if_pos hcd, if_pos hcd, search]
    · rw [if_neg hcd, if_neg hcd, search]
  · have hcd : c ≠ d := by
      rintro rfl
      apply hd hc
    rw [if_neg hd, if_neg hcd, search]

/-- What is found in a sketch is found in every line that it shows. -/
theorem Shows.of_search_found {c : Char} (hs : Shows σ s) (h : search c l σ = .found τ)
    (hc : isStop c = true) (hu : EndsLine u) (hl : '\n' ∉ c :: l) :
  ∃ a t, s = a ++ c :: l ++ t ∧ Shows τ t ∧ splitAtFirst? (c :: l) (s ++ u) = some (a, t ++ u)
  := by
  induction hs with
  | nil => cases h
  | @char d σ s hs ih =>
      rw [search_some hc] at h
      split at h
      case h_1 ρ hρ =>
          obtain rfl := Search.found.inj h
          obtain ⟨t, ht, hshows⟩ := (Shows.char d hs).of_front_found hρ
          use [], t, ht, hshows
          rw [ht]
          apply Text.splitAtFirst?_eq_some_iff.mpr
          use by simp
          apply Text.isClosedBy_nil
      case h_2 => cases h
      rename_i habsent
      obtain ⟨a, t, rfl, ht, hsplit⟩ := ih h
      use d :: a, t, rfl, ht
      have hnot := (Shows.char d hs).of_front_absent habsent hu hl
      rw [List.cons_append] at hnot
      rw [List.cons_append, Text.splitAtFirst?_cons_of_absent hnot, hsplit]
      rfl
  | @word w σ s hw hs ih =>
      obtain ⟨a, t, rfl, ht, hsplit⟩ := ih h
      use w ++ a, t, by simp, ht
      rw [List.append_assoc w, splitAtFirst?_word hc hw, hsplit]
      rfl

/-- What is absent from a sketch does not occur in any line that it shows, and is searched for in
what follows. -/
theorem Shows.of_search_absent {c : Char} (hs : Shows σ s) (h : search c l σ = .absent)
    (hc : isStop c = true) (hu : EndsLine u) (hl : '\n' ∉ c :: l) :
  splitAtFirst? (c :: l) (s ++ u) = (splitAtFirst? (c :: l) u).map fun (a, b) => (s ++ a, b)
  := by
  induction hs with
  | nil => simp
  | @char d σ s hs ih =>
      rw [search_some hc] at h
      split at h
      case h_1 => cases h
      case h_2 => cases h
      rename_i habsent
      have hnot := (Shows.char d hs).of_front_absent habsent hu hl
      rw [List.cons_append] at hnot
      rw [List.cons_append, Text.splitAtFirst?_cons_of_absent hnot, ih h, Option.map_map]
      rfl
  | @word w σ s hw hs ih =>
      rw [List.append_assoc, splitAtFirst?_word hc hw, ih h, Option.map_map]
      congr 1
      funext ab
      simp

/-! ### White space in front of a line -/

/-- Whether a literal cannot begin in the white space in front of a line that the sketch shows. -/
def skips : Text → Sketch → Bool
  | [], _ => false
  | [c], _ => !isBlank c
  | c :: d :: l, σ => !isBlank c || (!isBlank d && front (d :: l) σ = .absent)

theorem Shows.not_prefix_of_skips (hs : Shows σ s) (h : skips l σ = true) (hu : EndsLine u)
    (hl : '\n' ∉ l) {b : Char} {indent : Text} (hb : isBlank b = true)
    (hindent : Text.isBlankText indent = true) :
  ¬ l <+: b :: (indent ++ (s ++ u))
  := by
  cases l with
  | nil => cases h
  | cons c l =>
      rw [List.cons_prefix_cons]
      rintro ⟨rfl, hprefix⟩
      cases l with
      | nil => simp [skips, hb] at h
      | cons d l =>
          have hd : isBlank d = false ∧ front (d :: l) σ = .absent := by
            simpa [skips, hb] using h
          cases indent with
          | nil =>
              apply hs.of_front_absent hd.2 hu _ hprefix
              intro hmem
              apply hl (List.mem_cons_of_mem _ hmem)
          | cons e indent =>
              rw [List.cons_append, List.cons_prefix_cons] at hprefix
              have he := List.all_eq_true.mp hindent e List.mem_cons_self
              rw [← hprefix.1, hd.1] at he
              cases he

/-- A literal is searched for behind the white space that it cannot begin in. -/
theorem Shows.splitAtFirst?_indent (hs : Shows σ s) (h : skips l σ = true) (hu : EndsLine u)
    (hl : '\n' ∉ l) {indent : Text} (hindent : Text.isBlankText indent = true) :
  splitAtFirst? l (indent ++ (s ++ u))
    = (splitAtFirst? l (s ++ u)).map fun (a, b) => (indent ++ a, b)
  := by
  induction indent with
  | nil => simp
  | cons b indent ih =>
      rw [Text.isBlankText, List.all_cons, Bool.and_eq_true] at hindent
      have hnot := hs.not_prefix_of_skips h hu hl hindent.1 hindent.2
      rw [List.cons_append, Text.splitAtFirst?_cons_of_absent hnot, ih hindent.2,
        Option.map_map]
      rfl

end Sketch

end Diagnostics
