import Diagnostics.Matching.Specificity
import Mathlib.Data.List.Nodup
import Mathlib.Tactic.Use

/-!
# The orders of a registry

The templates of a registry ascend by their codes, so that a registry is determined by which
templates it holds: templates with distinct codes give the same registry in every order.  The
order in which they are tried is total on them, because no two have the same code.
-/

namespace Diagnostics

namespace Registry

variable {r : Registry} {s t : Template} {ts us : List Template}

/-! ### Ascending codes -/

/-- Two registries that hold the same templates are equal. -/
theorem eq_of_perm {r r' : Registry} (h : r.templates.Perm r'.templates) :
  r = r'
  := by
  obtain ⟨ts, hts⟩ := r
  obtain ⟨us, hus⟩ := r'
  obtain rfl : ts = us := by
    apply List.Perm.eq_of_pairwise _ hts hus h
    intro s t _ _ hst hts
    omega
  rfl

theorem nodup_codes (r : Registry) :
  (r.templates.map (·.code)).Nodup
  := by
  rw [List.Nodup, List.pairwise_map]
  apply r.ascending.imp
  intro s t hst
  apply Nat.ne_of_lt hst

/-- A template of a registry is the only one with its code. -/
theorem eq_of_code_eq (hs : s ∈ r.templates) (ht : t ∈ r.templates) (h : s.code = t.code) :
  s = t
  := List.inj_on_of_nodup_map r.nodup_codes hs ht h

/-- A template of a registry is found under its code. -/
theorem lookup_eq_some_of_mem (h : t ∈ r.templates) :
  r.lookup t.code = some t
  := by
  have hsome : (r.lookup t.code).isSome := by
    rw [lookup, List.find?_isSome]
    use t, h
    simp
  obtain ⟨u, hu⟩ := Option.isSome_iff_exists.mp hsome
  have hcode : u.code = t.code := by simpa using List.find?_some hu
  rw [hu, eq_of_code_eq (List.mem_of_find?_eq_some hu) h hcode]

/-- A template with a code of its own is put among the others. -/
theorem perm_place (h : ∀ u ∈ us, u.code ≠ t.code) :
  (place t us).Perm (t :: us)
  := by
  induction us with
  | nil => apply List.Perm.refl
  | cons u us ih =>
      obtain ⟨hu, hus⟩ := List.forall_mem_cons.mp h
      rw [place]
      split
      · apply List.Perm.refl
      · rw [if_neg hu.symm]
        apply ((ih hus).cons u).trans (List.Perm.swap t u us)

theorem fst_insertAll_cons :
  (r.insertAll (t :: ts)).1 = ((r.insert t).insertAll ts).1
  := by
  simp only [insertAll]
  cases r.lookup t.code
  · rfl
  · rfl

/-- Templates with codes of their own are all put among the others. -/
theorem perm_insertAll (hnodup : (ts.map (·.code)).Nodup)
    (hnew : ∀ t ∈ ts, ∀ u ∈ r.templates, u.code ≠ t.code) :
  (r.insertAll ts).1.templates.Perm (ts ++ r.templates)
  := by
  induction ts generalizing r with
  | nil => apply List.Perm.refl
  | cons t ts ih =>
      obtain ⟨ht, hts⟩ := List.forall_mem_cons.mp hnew
      obtain ⟨hfresh, hnodup⟩ := List.nodup_cons.mp hnodup
      have hplace : (r.insert t).templates.Perm (t :: r.templates) := perm_place ht
      have hnext : ∀ s ∈ ts, ∀ u ∈ (r.insert t).templates, u.code ≠ s.code := by
        intro s hs u hu
        rcases List.mem_cons.mp (hplace.mem_iff.mp hu) with rfl | hu
        · intro h
          apply hfresh (List.mem_map.mpr ⟨s, hs, h.symm⟩)
        · apply hts s hs u hu
      rw [fst_insertAll_cons]
      apply (ih hnodup hnext).trans
      apply (hplace.append_left ts).trans List.perm_middle

/-- Templates with distinct codes make the same registry in every order. -/
theorem ofTemplates_eq_of_perm (h : ts.Perm us) (hnodup : (ts.map (·.code)).Nodup) :
  (ofTemplates ts).1 = (ofTemplates us).1
  := by
  apply eq_of_perm
  have hts := perm_insertAll (r := empty) hnodup (by simp [empty])
  have hus := perm_insertAll (r := empty) ((h.map _).nodup_iff.mp hnodup) (by simp [empty])
  apply hts.trans
  rw [show empty.templates = [] from rfl, List.append_nil] at hus ⊢
  apply h.trans hus.symm

/-! ### The order of trying -/

theorem precedes_iff :
  s.precedes t = true ↔
    t.arity < s.arity ∨ s.arity = t.arity ∧ (t.literalLength < s.literalLength
      ∨ s.literalLength = t.literalLength ∧ s.code < t.code)
  := by
  simp [Template.precedes]

theorem not_precedes_self (t : Template) :
  ¬ t.precedes t = true
  := by
  rw [precedes_iff]
  omega

/-- No template is tried after a template that it precedes. -/
theorem pairwise_bySpecificity (r : Registry) :
  r.bySpecificity.Pairwise fun s t => ¬ t.precedes s = true
  := by
  have hsorted : r.bySpecificity.Pairwise fun s t => (!t.precedes s) = true := by
    apply List.pairwise_mergeSort
    · intro s t u hst htu
      simp only [Bool.not_eq_true', Bool.eq_false_iff, ne_eq, precedes_iff] at hst htu ⊢
      omega
    · intro s t
      simp only [Bool.or_eq_true, Bool.not_eq_true', Bool.eq_false_iff, ne_eq, precedes_iff]
      omega
  apply hsorted.imp
  intro s t h
  simpa using h

theorem mem_bySpecificity :
  t ∈ r.bySpecificity ↔ t ∈ r.templates
  := List.mem_mergeSort

/-- A template that precedes another is tried before it. -/
theorem sublist_bySpecificity (hs : s ∈ r.templates) (ht : t ∈ r.templates)
    (h : s.precedes t = true) :
  [s, t].Sublist r.bySpecificity
  := by
  obtain ⟨before, after, hsplit⟩ := List.append_of_mem (mem_bySpecificity.mpr hs)
  have hsorted := r.pairwise_bySpecificity
  rw [hsplit, List.pairwise_append] at hsorted
  have ht' := mem_bySpecificity.mpr ht
  rw [hsplit, List.mem_append, List.mem_cons] at ht'
  rw [hsplit]
  rcases ht' with ht' | rfl | ht'
  · apply absurd h (hsorted.2.2 t ht' s List.mem_cons_self)
  · apply absurd h (not_precedes_self t)
  · apply List.Sublist.trans _ (List.sublist_append_right before _)
    apply List.Sublist.cons_cons s (List.singleton_sublist.mpr ht')

/-- Of two templates of a registry one precedes the other. -/
theorem precedes_or_precedes (hs : s ∈ r.templates) (ht : t ∈ r.templates) (hne : s ≠ t) :
  s.precedes t = true ∨ t.precedes s = true
  := by
  have hcode : s.code ≠ t.code := fun h => hne (eq_of_code_eq hs ht h)
  rw [precedes_iff, precedes_iff]
  omega

end Registry

end Diagnostics
