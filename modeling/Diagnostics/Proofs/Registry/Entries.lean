import Diagnostics.Proofs.Registry.Order
import Diagnostics.Proofs.Template.Segments

/-!
# Templates of entries

A table of messages whose codes are distinct gives a registry of exactly the templates of its
entries.  An entry has a template when its pattern does not break a rule.
-/

namespace Diagnostics

namespace Registry

variable {e : Entry} {es : List Entry} {t : Template}

theorem Entry.of_template_eq_some (h : e.template.1 = some t) :
  t.code = e.code ∧ t.pattern = e.pattern
  := by
  rw [template] at h
  split at h
  case h_1 u hu =>
      obtain rfl := Option.some.inj h
      apply Template.of_ofPattern_eq_ok hu
  case h_2 => cases h

/-- An entry whose pattern breaks no rule has a template. -/
theorem Entry.exists_template
    (h : Template.fault? e.code (Segment.ofText e.pattern) = none) :
  ∃ t, e.template.1 = some t
  := by
  obtain ⟨t, ht⟩ := Template.exists_ofPattern h
  rw [template, ht]
  exact ⟨_, rfl⟩

theorem codes_sublist (es : List Entry) :
  ((es.filterMap (·.template.1)).map (·.code)).Sublist (es.map (·.code))
  := by
  induction es with
  | nil => apply List.Sublist.refl
  | cons e es ih =>
      cases ht : e.template.1 with
      | none =>
          rw [List.filterMap_cons, ht]
          apply ih.cons
      | some t =>
          rw [List.filterMap_cons, ht, List.map_cons, List.map_cons,
            (Entry.of_template_eq_some ht).1]
          apply ih.cons_cons

/-- The registry of entries with distinct codes holds the templates of the entries. -/
theorem mem_ofTable_iff (hnodup : (es.map (·.code)).Nodup) :
  t ∈ (ofTable es).templates ↔ ∃ e ∈ es, e.template.1 = some t
  := by
  have hperm := perm_insertAll (r := empty) (hnodup.sublist (codes_sublist es)) (by simp [empty])
  rw [ofTable, ofEntries, List.filterMap_map]
  apply hperm.mem_iff.trans
  rw [empty, List.append_nil, List.mem_filterMap]

end Registry

end Diagnostics
