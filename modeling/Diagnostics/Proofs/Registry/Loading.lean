import Diagnostics.Proofs.Matching.Account
import Diagnostics.Proofs.Registry.Order
import Diagnostics.Registry.Reader
import Mathlib.Data.Finset.Card
import Mathlib.Data.List.Induction

/-!
# What a table of messages comes to

A registry that is read from a table of messages holds, for each code, the template of the last
entry with this code that offers one.  An entry whose pattern breaks a rule never takes the place of
another one.  What there is to tell is told entry by entry, and behind it which templates gave way.
-/

namespace Diagnostics

namespace Registry

/-- The template that an entry offers, if its pattern breaks no rule.  An entry that names no
category offers an error. -/
def Entry.offered? (e : Entry) : Option Template :=
  (Template.ofPattern e.code e.pattern).toOption.map
    (·.withCategory ((Category.ofName? e.category).getD .error))

/-- What there is to tell about an entry by itself. -/
def Entry.complaints (e : Entry) : List Warning :=
  (if Category.ofName? e.category = none then [.unknownCategory e.code e.category] else [])
    ++ match Template.ofPattern e.code e.pattern with
      | .ok _ => []
      | .error error => [.invalidTemplate e.code error]

/-- The template of the last entry with a code that offers one. -/
def latest? (es : List Entry) (code : Nat) : Option Template :=
  es.findSomeRev? fun e => if e.code = code then e.offered? else none

/-- The template that gives way to the entry at a place, if this offers one: the latest one with its
code among the entries before it. -/
def displacedAt? (es : List Entry) (n : Nat) : Option Template :=
  es[n]?.bind fun e => e.offered?.bind fun _ => latest? (es.take n) e.code

/-- The templates that give way, in the order of the entries that take their codes. -/
def displaced (es : List Entry) : List Template :=
  (List.range es.length).filterMap (displacedAt? es)

/-- A text is read as a JSON object whose members are these entries, in the order in which they are
written. -/
def Lists (json : Text → Option Json.Term) (content : Text) (written : List Entry) : Prop :=
  ∃ term members, json content = some term ∧ term.members? = some members
    ∧ members.map (fun (pattern, record) => Entry.ofMember? pattern record) = written.map some

/-- Of the written entries there is one for each pattern, where the pattern is written first and as
it is written last. -/
structure Keeps (written es : List Entry) : Prop where
  map_pattern : es.map (·.pattern) = (written.map (·.pattern)).eraseDups
  last : ∀ e ∈ es, ∃ before after, written = before ++ e :: after
    ∧ ∀ f ∈ after, f.pattern ≠ e.pattern

variable {r : Registry} {t u : Template} {ts us : List Template} {e f : Entry}
  {es written : List Entry} {code : Nat} {codes : Finset Nat} {json : Text → Option Json.Term}
  {content : Text}

/-! ### Looking up after an insertion -/

theorem find?_place_self (t : Template) (us : List Template) :
  (place t us).find? (fun s => s.code = t.code) = some t
  := by
  induction us with
  | nil => simp [place]
  | cons u us ih =>
      rw [place]
      split
      · simp
      · split
        · simp
        · rename_i hne
          rw [List.find?_cons_of_neg (by simpa using Ne.symm hne), ih]

theorem find?_place_of_ne (us : List Template) (h : t.code ≠ code) :
  (place t us).find? (fun s => s.code = code) = us.find? fun s => s.code = code
  := by
  induction us with
  | nil => simp [place, h]
  | cons u us ih =>
      rw [place]
      split
      · rw [List.find?_cons_of_neg (by simpa using h)]
      · split
        · rename_i heq
          rw [List.find?_cons_of_neg (by simpa using h),
            List.find?_cons_of_neg (by simpa using heq ▸ h)]
        · rw [List.find?_cons, ih, List.find?_cons]

/-- An insertion changes what is found for one code. -/
theorem lookup_insert :
  (r.insert t).lookup code = if t.code = code then some t else r.lookup code
  := by
  split
  · rename_i heq
    subst heq
    apply find?_place_self
  · rename_i hne
    apply find?_place_of_ne r.templates hne

/-- Of a run of insertions the last one can be told apart. -/
theorem insertAll_append_singleton :
  r.insertAll (ts ++ [t])
    = ((r.insertAll ts).1.insert t,
        (r.insertAll ts).2 ++ ((r.insertAll ts).1.lookup t.code).toList.map .replaced)
  := by
  induction ts generalizing r with
  | nil =>
      simp only [List.nil_append, insertAll]
      cases r.lookup t.code with
      | none => rfl
      | some previous => rfl
  | cons s ts ih =>
      simp only [List.cons_append, insertAll, ih]
      cases r.lookup s.code with
      | none => rfl
      | some previous => rfl

/-! ### What an entry offers -/

theorem Entry.offered?_eq_some_iff :
  e.offered? = some t ↔ ∃ u, Template.ofPattern e.code e.pattern = .ok u
    ∧ t = u.withCategory ((Category.ofName? e.category).getD .error)
  := by
  rw [offered?]
  cases Template.ofPattern e.code e.pattern with
  | error error => simp [Except.toOption]
  | ok u => simp [Except.toOption, eq_comm]

theorem Entry.code_of_offered? (h : e.offered? = some t) :
  t.code = e.code
  := by
  obtain ⟨u, hu, rfl⟩ := offered?_eq_some_iff.mp h
  exact (Template.of_ofPattern_eq_ok hu).1

/-- An entry is checked for its template and for what there is to tell about it. -/
theorem Entry.template_eq (e : Entry) :
  e.template = (e.offered?, e.complaints)
  := by
  rw [template, offered?, complaints]
  cases Template.ofPattern e.code e.pattern with
  | error error => simp [Except.toOption]
  | ok u => simp [Except.toOption]

/-! ### The latest entry -/

theorem latest?_append_singleton (es : List Entry) (e : Entry) (code : Nat) :
  latest? (es ++ [e]) code
    = (if e.code = code then e.offered? else none).or (latest? es code)
  := by
  rw [latest?, latest?, List.findSomeRev?_eq_findSome?_reverse,
    List.findSomeRev?_eq_findSome?_reverse, List.reverse_append, List.findSome?_append]
  simp

theorem latest?_eq_some_iff :
  latest? es code = some t ↔ ∃ before e after, es = before ++ e :: after ∧ e.code = code
    ∧ e.offered? = some t ∧ ∀ f ∈ after, f.code = code → f.offered? = none
  := by
  rw [latest?, List.findSomeRev?_eq_findSome?_reverse, List.findSome?_eq_some_iff]
  simp only [Option.ite_none_right_eq_some, ite_eq_right_iff]
  constructor
  · rintro ⟨behind, e, front, hsplit, ⟨hcode, hoffered⟩, hbehind⟩
    use front.reverse, e, behind.reverse
    constructor
    · rw [List.reverse_eq_iff.mp hsplit]
      simp
    · refine ⟨hcode, hoffered, ?_⟩
      intro f hf
      apply hbehind f (List.mem_reverse.mp hf)
  · rintro ⟨before, e, after, rfl, hcode, hoffered, hafter⟩
    use after.reverse, e, before.reverse
    constructor
    · simp
    · refine ⟨⟨hcode, hoffered⟩, ?_⟩
      intro f hf
      apply hafter f (List.mem_reverse.mp hf)

theorem latest?_eq_none_iff :
  latest? es code = none ↔ ∀ e ∈ es, e.code = code → e.offered? = none
  := by
  rw [latest?, List.findSomeRev?_eq_findSome?_reverse, List.findSome?_eq_none_iff]
  simp only [List.mem_reverse, ite_eq_right_iff]

/-- What gives way to an entry has nothing to do with the entries behind it. -/
theorem displacedAt?_append (fs : List Entry) {n : Nat} (h : n < es.length) :
  displacedAt? (es ++ fs) n = displacedAt? es n
  := by
  rw [displacedAt?, displacedAt?, List.getElem?_append_left h,
    List.take_append_of_le_length h.le]

theorem displaced_append_singleton (es : List Entry) (e : Entry) :
  displaced (es ++ [e])
    = displaced es ++ (e.offered?.bind fun _ => latest? es e.code).toList
  := by
  have hbefore : ∀ n ∈ List.range es.length, displacedAt? (es ++ [e]) n = displacedAt? es n :=
    fun n hn => displacedAt?_append [e] (List.mem_range.mp hn)
  have hlast : displacedAt? (es ++ [e]) es.length
      = e.offered?.bind fun _ => latest? es e.code := by
    rw [displacedAt?, List.getElem?_concat_length, List.take_left]
    rfl
  rw [displaced, List.length_append, List.length_singleton, List.range_succ,
    List.filterMap_append, List.filterMap_congr hbefore, ← displaced, ← hlast]
  cases hdisplaced : displacedAt? (es ++ [e]) es.length with
  | none => rw [List.filterMap_cons_none hdisplaced]; rfl
  | some t => rw [List.filterMap_cons_some hdisplaced]; rfl

/-! ### Checked entries put into a registry -/

/-- After a run of insertions the latest entry is found for each code, and each template that gave
way to a later one is told about. -/
theorem insertAll_offered (es : List Entry) :
  (∀ code, (ofTemplates (es.filterMap Entry.offered?)).1.lookup code = latest? es code)
    ∧ (ofTemplates (es.filterMap Entry.offered?)).2 = (displaced es).map .replaced
  := by
  induction es using List.reverseRecOn with
  | nil => exact ⟨fun _ => rfl, rfl⟩
  | append_singleton es e ih =>
      obtain ⟨hlookup, hwarnings⟩ := ih
      rw [List.filterMap_append, displaced_append_singleton]
      cases hoffered : e.offered? with
      | none =>
          rw [List.filterMap_cons_none hoffered, List.filterMap_nil, List.append_nil]
          constructor
          · intro code
            rw [hlookup, latest?_append_singleton, hoffered, ite_self, Option.none_or]
          · rw [hwarnings, Option.bind_none, Option.toList_none, List.append_nil]
      | some t =>
          have hcode := Entry.code_of_offered? hoffered
          rw [List.filterMap_cons_some hoffered, List.filterMap_nil, ofTemplates,
            insertAll_append_singleton]
          rw [ofTemplates] at hlookup hwarnings
          constructor
          · intro code
            rw [lookup_insert, hlookup, latest?_append_singleton, hoffered, hcode]
            split <;> rfl
          · rw [hwarnings, hlookup, hcode, Option.bind_some, List.map_append]

theorem ofEntries_eq (es : List Entry) :
  ofEntries es = ((ofTemplates (es.filterMap Entry.offered?)).1,
    es.flatMap Entry.complaints ++ (displaced es).map .replaced)
  := by
  have htemplates : (es.map Entry.template).filterMap (·.1) = es.filterMap Entry.offered? := by
    rw [List.filterMap_map]
    apply List.filterMap_congr
    intro e _
    exact congrArg Prod.fst (Entry.template_eq e)
  have hcomplaints : (es.map Entry.template).flatMap (·.2) = es.flatMap Entry.complaints := by
    rw [List.flatMap_map]
    apply List.flatMap_congr
    intro e _
    exact congrArg Prod.snd (Entry.template_eq e)
  rw [ofEntries]
  dsimp only
  rw [htemplates, hcomplaints, (insertAll_offered es).2]

/-! ### Repeated patterns -/

theorem eraseDups_append_singleton (patterns : List Text) (pattern : Text) :
  (patterns ++ [pattern]).eraseDups
    = patterns.eraseDups ++ if pattern ∈ patterns then [] else [pattern]
  := by
  rw [List.eraseDups_append, List.removeAll]
  by_cases h : pattern ∈ patterns
  · simp [h]
  · simp [h, List.eraseDups_cons]

theorem map_pattern_put (e : Entry) (fs : List Entry) :
  (e.put fs).map (·.pattern)
    = fs.map (·.pattern) ++ if e.pattern ∈ fs.map (·.pattern) then [] else [e.pattern]
  := by
  induction fs with
  | nil => rfl
  | cons f fs ih =>
      rw [Entry.put]
      split
      · rename_i heq
        simp [heq]
      · rename_i hne
        simp only [List.map_cons, ih, List.cons_append, List.mem_cons, Ne.symm hne, false_or]

theorem mem_put {fs : List Entry} (hnodup : (fs.map (·.pattern)).Nodup) (h : f ∈ e.put fs) :
  f = e ∨ f ∈ fs ∧ f.pattern ≠ e.pattern
  := by
  induction fs with
  | nil => exact .inl (by simpa [Entry.put] using h)
  | cons g gs ih =>
      obtain ⟨hg, hgs⟩ := List.nodup_cons.mp hnodup
      rw [Entry.put] at h
      split at h
      · rename_i heq
        rcases List.mem_cons.mp h with rfl | h
        · exact .inl rfl
        · right
          use List.mem_cons_of_mem g h
          rw [← heq]
          intro hpattern
          apply hg (List.mem_map.mpr ⟨f, h, hpattern⟩)
      · rename_i hne
        rcases List.mem_cons.mp h with rfl | h
        · exact .inr ⟨List.mem_cons_self, hne⟩
        · rcases ih hgs h with rfl | ⟨hf, hpattern⟩
          · exact .inl rfl
          · exact .inr ⟨List.mem_cons_of_mem g hf, hpattern⟩

theorem nodup_map_pattern_put (e : Entry) {fs : List Entry}
    (h : (fs.map (·.pattern)).Nodup) :
  ((e.put fs).map (·.pattern)).Nodup
  := by
  rw [map_pattern_put]
  split
  · rw [List.append_nil]
    exact h
  · rename_i hfresh
    apply List.nodup_append.mpr ⟨h, List.nodup_singleton _, _⟩
    intro pattern hmem other hother heq
    obtain rfl := List.mem_singleton.mp hother
    apply hfresh (heq ▸ hmem)

/-- Entries that are put one after the other stay as they are written last, where their patterns are
written first. -/
theorem keeps_foldl_put (written : List Entry) :
  Keeps written (written.foldl (fun es e => e.put es) [])
    ∧ ((written.foldl (fun es e => e.put es) []).map (·.pattern)).Nodup
  := by
  induction written using List.reverseRecOn with
  | nil => exact ⟨⟨rfl, fun _ h => absurd h List.not_mem_nil⟩, List.nodup_nil⟩
  | append_singleton written e ih =>
      obtain ⟨⟨hpatterns, hlast⟩, hnodup⟩ := ih
      rw [List.foldl_append, List.foldl_cons, List.foldl_nil]
      constructor
      · constructor
        · rw [map_pattern_put, hpatterns, List.map_append, List.map_singleton,
            eraseDups_append_singleton]
          simp only [List.mem_eraseDups]
        · intro f hf
          rcases mem_put hnodup hf with rfl | ⟨hf, hpattern⟩
          · use written, []
            simp
          · obtain ⟨before, after, rfl, hafter⟩ := hlast f hf
            use before, after ++ [e]
            constructor
            · simp
            · intro g hg
              rcases List.mem_append.mp hg with hg | hg
              · apply hafter g hg
              · obtain rfl := List.mem_singleton.mp hg
                apply Ne.symm hpattern
      · apply nodup_map_pattern_put e hnodup

theorem Lists.entries?_eq (h : Lists json content written) :
  entries? json content = some (written.foldl (fun es e => e.put es) [])
  := by
  obtain ⟨term, members, hterm, hmembers, hwritten⟩ := h
  have hmapM := mapM_eq_some_iff.mpr hwritten
  simp only [entries?, hterm, hmembers, Option.bind_eq_bind, Option.bind_some, hmapM]
  rfl

/-! ### The registry -/

/-- A registry has as many templates as there are codes for which it has one. -/
theorem size_eq_card (h : ∀ code, (r.lookup code).isSome = true ↔ code ∈ codes) :
  r.size = codes.card
  := by
  have hcodes : (r.templates.map (·.code)).toFinset = codes := by
    ext code
    rw [List.mem_toFinset, List.mem_map, ← h, lookup, List.find?_isSome]
    simp
  rw [← hcodes, List.toFinset_card_of_nodup r.nodup_codes, List.length_map, size]

/-- A registry that is read from a table of messages keeps, of all entries with a code, the last one
that offers a template, so that an entry without one takes nobody's place.  Its templates ascend by
their codes and are the ones that are found.  What there is to tell about each entry by itself comes
first, entry by entry, and then each template that gave way to a later one, in the order in which
they did.  All this holds however a text is read as a JSON term. -/
theorem ofJson?_keeps_latest (h : Lists json content written) :
  ∃ es r warnings, Keeps written es ∧ ofJson? json content = some (r, warnings)
    ∧ (∀ code t, r.lookup code = some t ↔ ∃ before e after, es = before ++ e :: after
      ∧ e.code = code ∧ e.offered? = some t ∧ ∀ f ∈ after, f.code = code → f.offered? = none)
    ∧ (∀ code, r.lookup code = none ↔ ∀ e ∈ es, e.code = code → e.offered? = none)
    ∧ (r.templates.Pairwise fun s t => s.code < t.code)
    ∧ (∀ t, t ∈ r.templates ↔ r.lookup t.code = some t)
    ∧ r.size = ((es.filter (·.offered?.isSome)).map (·.code)).toFinset.card
    ∧ warnings = es.flatMap Entry.complaints ++ (displaced es).map .replaced
  := by
  have hes : ofJson? json content = some (ofEntries (written.foldl (fun es e => e.put es) [])) := by
    rw [ofJson?, h.entries?_eq, Option.map_some]
  obtain ⟨hkeeps, -⟩ := keeps_foldl_put written
  generalize written.foldl (fun es e => e.put es) [] = es at hes hkeeps
  rw [ofEntries_eq] at hes
  obtain ⟨hlookup, -⟩ := insertAll_offered es
  generalize (ofTemplates (es.filterMap Entry.offered?)).1 = r at hes hlookup
  refine ⟨es, r, _, hkeeps, hes, ?_, ?_, r.ascending, ?_, ?_, rfl⟩
  · intro code t
    rw [hlookup]
    apply latest?_eq_some_iff
  · intro code
    rw [hlookup]
    apply latest?_eq_none_iff
  · intro t
    use lookup_eq_some_of_mem
    apply List.mem_of_find?_eq_some
  · apply size_eq_card
    intro code
    rw [hlookup, List.mem_toFinset, List.mem_map, ← not_iff_not, Bool.not_eq_true,
      Option.isSome_eq_false_iff, Option.isNone_iff_eq_none, latest?_eq_none_iff]
    simp only [List.mem_filter, Option.isSome_iff_ne_none]
    constructor
    · rintro hnone ⟨e, ⟨he, hoffered⟩, hcode⟩
      apply hoffered (hnone e he hcode)
    · intro hnone e he hcode
      by_contra hoffered
      apply hnone ⟨e, ⟨he, hoffered⟩, hcode⟩

/-- The entry with code 1 that breaks a rule takes nobody's place, and the pattern that is repeated
stands first with code 2, which another entry takes. -/
theorem ofJson?_keeps_latest_repeated :
  let content := ("\x7b\"A\":[\"Error\",1],\"B\":[\"?\",1],\"{1}\":[\"Error\",1],".toList
    ++ "\"A\":[\"Message\",2],\"C\":[\"Warning\",2]\x7d".toList)
  let written : List Entry :=
    [⟨"A".toList, "Error", 1⟩, ⟨"B".toList, "?", 1⟩, ⟨"{1}".toList, "Error", 1⟩,
      ⟨"A".toList, "Message", 2⟩, ⟨"C".toList, "Warning", 2⟩]
  let a : Template := ⟨2, .message, "A".toList, [.literal "A".toList], by decide, by decide⟩
  let b : Template := ⟨1, .error, "B".toList, [.literal "B".toList], by decide, by decide⟩
  Lists Json.Term.ofText? content written ∧ ∃ es r warnings, Keeps written es
    ∧ ofJson? Json.Term.ofText? content = some (r, warnings)
    ∧ r.lookup 1 = some b ∧ b ∈ r.templates
    ∧ warnings = [.unknownCategory 1 "?", .invalidTemplate 1 (.notContiguous 1 0), .replaced a]
  := by
  intro content written a b
  have hentries : ((Json.Term.ofText? content).bind (·.members?)).map
      (fun members => members.map fun (pattern, record) => Entry.ofMember? pattern record)
        = some (written.map some) := by decide +kernel
  have hread : (ofJson? Json.Term.ofText? content).map (fun result => (result.1.lookup 1, result.2))
      = some (some b,
        [.unknownCategory 1 "?", .invalidTemplate 1 (.notContiguous 1 0), .replaced a]) := by
    decide +kernel
  obtain ⟨members, hmembers, hwritten⟩ := Option.map_eq_some_iff.mp hentries
  obtain ⟨term, hterm, hmembers⟩ := Option.bind_eq_some_iff.mp hmembers
  have hlists : Lists Json.Term.ofText? content written :=
    ⟨term, members, hterm, hmembers, hwritten⟩
  obtain ⟨es, r, warnings, hkeeps, hr, -, -, -, hmem, -⟩ := ofJson?_keeps_latest hlists
  rw [hr, Option.map_some, Option.some_inj, Prod.mk.injEq] at hread
  obtain ⟨hlookup, hwarnings⟩ := hread
  exact ⟨hlists, es, r, warnings, hkeeps, hr, hlookup, (hmem b).mpr hlookup, hwarnings⟩

end Registry

end Diagnostics
