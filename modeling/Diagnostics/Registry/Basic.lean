import Diagnostics.Notice
import Diagnostics.Template.Basic

/-!
# Registries

A registry holds at most one template for each code, in ascending order of codes.  Of several
templates with one code the last one given stays; `ofTemplates` reports each template that had
to give way.
-/

namespace Diagnostics

/-- The known templates. -/
@[ext]
structure Registry where
  /-- The templates in ascending order of their codes. -/
  templates : List Template
  ascending : templates.Pairwise fun s t => s.code < t.code

namespace Registry

/-- The registry without templates. -/
def empty : Registry := ⟨[], .nil⟩

instance : Inhabited Registry := ⟨empty⟩

/-- The template of a code. -/
def lookup (r : Registry) (code : Nat) : Option Template :=
  r.templates.find? fun t => t.code = code

/-- The number of templates. -/
def size (r : Registry) : Nat := r.templates.length

/-- A template put among templates in ascending order, in place of the one with its code. -/
def place (t : Template) : List Template → List Template
  | [] => [t]
  | u :: us =>
    if t.code < u.code then
      t :: u :: us
    else if t.code = u.code then
      t :: us
    else
      u :: place t us

theorem mem_place {t s : Template} {us : List Template} (h : s ∈ place t us) :
  s = t ∨ s ∈ us
  := by
  induction us with
  | nil => simpa [place] using h
  | cons u us ih =>
    simp only [place] at h
    split at h
    · simpa using h
    · split at h
      · rcases List.mem_cons.1 h with rfl | h
        · exact .inl rfl
        · exact .inr (List.mem_cons_of_mem _ h)
      · rcases List.mem_cons.1 h with rfl | h
        · exact .inr (List.mem_cons_self ..)
        · exact (ih h).imp_right (List.mem_cons_of_mem _)

theorem pairwise_place (t : Template) {us : List Template}
    (h : us.Pairwise fun s t => s.code < t.code) :
  (place t us).Pairwise fun s t => s.code < t.code
  := by
  induction us with
  | nil => simp [place]
  | cons u us ih =>
    rw [List.pairwise_cons] at h
    obtain ⟨hu, hus⟩ := h
    simp only [place]
    split
    · rename_i hlt
      refine .cons (fun s hs => ?_) (.cons hu hus)
      rcases List.mem_cons.1 hs with rfl | hs
      · exact hlt
      · exact Nat.lt_trans hlt (hu s hs)
    · split
      · rename_i heq
        exact .cons (fun s hs => heq ▸ hu s hs) hus
      · refine .cons (fun s hs => ?_) (ih hus)
        rcases mem_place hs with rfl | hs
        · omega
        · exact hu s hs

/-- A registry with one more template, in place of the one with its code. -/
def insert (r : Registry) (t : Template) : Registry :=
  ⟨place t r.templates, pairwise_place t r.ascending⟩

/-- Something to tell about the entries of a registry. -/
inductive Warning where
  /-- A template gave way to a later one with its code. -/
  | replaced (previous : Template)
  /-- An entry names no category and counts as an error. -/
  | unknownCategory (code : Nat) (name : String)
  /-- An entry is no template and is left out. -/
  | invalidTemplate (code : Nat) (error : TemplateError)
  deriving DecidableEq

/-- What a warning says. -/
def Warning.notice : Warning → Notice
  | replaced previous =>
    ⟨"Duplicate template code replaced",
      [("code", Nat.toDigits 10 previous.code), ("pattern", previous.pattern)]⟩
  | unknownCategory code name =>
    ⟨"Unknown category, assuming Error",
      [("code", Nat.toDigits 10 code), ("reason", (Category.unknownMessage name).toList)]⟩
  | invalidTemplate code error =>
    ⟨"Skipping invalid template",
      [("code", Nat.toDigits 10 code), ("err", error.message.toList)]⟩

/-- A registry with more templates, and the templates that gave way. -/
def insertAll (r : Registry) : List Template → Registry × List Warning
  | [] => (r, [])
  | t :: ts =>
    let (r', warnings) := (r.insert t).insertAll ts
    match r.lookup t.code with
    | some previous => (r', .replaced previous :: warnings)
    | none => (r', warnings)

/-- The registry of a list of templates, and the templates that gave way. -/
def ofTemplates (ts : List Template) : Registry × List Warning := empty.insertAll ts

/-- An entry of a table of messages, not yet checked. -/
structure Entry where
  pattern : Text
  category : String
  code : Nat
  deriving DecidableEq, Repr

/-- The template of an entry, and what there is to tell about it.  The category is looked at
before the pattern. -/
def Entry.template (e : Entry) : Option Template × List Warning :=
  let category := Category.ofName? e.category
  let unknown := if category.isNone then [.unknownCategory e.code e.category] else []
  match Template.ofPattern e.code e.pattern with
  | .ok t => (some (t.withCategory (category.getD .error)), unknown)
  | .error error => (none, unknown ++ [.invalidTemplate e.code error])

/-- The registry of a table of messages.  All entries are checked before any of them is put
into the registry. -/
def ofEntries (es : List Entry) : Registry × List Warning :=
  let checked := es.map Entry.template
  let (r, replaced) := ofTemplates (checked.filterMap (·.1))
  (r, checked.flatMap (·.2) ++ replaced)

/-- The registry of a table of messages, without what there is to tell about it. -/
def ofTable (es : List Entry) : Registry := (ofEntries es).1

end Registry

end Diagnostics
