import Diagnostics.Finding
import Diagnostics.Proofs.Json.Value
import Mathlib.Data.List.Nodup

/-!
# Nothing of a finding is lost

The names under which the items of a finding are reported come from two sources: the first ten are
ordinals, the others are made of `item` and a number.  No two items share a name, since no ordinal is
made of `item` and a number, and no item has the name of another member.  So the JSON of a finding
says which items there are and in which order, although an object has no order and does not say how
many items it reports.  It says everything else about the finding too, also which of the two shapes
it has.
-/

namespace Diagnostics

namespace ParseInfo

variable {name : String} {info other : ParseInfo}

/-! ### Names of items -/

/-- A name that is made of `item` and digits. -/
def IsNumbered (name : Text) : Prop :=
  "item".toList <+: name ∧ (name.drop 4).all Char.isDigit = true

instance : DecidablePred IsNumbered := fun _ => inferInstanceAs (Decidable (_ ∧ _))

theorem ne_numbered (h : ¬ IsNumbered name.toList) (n : Nat) :
  name.toList ≠ "item".toList ++ Nat.toDigits 10 n
  := by
  intro hname
  apply h
  rw [hname]
  use List.prefix_append _ _
  rw [List.drop_append_of_le_length (by decide), List.all_eq_true]
  intro c hc
  apply Nat.isDigit_of_mem_toDigits (by decide) (by decide) hc

theorem not_isNumbered_of_getElem? {i : Nat} (h : ordinalNames[i]? = some name) :
  ¬ IsNumbered name.toList
  := by
  have hordinals : ∀ name ∈ ordinalNames, ¬ IsNumbered name.toList := by decide
  apply hordinals name (List.mem_of_getElem? h)

/-- An item is named by an ordinal, or by its number. -/
theorem itemName_cases (i : Nat) :
  (∃ name, ordinalNames[i]? = some name ∧ itemName i = name.toList)
    ∨ itemName i = "item".toList ++ Nat.toDigits 10 (i + 1)
  := by
  rw [itemName]
  cases h : ordinalNames[i]? with
  | some name => exact .inl ⟨name, rfl, rfl⟩
  | none => exact .inr rfl

theorem itemName_ne (hordinal : name ∉ ordinalNames) (hnumbered : ¬ IsNumbered name.toList)
    (i : Nat) :
  itemName i ≠ name.toList
  := by
  intro h
  rcases itemName_cases i with ⟨ordinal, hi, hname⟩ | hname
  · rw [hname] at h
    apply hordinal
    rw [← String.toList_injective h]
    apply List.mem_of_getElem? hi
  · rw [hname] at h
    apply ne_numbered hnumbered _ h.symm

/-- The names of the members that do not report a single item, in either shape. -/
def fixedNames : List String := ["startIndex", "endIndex", "items"]

theorem itemName_ne_of_mem (h : name ∈ fixedNames) (i : Nat) :
  itemName i ≠ name.toList
  := by
  have hfixed : ∀ name ∈ fixedNames, name ∉ ordinalNames ∧ ¬ IsNumbered name.toList := by decide
  apply itemName_ne (hfixed name h).1 (hfixed name h).2

theorem not_mem_map_itemName (h : name ∈ fixedNames) (is : List Nat) :
  name.toList ∉ is.map itemName
  := by
  intro hmem
  obtain ⟨i, -, hi⟩ := List.mem_map.mp hmem
  apply itemName_ne_of_mem h i hi

/-- No two items share a name. -/
theorem itemName_injective :
  Function.Injective itemName
  := by
  intro i j h
  rcases itemName_cases i with ⟨name, hi, hname⟩ | hname
  · rcases itemName_cases j with ⟨other, hj, hother⟩ | hother
    · rw [hname, hother] at h
      obtain ⟨hlt, -⟩ := List.getElem?_eq_some_iff.mp hi
      apply (List.getElem?_inj hlt (by decide)).mp
      rw [hi, hj, String.toList_injective h]
    · rw [hname, hother] at h
      apply absurd h (ne_numbered (not_isNumbered_of_getElem? hi) _)
  · rcases itemName_cases j with ⟨other, hj, hother⟩ | hother
    · rw [hname, hother] at h
      apply absurd h.symm (ne_numbered (not_isNumbered_of_getElem? hj) _)
    · rw [hname, hother] at h
      have hvalue := congrArg (Nat.ofDigitChars 10 · 0) (List.append_cancel_left h)
      simp only [Nat.ofDigitChars_ten_toDigits] at hvalue
      exact Nat.succ.inj hvalue

/-! ### Members of a parse information -/

/-- The members of a parse information. -/
def members (info : ParseInfo) : List (Text × Json) :=
  ("startIndex".toList, .number info.startIndex) :: ("endIndex".toList, .number info.endIndex)
    :: info.itemMembers

theorem toJson_eq (info : ParseInfo) :
  info.toJson = .object info.members
  := rfl

theorem names_members (info : ParseInfo) :
  info.members.map Prod.fst = "startIndex".toList :: "endIndex".toList ::
    if info.legacyItemFields then (List.range info.items.length).map itemName
    else ["items".toList]
  := by
  rw [members, itemMembers, List.map_cons, List.map_cons]
  congr 2
  split
  · apply List.ext_getElem
    · simp
    · simp
  · rfl

/-- The members of a parse information have distinct names. -/
theorem nodup_names (info : ParseInfo) :
  (info.members.map Prod.fst).Nodup
  := by
  rw [names_members]
  split
  · rw [List.nodup_cons, List.nodup_cons, List.mem_cons, not_or]
    constructor
    · exact ⟨by decide, not_mem_map_itemName (by decide) _⟩
    · exact ⟨not_mem_map_itemName (by decide) _, List.nodup_range.map itemName_injective⟩
  · decide

/-- Ten items have names without a number. -/
example :
  (members ⟨0, 92, List.replicate 11 [], true⟩).map Prod.fst = ["startIndex", "endIndex",
    "firstItem", "secondItem", "thirdItem", "fourthItem", "fifthItem", "sixthItem", "seventhItem",
    "eighthItem", "ninthItem", "tenthItem", "item11"].map String.toList
  := by decide

/-- The list of the items is a member in one of the shapes only. -/
theorem member?_items (info : ParseInfo) :
  Json.member? info.members "items".toList
    = if info.legacyItemFields then none else some (.array (info.items.map .string))
  := by
  split
  · rename_i h
    rw [Json.member?_eq_none_iff, names_members, if_pos h, List.mem_cons, List.mem_cons, not_or,
      not_or]
    exact ⟨by decide, by decide, not_mem_map_itemName (by decide) _⟩
  · rename_i h
    have hmem : ("items".toList, .array (info.items.map .string)) ∈ info.members := by
      rw [members, itemMembers, if_neg h]
      simp
    rw [Json.member?_of_mem info.nodup_names hmem, Json.value, Json.values_eq_map, List.map_map]
    rfl

/-- In the other shape an item is the member with its name, and there is no member for an index
past the last item. -/
theorem member?_itemName (h : info.legacyItemFields = true) (i : Nat) :
  Json.member? info.members (itemName i) = info.items[i]?.map .string
  := by
  cases hi : info.items[i]? with
  | none =>
      rw [Option.map_none, Json.member?_eq_none_iff, names_members, if_pos h, List.mem_cons,
        List.mem_cons, not_or, not_or, List.mem_map_of_injective itemName_injective, List.mem_range,
        Nat.not_lt, ← List.getElem?_eq_none_iff]
      exact ⟨itemName_ne_of_mem (by decide) i, itemName_ne_of_mem (by decide) i, hi⟩
  | some item =>
      have hmem : (itemName i, .string item) ∈ info.members := by
        obtain ⟨hlt, rfl⟩ := List.getElem?_eq_some_iff.mp hi
        rw [members, itemMembers, if_pos h]
        apply List.mem_cons_of_mem _ (List.mem_cons_of_mem _ (List.mem_mapIdx.mpr ⟨i, hlt, rfl⟩))
      rw [Json.member?_of_mem info.nodup_names hmem]
      rfl

theorem isNone_member?_items (info : ParseInfo) :
  (Json.member? info.members "items".toList).isNone = info.legacyItemFields
  := by
  rw [member?_items]
  cases info.legacyItemFields with
  | true => rfl
  | false => rfl

/-- The shape can be read off the members, and so can the items. -/
theorem items_eq_of_member? (h : Json.member? info.members = Json.member? other.members) :
  info.legacyItemFields = other.legacyItemFields ∧ info.items = other.items
  := by
  have hshape : info.legacyItemFields = other.legacyItemFields := by
    rw [← isNone_member?_items, h, isNone_member?_items]
  use hshape
  cases hinfo : info.legacyItemFields with
  | true =>
      apply List.ext_getElem?
      intro i
      have hitem := congrFun h (itemName i)
      rw [member?_itemName hinfo, member?_itemName (hshape ▸ hinfo)] at hitem
      apply Option.map_injective (fun s t => Json.Value.string.inj) hitem
  | false =>
      have hitems := congrFun h "items".toList
      rw [member?_items, member?_items, ← hshape, hinfo] at hitems
      have hmap := Json.Value.array.inj (Option.some.inj hitems)
      apply List.map_injective_iff.mpr (fun s t => Json.Value.string.inj) hmap

/-- A parse information can be read off its JSON. -/
theorem eq_of_value_toJson (h : info.toJson.value = other.toJson.value) :
  info = other
  := by
  obtain ⟨hshape, hitems⟩ := items_eq_of_member? (Json.Value.object.inj h)
  have hstart : (Json.number info.startIndex).value = (Json.number other.startIndex).value :=
    Json.value_eq_of_mem h info.nodup_names other.nodup_names "startIndex".toList
      (by simp) (by simp)
  have hstop : (Json.number info.endIndex).value = (Json.number other.endIndex).value :=
    Json.value_eq_of_mem h info.nodup_names other.nodup_names "endIndex".toList
      (by simp) (by simp)
  cases info
  cases other
  rw [mk.injEq]
  exact ⟨Json.Value.number.inj hstart, Json.Value.number.inj hstop, hitems, hshape⟩

end ParseInfo

namespace Explanation

variable {e other : Explanation}

/-- The members of an explanation. -/
def members (e : Explanation) : List (Text × Json) :=
  [("body".toList, .string e.body), ("excerpt".toList, .string e.excerpt)]

theorem nodup_names (e : Explanation) :
  (e.members.map Prod.fst).Nodup
  := by
  rw [show e.members.map Prod.fst = ["body", "excerpt"].map String.toList from rfl]
  decide

/-- An explanation can be read off its JSON. -/
theorem eq_of_value_toJson (h : e.toJson.value = other.toJson.value) :
  e = other
  := by
  have hbody : (Json.string e.body).value = (Json.string other.body).value :=
    Json.value_eq_of_mem h e.nodup_names other.nodup_names "body".toList
      (by simp) (by simp)
  have hexcerpt : (Json.string e.excerpt).value = (Json.string other.excerpt).value :=
    Json.value_eq_of_mem h e.nodup_names other.nodup_names "excerpt".toList
      (by simp) (by simp)
  cases e
  cases other
  rw [mk.injEq]
  exact ⟨Json.Value.string.inj hbody, Json.Value.string.inj hexcerpt⟩

/-- That there is no explanation can be read off too. -/
theorem eq_of_value_elim {e other : Option Explanation}
    (h : (e.elim .null toJson).value = (other.elim .null toJson).value) :
  e = other
  := by
  cases e with
  | none =>
      cases other with
      | none => rfl
      | some other => cases h
  | some e =>
      cases other with
      | none => cases h
      | some other => rw [eq_of_value_toJson h]

end Explanation

namespace Finding

variable {f other : Finding}

/-- The members of a finding. -/
def members (f : Finding) : List (Text × Json) :=
  [("code".toList, .number f.code), ("error".toList, .string f.error),
    ("improvedError".toList, f.improvedError.elim .null Explanation.toJson),
    ("parseInfo".toList, f.parseInfo.toJson)]

theorem nodup_names (f : Finding) :
  (f.members.map Prod.fst).Nodup
  := by
  rw [show f.members.map Prod.fst
    = ["code", "error", "improvedError", "parseInfo"].map String.toList from rfl]
  decide

/-- A finding can be read off its JSON. -/
theorem eq_of_value_toJson (h : f.toJson.value = other.toJson.value) :
  f = other
  := by
  have hcode : (Json.number f.code).value = (Json.number other.code).value :=
    Json.value_eq_of_mem h f.nodup_names other.nodup_names "code".toList
      (by simp) (by simp)
  have herror : (Json.string f.error).value = (Json.string other.error).value :=
    Json.value_eq_of_mem h f.nodup_names other.nodup_names "error".toList
      (by simp) (by simp)
  have himproved := Json.value_eq_of_mem h f.nodup_names other.nodup_names
    "improvedError".toList (j := f.improvedError.elim .null Explanation.toJson)
    (k := other.improvedError.elim .null Explanation.toJson) (by simp) (by simp)
  have hinfo : f.parseInfo.toJson.value = other.parseInfo.toJson.value :=
    Json.value_eq_of_mem h f.nodup_names other.nodup_names "parseInfo".toList
      (by simp) (by simp)
  cases f
  cases other
  rw [mk.injEq]
  exact ⟨Json.Value.number.inj hcode, Json.Value.string.inj herror,
    Explanation.eq_of_value_elim himproved, ParseInfo.eq_of_value_toJson hinfo⟩

/-- The JSON of a finding loses nothing.  The names of its parse information are distinct, however
many items there are: no two indices give one name, and none gives that of an offset.  And two
findings have JSON that stands for the same just when they have the same code, pattern, explanation,
offsets, shape and items, these in the same order. -/
theorem toJson_faithful (f other : Finding) :
  (∃ members, f.parseInfo.toJson = .object members ∧ (members.map Prod.fst).Nodup)
    ∧ Function.Injective ParseInfo.itemName
    ∧ (∀ i, ParseInfo.itemName i ≠ "startIndex".toList ∧ ParseInfo.itemName i ≠ "endIndex".toList)
    ∧ (f.toJson.value = other.toJson.value ↔ f = other)
  := by
  constructor
  · use f.parseInfo.members, f.parseInfo.toJson_eq, f.parseInfo.nodup_names
  constructor
  · apply ParseInfo.itemName_injective
  constructor
  · intro i
    exact ⟨ParseInfo.itemName_ne_of_mem (by decide) i, ParseInfo.itemName_ne_of_mem (by decide) i⟩
  · constructor
    · apply eq_of_value_toJson
    · rintro rfl
      rfl

end Finding

end Diagnostics
