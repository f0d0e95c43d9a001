import Diagnostics.Json.Writer
import Mathlib.Data.List.Basic

/-!
# What JSON stands for

An object is written as a list of members, and it stands for a map from names to values: the order
of its members makes no difference, and of several members with one name the last one counts.  Two
written values stand for the same one when their `value` is the same.  Where the names of an object
are distinct, every member of it can be read off what it stands for.
-/

namespace Diagnostics

namespace Json

/-- What a written value stands for. -/
inductive Value where
  | null
  | number (n : Nat)
  | string (s : Text)
  | array (elements : List Value)
  /-- An object, as the value of each name that it has. -/
  | object (member? : Text → Option Value)

mutual

/-- What a value stands for. -/
def value : Json → Value
  | null => .null
  | number n => .number n
  | string s => .string s
  | array elements => .array (values elements)
  | object members => .object (member? members)

/-- What the elements of an array stand for. -/
def values : List Json → List Value
  | [] => []
  | j :: js => value j :: values js

/-- What the last member with a name stands for. -/
def member? : List (Text × Json) → Text → Option Value
  | [], _ => none
  | (n, j) :: ms, name => (member? ms name).or (if n = name then some (value j) else none)

end

variable {ms ns : List (Text × Json)} {name : Text} {j k : Json}

theorem values_eq_map (js : List Json) :
  values js = js.map value
  := by
  induction js with
  | nil => rfl
  | cons j js ih => rw [values, ih, List.map_cons]

theorem member?_eq_none_iff :
  member? ms name = none ↔ name ∉ ms.map Prod.fst
  := by
  induction ms with
  | nil => simp [member?]
  | cons m ms ih =>
      obtain ⟨n, j⟩ := m
      rw [member?, Option.or_eq_none_iff, ih, List.map_cons, List.mem_cons, not_or, and_comm]
      simp [eq_comm]

/-- A member counts when no other one has its name. -/
theorem member?_of_mem (hnames : (ms.map Prod.fst).Nodup) (h : (name, j) ∈ ms) :
  member? ms name = some j.value
  := by
  induction ms with
  | nil => cases h
  | cons m ms ih =>
      rw [List.map_cons, List.nodup_cons] at hnames
      rcases List.mem_cons.mp h with rfl | hrest
      · rw [member?, member?_eq_none_iff.mpr hnames.1, Option.none_or, if_pos rfl]
      · obtain ⟨n, i⟩ := m
        rw [member?, ih hnames.2 hrest, Option.some_or]

/-- Of two objects that stand for the same map, the members with one name stand for the same. -/
theorem value_eq_of_mem (h : (object ms).value = (object ns).value)
    (hms : (ms.map Prod.fst).Nodup) (hns : (ns.map Prod.fst).Nodup) (name : Text)
    (hj : (name, j) ∈ ms) (hk : (name, k) ∈ ns) :
  j.value = k.value
  := by
  have hname := congrFun (Value.object.inj h) name
  rw [member?_of_mem hms hj, member?_of_mem hns hk] at hname
  exact Option.some.inj hname

end Json

end Diagnostics
