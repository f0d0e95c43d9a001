import Diagnostics.Proofs.Json.Spelling
import Mathlib.Data.List.DropRight
import Mathlib.Data.List.Forall2

/-!
# Reading what is written

A JSON value is read back from both of its written forms, with blanks behind it or without.  The
induction is on the value.  Texts that are read as values make up an array when they stand in a row
with commas between them, and texts that are read as members make up an object, whatever blanks
stand around them: the same lemmas hold for what is laid out in lines and for what is not.
-/

namespace Diagnostics

namespace Json

mutual

/-- The value that a term is, if it has no Booleans, its numbers are natural and its strings name
texts. -/
def Term.json? : Term → Option Json
  | .null => some .null
  | .bool _ => none
  | .number spelling => (Term.number spelling).nat?.map .number
  | .string spelling => (decode? spelling).map .string
  | .array elements => (Term.jsonElements? elements).map .array
  | .object members => (Term.jsonMembers? members).map .object

/-- The values that the elements of an array are. -/
def Term.jsonElements? : List Term → Option (List Json)
  | [] => some []
  | t :: ts => do
    return (← t.json?) :: (← jsonElements? ts)

/-- The members of an object with the values that they are. -/
def Term.jsonMembers? : List (Text × Term) → Option (List (Text × Json))
  | [] => some []
  | (name, t) :: ms => do
    return (← decode? name, ← t.json?) :: (← jsonMembers? ms)

end

/-- The value that a text is read as. -/
def ofText? (s : Text) : Option Json := (Term.ofText? s).bind Term.json?

/-- A text has nothing but blanks. -/
def Blank (s : Text) : Prop := skipBlanks s = []

/-- A text is read as a value wherever it stands in front of something that does not continue a
number. -/
def ReadsAs (s : Text) (j : Json) : Prop :=
  ∀ fuel rest, s.length < fuel → Stops rest →
    ∃ t, value? fuel (s ++ rest) = some (t, rest) ∧ t.json? = some j

/-- A text is read as a member of an object. -/
def ReadsAsMember (s : Text) (m : Text × Json) : Prop :=
  ∃ front value, Blank front ∧ s = front ++ (quote m.1 ++ ':' :: value) ∧ ReadsAs value m.2

/-- Texts with commas between them, and blanks and the end of an array or an object behind them. -/
def row (back : Text) (closing : Char) (parts : List Text) : Text :=
  separate [','] parts ++ back ++ [closing]

variable {s rest front back part next name : Text} {parts : List Text} {c closing : Char}
  {j : Json} {js : List Json} {m : Text × Json} {ms : List (Text × Json)} {t : Term} {fuel : Nat}

/-! ### Blanks -/

theorem skipBlanks_append (h : Blank front) (s : Text) :
  skipBlanks (front ++ s) = skipBlanks s
  := by
  rw [Blank, skipBlanks] at h
  rw [skipBlanks, List.dropWhile_append, h, List.isEmpty_nil, if_pos rfl, skipBlanks]

@[simp]
theorem skipBlanks_skipBlanks (s : Text) :
  skipBlanks (skipBlanks s) = skipBlanks s
  := List.dropWhile_idempotent ..

theorem Blank.append (hfront : Blank front) (hback : Blank back) :
  Blank (front ++ back)
  := by
  rw [Blank, skipBlanks_append hfront, hback]

theorem blank_line (n : Nat) :
  Blank ('\n' :: List.replicate n ' ')
  := by
  rw [Blank, skipBlanks, List.dropWhile_eq_nil_iff]
  intro c hc
  rcases List.mem_cons.mp hc with rfl | hc
  · rfl
  · rw [List.eq_of_mem_replicate hc]
    rfl

/-- Blanks do not continue a number. -/
theorem Stops.append (h : Stops rest) (hback : Blank back) :
  Stops (back ++ rest)
  := by
  cases back with
  | nil => exact h
  | cons c back =>
      by_cases hc : (c = ' ' || c = '\t' || c = '\n' || c = '\r') = true
      · simp only [Bool.or_eq_true, decide_eq_true_eq] at hc
        rw [List.cons_append, stops_cons]
        rcases hc with ((rfl | rfl) | rfl) | rfl <;> decide
      · rw [Blank, skipBlanks, List.dropWhile_cons, if_neg hc] at hback
        cases hback

/-! ### Rows -/

@[simp]
theorem row_nil (back : Text) (closing : Char) :
  row back closing [] = back ++ [closing]
  := rfl

@[simp]
theorem row_singleton (back : Text) (closing : Char) (part : Text) :
  row back closing [part] = part ++ (back ++ [closing])
  := by
  simp [row, separate]

@[simp]
theorem row_cons_cons (back : Text) (closing : Char) (part next : Text) (parts : List Text) :
  row back closing (part :: next :: parts) = part ++ ',' :: row back closing (next :: parts)
  := by
  simp [row, separate]

/-- A layout puts blanks in front of each part and behind all of them. -/
theorem exists_layout_eq (opening closing : Char) (depth : Nat) (parts : List Text) :
  ∃ front back, Blank front ∧ Blank back
    ∧ layout opening closing depth parts = opening :: row back closing (parts.map (front ++ ·))
  := by
  rw [layout]
  split
  · rename_i hparts
    rw [List.isEmpty_iff] at hparts
    subst hparts
    exact ⟨[], [], rfl, rfl, rfl⟩
  · exact ⟨_, _, blank_line _, blank_line _, rfl⟩

/-! ### The beginning of a value -/

/-- Blanks in front of a value are skipped. -/
@[simp]
theorem value?_skipBlanks (fuel : Nat) (s : Text) :
  value? fuel (skipBlanks s) = value? fuel s
  := by
  cases fuel with
  | zero => rw [value?, value?]
  | succ fuel => rw [value?, value?, skipBlanks_skipBlanks]

@[simp]
theorem elements?_skipBlanks (fuel : Nat) (s : Text) :
  elements? fuel (skipBlanks s) = elements? fuel s
  := by
  cases fuel with
  | zero => rw [elements?, elements?]
  | succ fuel => rw [elements?, elements?, value?_skipBlanks]

@[simp]
theorem members?_skipBlanks (fuel : Nat) (s : Text) :
  members? fuel (skipBlanks s) = members? fuel s
  := by
  cases fuel with
  | zero => rw [members?, members?]
  | succ fuel => rw [members?, members?, skipBlanks_skipBlanks]

theorem value?_quote (fuel : Nat) (s : Text) :
  value? (fuel + 1) ('"' :: s) = (string? s).map fun (spelling, s) => (.string spelling, s)
  := by
  rw [value?]
  rfl

theorem value?_bracket (fuel : Nat) (s : Text) :
  value? (fuel + 1) ('[' :: s)
    = match skipBlanks s with
      | ']' :: s => some (.array [], s)
      | s => (elements? fuel s).map fun (elements, s) => (.array elements, s)
  := by
  rw [value?]
  rfl

theorem value?_brace (fuel : Nat) (s : Text) :
  value? (fuel + 1) ('\x7b' :: s)
    = match skipBlanks s with
      | '\x7d' :: s => some (.object [], s)
      | s => (members? fuel s).map fun (members, s) => (.object members, s)
  := by
  rw [value?]
  rfl

theorem value?_digit (hc : c.isDigit = true) (fuel : Nat) (s : Text) :
  value? (fuel + 1) (c :: s) = (number? (c :: s)).map fun (spelling, s) => (.number spelling, s)
  := by
  have hblank : skipBlanks (c :: s) = c :: s := by
    rw [skipBlanks, List.dropWhile_cons_of_neg]
    simp only [Bool.or_eq_true, decide_eq_true_eq]
    rintro (((rfl | rfl) | rfl) | rfl) <;> exact absurd hc (by decide)
  rw [value?, hblank]
  split
  case h_7 => rfl
  -- Every other kind of value begins with a character that is no digit.
  all_goals
    rename_i heq
    obtain ⟨rfl, -⟩ := List.cons.inj heq
    exact absurd hc (by decide)

/-- The end of an array is no value. -/
theorem value?_eq_none (h : skipBlanks s = ']' :: rest) (fuel : Nat) :
  value? fuel s = none
  := by
  rw [← value?_skipBlanks, h]
  cases fuel with
  | zero => rw [value?]
  | succ fuel =>
      rw [value?]
      rfl

/-! ### Values without parts -/

theorem ReadsAs.append (h : ReadsAs s j) (hfront : Blank front) :
  ReadsAs (front ++ s) j
  := by
  intro fuel rest hfuel hrest
  rw [List.append_assoc, ← value?_skipBlanks, skipBlanks_append hfront, value?_skipBlanks]
  apply h fuel rest _ hrest
  rw [List.length_append] at hfuel
  omega

theorem readsAs_null :
  ReadsAs ['n', 'u', 'l', 'l'] .null
  := by
  intro fuel rest hfuel _
  obtain ⟨fuel, rfl⟩ := Nat.exists_eq_add_of_lt hfuel
  use .null
  constructor
  · rfl
  · rw [Term.json?]

theorem readsAs_string (s : Text) :
  ReadsAs (quote s) (.string s)
  := by
  intro fuel rest hfuel _
  obtain ⟨fuel, rfl⟩ := Nat.exists_eq_add_of_lt hfuel
  use .string (s.flatMap escape)
  constructor
  · rw [quote, List.cons_append, List.cons_append, List.append_assoc, List.singleton_append,
      value?_quote, string?_flatMap_escape]
    rfl
  · rw [Term.json?, decode?_flatMap_escape]
    rfl

theorem readsAs_number (n : Nat) :
  ReadsAs (Nat.toDigits 10 n) (.number n)
  := by
  intro fuel rest hfuel hrest
  obtain ⟨fuel, rfl⟩ := Nat.exists_eq_add_of_lt hfuel
  use .number (Nat.toDigits 10 n)
  constructor
  · have hnumber := number?_toDigits n hrest
    cases hn : Nat.toDigits 10 n with
    | nil => exact absurd hn Nat.toDigits_ne_nil
    | cons c s =>
        have hc : c.isDigit = true := isDigit_of_mem_toDigits n (hn ▸ List.mem_cons_self)
        rw [hn, List.cons_append] at hnumber
        rw [List.cons_append, value?_digit hc, hnumber]
        rfl
  · rw [Term.json?, nat?_number_toDigits]
    rfl

/-! ### Arrays -/

theorem elements?_last (h : value? fuel s = some (t, back ++ ']' :: rest)) (hback : Blank back) :
  elements? (fuel + 1) s = some ([t], rest)
  := by
  rw [elements?, h]
  simp only [Option.bind_eq_bind, Option.bind_some]
  rw [skipBlanks_append hback]
  rfl

theorem elements?_more {s' : Text} (h : value? fuel s = some (t, ',' :: s')) :
  elements? (fuel + 1) s = (elements? fuel s').map fun (ts, rest) => (t :: ts, rest)
  := by
  rw [elements?, h]
  cases helements : elements? fuel s' with
  | none => simp [skipBlanks, helements]
  | some result => simp [skipBlanks, helements]

/-- Texts that are read as values are read as the elements of an array when they stand in a row. -/
theorem exists_elements? (h : List.Forall₂ ReadsAs parts js) (hne : parts ≠ [])
    (hback : Blank back) (rest : Text) (hfuel : (row back ']' parts).length < fuel) :
  ∃ ts, elements? fuel (row back ']' parts ++ rest) = some (ts, rest)
    ∧ Term.jsonElements? ts = some js
  := by
  induction h generalizing fuel with
  | nil => exact absurd rfl hne
  | @cons part j parts js hpart hparts ih =>
      obtain ⟨fuel, rfl⟩ : ∃ n, fuel = n + 1 := Nat.exists_eq_succ_of_ne_zero (by omega)
      cases hparts with
      | nil =>
          simp only [row_singleton, List.length_append, List.length_singleton] at hfuel
          obtain ⟨t, ht, hj⟩ := hpart fuel (back ++ ']' :: rest) (by omega)
            (Stops.append (stops_cons.mpr (by decide)) hback)
          use [t]
          constructor
          · simp only [row_singleton, List.append_assoc, List.singleton_append]
            apply elements?_last ht hback
          · simp [Term.jsonElements?, hj]
      | @cons next k parts js hnext hparts =>
          simp only [row_cons_cons, List.length_append, List.length_cons] at hfuel
          obtain ⟨t, ht, hj⟩ := hpart fuel (',' :: (row back ']' (next :: parts) ++ rest))
            (by omega) (stops_cons.mpr (by decide))
          obtain ⟨ts, hts, hjs⟩ := ih (List.cons_ne_nil next parts) (by omega : _ < fuel)
          use t :: ts
          constructor
          · simp only [row_cons_cons, List.append_assoc, List.cons_append]
            rw [elements?_more ht, hts]
            rfl
          · rw [Term.jsonElements?, hj, hjs]
            rfl

theorem value?_of_elements? {ts : List Term} (h : elements? fuel s = some (ts, rest)) :
  value? (fuel + 1) ('[' :: s) = some (.array ts, rest)
  := by
  rw [value?_bracket]
  split
  · rename_i s' hskip
    cases fuel with
    | zero => cases h
    | succ fuel =>
        rw [elements?, value?_eq_none hskip] at h
        cases h
  · rw [elements?_skipBlanks, h]
    rfl

/-- Texts that are read as values are read as an array when they stand in a row. -/
theorem readsAs_array (h : List.Forall₂ ReadsAs parts js) (hback : Blank back) :
  ReadsAs ('[' :: row back ']' parts) (.array js)
  := by
  intro fuel rest hfuel _
  obtain ⟨fuel, rfl⟩ : ∃ n, fuel = n + 1 := Nat.exists_eq_succ_of_ne_zero (by omega)
  rw [List.cons_append]
  by_cases hne : parts = []
  · subst hne
    cases h
    use .array []
    constructor
    · rw [value?_bracket, row_nil, List.append_assoc, skipBlanks_append hback]
      rfl
    · simp [Term.json?, Term.jsonElements?]
  · obtain ⟨ts, hts, hjs⟩ := exists_elements? h hne hback rest (Nat.lt_of_succ_lt_succ hfuel)
    use .array ts, value?_of_elements? hts
    rw [Term.json?, hjs]
    rfl

/-! ### Objects -/

theorem skipBlanks_quote (hfront : Blank front) (name s : Text) :
  skipBlanks (front ++ (quote name ++ s)) = '"' :: (name.flatMap escape ++ '"' :: s)
  := by
  rw [skipBlanks_append hfront]
  simp [quote, skipBlanks]

/-- A member is read by its name and its value, and then by what stands behind it. -/
theorem members?_succ (hfront : Blank front) (fuel : Nat) (name s : Text) :
  members? (fuel + 1) (front ++ (quote name ++ ':' :: s)) = (do
    let (t, s) ← value? fuel s
    match skipBlanks s with
    | ',' :: s =>
      let (ms, s) ← members? fuel s
      return ((name.flatMap escape, t) :: ms, s)
    | '\x7d' :: s => return ([(name.flatMap escape, t)], s)
    | _ => none)
  := by
  rw [members?, skipBlanks_quote hfront]
  simp only [string?_flatMap_escape, Option.bind_eq_bind, Option.bind_some]
  rfl

theorem members?_last (hfront : Blank front) (hback : Blank back) (name : Text)
    (h : value? fuel s = some (t, back ++ '\x7d' :: rest)) :
  members? (fuel + 1) (front ++ (quote name ++ ':' :: s)) = some ([(name.flatMap escape, t)], rest)
  := by
  rw [members?_succ hfront, h]
  simp only [Option.bind_eq_bind, Option.bind_some]
  rw [skipBlanks_append hback]
  rfl

theorem members?_more {s' : Text} (hfront : Blank front) (name : Text)
    (h : value? fuel s = some (t, ',' :: s')) :
  members? (fuel + 1) (front ++ (quote name ++ ':' :: s))
    = (members? fuel s').map fun (ts, rest) => ((name.flatMap escape, t) :: ts, rest)
  := by
  rw [members?_succ hfront, h]
  cases hmembers : members? fuel s' with
  | none => simp [skipBlanks, hmembers]
  | some result => simp [skipBlanks, hmembers]

/-- Texts that are read as members are read as the members of an object when they stand in a
row. -/
theorem exists_members? (h : List.Forall₂ ReadsAsMember parts ms) (hne : parts ≠ [])
    (hback : Blank back) (rest : Text) (hfuel : (row back '\x7d' parts).length < fuel) :
  ∃ ts, members? fuel (row back '\x7d' parts ++ rest) = some (ts, rest)
    ∧ Term.jsonMembers? ts = some ms
  := by
  induction h generalizing fuel with
  | nil => exact absurd rfl hne
  | @cons part m parts ms hpart hparts ih =>
      obtain ⟨fuel, rfl⟩ : ∃ n, fuel = n + 1 := Nat.exists_eq_succ_of_ne_zero (by omega)
      obtain ⟨front, value, hfront, rfl, hvalue⟩ := hpart
      obtain ⟨name, j⟩ := m
      cases hparts with
      | nil =>
          simp only [row_singleton, List.length_append, List.length_cons] at hfuel
          obtain ⟨t, ht, hj⟩ := hvalue fuel (back ++ '\x7d' :: rest) (by omega)
            (Stops.append (stops_cons.mpr (by decide)) hback)
          use [(name.flatMap escape, t)]
          constructor
          · simp only [row_singleton, List.append_assoc, List.cons_append, List.nil_append]
            apply members?_last hfront hback name ht
          · simp [Term.jsonMembers?, hj, decode?_flatMap_escape]
      | @cons next k parts ms hnext hparts =>
          simp only [row_cons_cons, List.length_append, List.length_cons] at hfuel
          obtain ⟨t, ht, hj⟩ := hvalue fuel (',' :: (row back '\x7d' (next :: parts) ++ rest))
            (by omega) (stops_cons.mpr (by decide))
          obtain ⟨ts, hts, hms⟩ := ih (List.cons_ne_nil next parts) (by omega : _ < fuel)
          use (name.flatMap escape, t) :: ts
          constructor
          · simp only [row_cons_cons, List.append_assoc, List.cons_append]
            rw [members?_more hfront name ht, hts]
            rfl
          · rw [Term.jsonMembers?, decode?_flatMap_escape, hj, hms]
            rfl

theorem value?_of_members? {ts : List (Text × Term)} (h : members? fuel s = some (ts, rest)) :
  value? (fuel + 1) ('\x7b' :: s) = some (.object ts, rest)
  := by
  rw [value?_brace]
  split
  · rename_i s' hskip
    cases fuel with
    | zero => cases h
    | succ fuel =>
        rw [members?, hskip] at h
        cases h
  · rw [members?_skipBlanks, h]
    rfl

/-- Texts that are read as members are read as an object when they stand in a row. -/
theorem readsAs_object (h : List.Forall₂ ReadsAsMember parts ms) (hback : Blank back) :
  ReadsAs ('\x7b' :: row back '\x7d' parts) (.object ms)
  := by
  intro fuel rest hfuel _
  obtain ⟨fuel, rfl⟩ : ∃ n, fuel = n + 1 := Nat.exists_eq_succ_of_ne_zero (by omega)
  rw [List.cons_append]
  by_cases hne : parts = []
  · subst hne
    cases h
    use .object []
    constructor
    · rw [value?_brace, row_nil, List.append_assoc, skipBlanks_append hback]
      rfl
    · simp [Term.json?, Term.jsonMembers?]
  · obtain ⟨ts, hts, hms⟩ := exists_members? h hne hback rest (Nat.lt_of_succ_lt_succ hfuel)
    use .object ts, value?_of_members? hts
    rw [Term.json?, hms]
    rfl

theorem ReadsAsMember.append (h : ReadsAsMember s m) (hfront : Blank front) :
  ReadsAsMember (front ++ s) m
  := by
  obtain ⟨gap, value, hgap, rfl, hvalue⟩ := h
  use front ++ gap, value, hfront.append hgap
  constructor
  · rw [List.append_assoc]
  · exact hvalue

/-! ### Values without blanks -/

mutual

theorem readsAs_compact (j : Json) :
  ReadsAs j.compact j
  := by
  cases j with
  | null => exact readsAs_null
  | number n => exact readsAs_number n
  | string s => exact readsAs_string s
  | array elements =>
      have h := readsAs_array (forall₂_compactElements elements) (rfl : Blank [])
      rwa [row, List.append_nil] at h
  | object members =>
      have h := readsAs_object (forall₂_compactMembers members) (rfl : Blank [])
      rwa [row, List.append_nil] at h

theorem forall₂_compactElements (js : List Json) :
  List.Forall₂ ReadsAs (compactElements js) js
  := by
  cases js with
  | nil => exact .nil
  | cons j js => exact .cons (readsAs_compact j) (forall₂_compactElements js)

theorem forall₂_compactMembers (ms : List (Text × Json)) :
  List.Forall₂ ReadsAsMember (compactMembers ms) ms
  := by
  cases ms with
  | nil => exact .nil
  | cons m ms =>
      obtain ⟨name, j⟩ := m
      apply List.Forall₂.cons _ (forall₂_compactMembers ms)
      exact ⟨[], j.compact, rfl, rfl, readsAs_compact j⟩

end

/-! ### Values in lines -/

mutual

theorem readsAs_prettyAt (depth : Nat) (j : Json) :
  ReadsAs (j.prettyAt depth) j
  := by
  cases j with
  | null => exact readsAs_null
  | number n => exact readsAs_number n
  | string s => exact readsAs_string s
  | array elements =>
      obtain ⟨front, back, hfront, hback, hlayout⟩ :=
        exists_layout_eq '[' ']' depth (prettyElements (depth + 1) elements)
      rw [prettyAt, hlayout]
      apply readsAs_array _ hback
      apply List.forall₂_map_left_iff.mpr
      apply (forall₂_prettyElements (depth + 1) elements).imp
      intro s j hs
      apply hs.append hfront
  | object members =>
      obtain ⟨front, back, hfront, hback, hlayout⟩ :=
        exists_layout_eq '\x7b' '\x7d' depth (prettyMembers (depth + 1) members)
      rw [prettyAt, hlayout]
      apply readsAs_object _ hback
      apply List.forall₂_map_left_iff.mpr
      apply (forall₂_prettyMembers (depth + 1) members).imp
      intro s m hs
      apply hs.append hfront

theorem forall₂_prettyElements (depth : Nat) (js : List Json) :
  List.Forall₂ ReadsAs (prettyElements depth js) js
  := by
  cases js with
  | nil => exact .nil
  | cons j js => exact .cons (readsAs_prettyAt depth j) (forall₂_prettyElements depth js)

theorem forall₂_prettyMembers (depth : Nat) (ms : List (Text × Json)) :
  List.Forall₂ ReadsAsMember (prettyMembers depth ms) ms
  := by
  cases ms with
  | nil => exact .nil
  | cons m ms =>
      obtain ⟨name, j⟩ := m
      apply List.Forall₂.cons _ (forall₂_prettyMembers depth ms)
      exact ⟨[], ' ' :: j.prettyAt depth, rfl, rfl,
        (readsAs_prettyAt depth j).append (rfl : Blank [' '])⟩

end

/-! ### Whole texts -/

/-- A text is read to its end, with blanks behind it or without. -/
theorem ReadsAs.ofText?_eq (h : ReadsAs s j) (hback : Blank back) :
  ofText? (s ++ back) = some j
  := by
  have hstops : Stops back := by
    have hnil : Stops [] := fun c hc => by cases hc
    simpa using hnil.append hback
  have hlength : s.length < (s ++ back).length + 1 := by
    rw [List.length_append]
    omega
  obtain ⟨t, ht, hj⟩ := h ((s ++ back).length + 1) back hlength hstops
  rw [ofText?, Term.ofText?, ht]
  simp only [Option.bind_eq_bind, Option.bind_some]
  rw [hback]
  exact hj

/-- A value is read back from what is written without blanks. -/
theorem ofText?_compact (j : Json) (hback : Blank back) :
  ofText? (j.compact ++ back) = some j
  := (readsAs_compact j).ofText?_eq hback

/-- A value is read back from what is laid out in lines. -/
theorem ofText?_pretty (j : Json) (hback : Blank back) :
  ofText? (j.pretty ++ back) = some j
  := (readsAs_prettyAt 0 j).ofText?_eq hback

end Json

end Diagnostics
