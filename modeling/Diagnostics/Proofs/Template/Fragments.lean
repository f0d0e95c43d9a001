import Diagnostics.Proofs.Template.Segments
import Mathlib.Tactic.Use

/-!
# Patterns read by alternatives

A pattern is read one fragment after the other.  At each place three alternatives are tried in turn:
a placeholder, the text up to the next opening brace, and an opening brace by itself.  Literals that
follow each other are then joined.  The reading reaches the end of every pattern, its fragments are
the segments of the pattern, and its slots are exactly the places where the pattern has an opening
brace, decimal digits whose value is below the bound, and a closing brace.
-/

namespace Diagnostics

open Placeholder (IsNumeral spell)

/-- A fragment of a pattern. -/
inductive Fragment where
  /-- Text that stands for itself. -/
  | literal (text : Text)
  /-- A placeholder, with the numeral between its braces. -/
  | slot (numeral : Text)
  deriving DecidableEq, Repr

namespace Fragment

/-- The text that a fragment is read from. -/
def text : Fragment → Text
  | literal l => l
  | slot numeral => spell numeral

/-- The tokens that make up a fragment. -/
def tokens : Fragment → List Token
  | literal l => l.map Token.char
  | slot numeral => [.slot numeral]

/-- The segment that a fragment becomes. -/
def segment : Fragment → Segment
  | literal l => .literal l
  | slot numeral => .slot (Placeholder.value numeral)

/-! ### Reading -/

/-- A placeholder at the front of a text, and the text behind it. -/
def placeholder? (s : Text) : Option (Fragment × Text) := do
  let inside ← ['\x7b'].isPrefixOf? s
  let numeral := inside.takeWhile Char.isDigit
  if numeral = [] then
    none
  else if Placeholder.value numeral < Placeholder.indexBound then
    let rest ← ['\x7d'].isPrefixOf? (inside.drop numeral.length)
    some (slot numeral, rest)
  else
    none

/-- The text up to the next opening brace, unless it is empty, and the text from there on. -/
def run? (s : Text) : Option (Fragment × Text) :=
  let run := s.takeWhile (· ≠ '\x7b')
  if run = [] then none else some (literal run, s.drop run.length)

/-- An opening brace at the front of a text, and the text behind it. -/
def brace? (s : Text) : Option (Fragment × Text) :=
  (['\x7b'].isPrefixOf? s).map (literal ['\x7b'], ·)

/-- The first fragment of a text, and the text behind it. -/
def first? (s : Text) : Option (Fragment × Text) :=
  (placeholder? s).or ((run? s).or (brace? s))

/-- The fragments of a text, one after the other.  What is left of the text is refused where no
fragment can be read from it, or where one takes nothing of it. -/
def readAll (s : Text) : Except Text (List Fragment) :=
  match first? s with
  | none => if s = [] then .ok [] else .error s
  | some (fragment, rest) =>
    if _h : rest.length < s.length then
      (readAll rest).map (fragment :: ·)
    else
      .error s
termination_by s.length

/-- A fragment put behind others.  A literal makes a literal in front of it longer. -/
def push (fragments : List Fragment) : Fragment → List Fragment
  | literal l =>
    match fragments.getLast? with
    | some (literal k) => fragments.dropLast ++ [literal (k ++ l)]
    | _ => fragments ++ [literal l]
  | slot numeral => fragments ++ [slot numeral]

/-- Fragments with the literals that follow each other joined. -/
def join (fragments : List Fragment) : List Fragment := fragments.foldl push []

/-- Why a pattern is refused. -/
inductive Refusal where
  /-- No more fragments can be read behind the offset. -/
  | malformed (code offset : Nat)
  /-- The segments of the pattern are none of a template. -/
  | faulty (e : TemplateError)
  deriving DecidableEq, Repr

/-- The fragments of a pattern, joined.  A pattern that is not read to its end is malformed. -/
def split (code : Nat) (pattern : Text) : Except Refusal (List Fragment) :=
  match readAll pattern with
  | .ok fragments => .ok (join fragments)
  | .error rest => .error (.malformed code (pattern.utf8Length - rest.utf8Length))

/-- The segments of a template with a code and a pattern. -/
def check (code : Nat) (pattern : Text) : Except Refusal (List Segment) :=
  (split code pattern).bind fun fragments =>
    match Template.fault? code (fragments.map segment) with
    | some e => .error (.faulty e)
    | none => .ok (fragments.map segment)

/-! ### Tokens of fragments -/

variable {s a l numeral : Text} {c : Char} {fragment : Fragment} {fragments : List Fragment}

theorem flatMap_text_tokens (fragment : Fragment) :
  fragment.tokens.flatMap Token.text = fragment.text
  := by
  cases fragment with
  | literal l => simp [tokens, text, Token.text, List.flatMap_map]
  | slot numeral => simp [tokens, text, Token.text]

/-- Fragments put together are their tokens put together. -/
theorem flatMap_text_eq (fragments : List Fragment) :
  (fragments.flatMap tokens).flatMap Token.text = fragments.flatMap text
  := by
  rw [List.flatMap_assoc, List.flatMap_congr]
  intro fragment _
  apply flatMap_text_tokens

/-- The text up to an opening brace is read character by character. -/
theorem ofText_append_of_not_mem (h : '\x7b' ∉ l) (s : Text) :
  Token.ofText (l ++ s) = l.map Token.char ++ Token.ofText s
  := by
  induction l with
  | nil => rfl
  | cons c l ih =>
      rw [List.mem_cons, not_or] at h
      have hnone : Placeholder.numeral? (c :: (l ++ s)) = none := by
        rw [Placeholder.numeral?, if_neg (Ne.symm h.1)]
      rw [List.cons_append, Token.ofText_cons hnone, ih h.2]
      rfl

/-- A placeholder is read where a text opens with one. -/
theorem placeholder?_eq (s : Text) :
  placeholder? s
    = (Placeholder.numeral? s).map fun numeral => (slot numeral, s.drop (numeral.length + 2))
  := by
  cases s with
  | nil => rfl
  | cons c s =>
      by_cases hc : c = '\x7b'
      · subst hc
        have hopen : ['\x7b'].isPrefixOf? ('\x7b' :: s) = some s := by
          simp [List.isPrefixOf?]
        rw [placeholder?, Placeholder.numeral?, hopen, if_pos rfl]
        simp only [Option.bind_eq_bind, Option.bind_some, List.drop_succ_cons]
        generalize s.takeWhile Char.isDigit = numeral
        generalize hbehind : s.drop numeral.length = behind
        by_cases hempty : numeral = []
        · simp [hempty]
        · by_cases hvalue : Placeholder.value numeral < Placeholder.indexBound
          · cases behind with
            | nil => simp [hempty, List.isPrefixOf?]
            | cons d behind =>
                by_cases hclose : d = '\x7d'
                · have hrest : s.drop (numeral.length + 1) = behind := by
                    rw [← List.drop_drop, hbehind]
                    rfl
                  simp [hempty, hvalue, hclose, hrest, List.isPrefixOf?]
                · simp [hempty, hclose, Ne.symm hclose, List.isPrefixOf?]
          · simp [hempty, hvalue]
      · have hopen : ['\x7b'].isPrefixOf? (c :: s) = none := by
          simp [List.isPrefixOf?, Ne.symm hc]
        rw [placeholder?, Placeholder.numeral?, hopen, if_neg hc]
        rfl

/-- A text that does not begin with an opening brace has text up to the next one. -/
theorem exists_run? (hc : c ≠ '\x7b') (s : Text) :
  ∃ run rest, run? (c :: s) = some (literal run, rest) ∧ run ≠ [] ∧ '\x7b' ∉ run
    ∧ c :: s = run ++ rest
  := by
  have hrun : (c :: s).takeWhile (· ≠ '\x7b') ≠ [] := by
    rw [List.takeWhile_cons_of_pos (by simpa using hc)]
    apply List.cons_ne_nil
  have hclean : '\x7b' ∉ (c :: s).takeWhile (· ≠ '\x7b') := by
    intro hmem
    simpa using List.all_eq_true.mp List.all_takeWhile _ hmem
  have hstands : (c :: s).takeWhile (· ≠ '\x7b') <+: c :: s := List.takeWhile_prefix _
  rw [run?]
  generalize (c :: s).takeWhile (· ≠ '\x7b') = run at *
  obtain ⟨rest, hrest⟩ := hstands
  rw [← hrest]
  use run, rest
  rw [if_neg hrun, List.drop_left]
  use rfl, hrun, hclean

/-- A fragment can be read from every text that is not empty. -/
theorem exists_first? (hs : s ≠ []) :
  ∃ fragment rest, first? s = some (fragment, rest) ∧ fragment.text ≠ []
    ∧ s = fragment.text ++ rest ∧ Token.ofText s = fragment.tokens ++ Token.ofText rest
  := by
  rw [first?, placeholder?_eq]
  cases hnumeral : Placeholder.numeral? s with
  | some numeral =>
      have hspell := Placeholder.spell_of_numeral? hnumeral
      use slot numeral, s.drop (numeral.length + 2), rfl, by simp [text, spell], hspell
      conv => lhs; rw [hspell]
      apply Token.ofText_spell_append (Placeholder.isNumeral_of_numeral? hnumeral)
  | none =>
      obtain ⟨c, s, rfl⟩ := List.exists_cons_of_ne_nil hs
      rw [Option.map_none, Option.none_or]
      by_cases hc : c = '\x7b'
      · subst hc
        use literal ['\x7b'], s
        constructor
        · simp [run?, brace?, List.isPrefixOf?]
        constructor
        · simp [text]
        · use rfl, Token.ofText_cons hnumeral
      · obtain ⟨run, rest, hrun, hne, hclean, hsplit⟩ := exists_run? hc s
        rw [hrun, hsplit]
        use literal run, rest, rfl, hne, rfl, ofText_append_of_not_mem hclean rest

/-- Every text is read to its end. -/
theorem exists_readAll (s : Text) :
  ∃ fragments, readAll s = .ok fragments ∧ (∀ fragment ∈ fragments, fragment.text ≠ [])
    ∧ fragments.flatMap tokens = Token.ofText s
  := by
  -- the induction is on the length, as a fragment is read as a whole
  induction hlength : s.length using Nat.strongRecOn generalizing s with
  | _ n ih =>
      by_cases hs : s = []
      · subst hs
        use []
        rw [readAll]
        exact ⟨rfl, by simp, rfl⟩
      · obtain ⟨fragment, rest, hfirst, hne, rfl, htokens⟩ := exists_first? hs
        have hlt : rest.length < (fragment.text ++ rest).length := by
          rw [List.length_append]
          have := List.length_pos_iff.mpr hne
          omega
        obtain ⟨fragments, hread, hnes, hall⟩ := ih rest.length (hlength ▸ hlt) rest rfl
        use fragment :: fragments
        constructor
        · rw [readAll, hfirst]
          dsimp only
          rw [dif_pos hlt, hread]
          rfl
        · use List.forall_mem_cons.mpr ⟨hne, hnes⟩
          rw [List.flatMap_cons, hall, htokens]

/-! ### Joining -/

/-- Fragments without empty literals, in which no literal stands directly behind another one. -/
structure Joined (fragments : List Fragment) : Prop where
  ne_nil : ∀ l, literal l ∈ fragments → l ≠ []
  separated : Segment.Separated (fragments.map segment)

theorem flatMap_tokens_push (fragments : List Fragment) (fragment : Fragment) :
  (push fragments fragment).flatMap tokens = fragments.flatMap tokens ++ fragment.tokens
  := by
  cases fragment with
  | slot numeral => simp [push]
  | literal l =>
      rw [push]
      split
      case h_1 k hk =>
          obtain ⟨front, rfl⟩ := List.getLast?_eq_some_iff.mp hk
          simp [tokens]
      case h_2 => simp

/-- A fragment can be put behind separated segments unless two literals would meet. -/
theorem separated_concat (h : Segment.Separated (fragments.map segment))
    (hlast : ∀ k, fragments.getLast? = some (literal k) → fragment.segment.index?.isSome = true) :
  Segment.Separated ((fragments ++ [fragment]).map segment)
  := by
  rw [List.map_append, List.map_singleton]
  apply List.isChain_append.mpr ⟨h, List.IsChain.singleton _, _⟩
  intro x hx y hy
  obtain rfl := Option.some.inj hy
  rw [List.getLast?_map, Option.mem_def, Option.map_eq_some_iff] at hx
  obtain ⟨last, hx, rfl⟩ := hx
  cases last with
  | slot numeral => rfl
  | literal k => exact hlast k hx

/-- Putting a fragment behind others joins it to a literal in front of it. -/
theorem joined_push (h : Joined fragments) (hne : fragment.text ≠ []) :
  Joined (push fragments fragment)
  := by
  cases fragment with
  | slot numeral =>
      constructor
      · intro l hl
        apply h.ne_nil
        simpa [push] using hl
      · apply separated_concat h.separated
        intro k _
        rfl
  | literal l =>
      rw [push]
      split
      case h_1 k hk =>
          obtain ⟨front, rfl⟩ := List.getLast?_eq_some_iff.mp hk
          rw [List.dropLast_concat]
          constructor
          · intro l' hl'
            rcases List.mem_append.mp hl' with hl' | hl'
            · apply h.ne_nil l' (List.mem_append_left _ hl')
            · rw [literal.inj (List.mem_singleton.mp hl')]
              apply List.append_ne_nil_of_right_ne_nil _ hne
          · -- the literal is longer, but it stands where it did
            have hseparated := h.separated
            rw [List.map_append, List.map_singleton] at hseparated ⊢
            obtain ⟨hfront, -, hmeet⟩ := List.isChain_append.mp hseparated
            apply List.isChain_append.mpr ⟨hfront, List.IsChain.singleton _, _⟩
            intro x hx y hy
            obtain rfl := Option.some.inj hy
            apply hmeet x hx _ rfl
      case h_2 hlast =>
          constructor
          · intro l' hl'
            rcases List.mem_append.mp hl' with hl' | hl'
            · apply h.ne_nil l' hl'
            · rw [literal.inj (List.mem_singleton.mp hl')]
              exact hne
          · apply separated_concat h.separated
            intro k hk
            apply absurd hk (hlast k)

/-- Joining keeps the tokens of the fragments, and leaves no literals that are empty or stand
directly behind each other. -/
theorem joined_foldl {front : List Fragment} (hfront : Joined front)
    (hne : ∀ fragment ∈ fragments, fragment.text ≠ []) :
  Joined (fragments.foldl push front)
    ∧ (fragments.foldl push front).flatMap tokens
      = front.flatMap tokens ++ fragments.flatMap tokens
  := by
  induction fragments generalizing front with
  | nil =>
      use hfront
      simp
  | cons fragment fragments ih =>
      obtain ⟨hfragment, hne⟩ := List.forall_mem_cons.mp hne
      obtain ⟨hjoined, htokens⟩ := ih (joined_push hfront hfragment) hne
      use hjoined
      rw [List.foldl_cons, htokens, flatMap_tokens_push, List.flatMap_cons, List.append_assoc]

theorem joined_nil : Joined [] := ⟨fun _ h => absurd h List.not_mem_nil, List.IsChain.nil⟩

theorem Joined.tail (h : Joined (fragment :: fragments)) :
  Joined fragments
  := by
  constructor
  · intro l hl
    apply h.ne_nil l (List.mem_cons_of_mem _ hl)
  · have hseparated := h.separated
    rw [List.map_cons] at hseparated
    apply hseparated.tail

/-- Characters in front of a slot, or at the end of a pattern, become a literal. -/
theorem ofTokens_map_char_append {ts : List Token} (hl : l ≠ [])
    (hhead : ∀ t ∈ (Segment.ofTokens ts).head?, t.index?.isSome = true) :
  Segment.ofTokens (l.map Token.char ++ ts) = .literal l :: Segment.ofTokens ts
  := by
  induction l with
  | nil => exact absurd rfl hl
  | cons c l ih =>
      rw [List.map_cons, List.cons_append, Segment.ofTokens]
      cases l with
      | cons d l =>
          rw [ih (List.cons_ne_nil d l)]
          rfl
      | nil =>
          rw [List.map_nil, List.nil_append]
          cases hts : Segment.ofTokens ts with
          | nil => rfl
          | cons t rest =>
              rw [hts] at hhead
              cases t with
              | slot i => rfl
              | literal k => cases hhead _ rfl

/-- Joined fragments become the segments of their tokens. -/
theorem Joined.map_segment (h : Joined fragments) :
  fragments.map segment = Segment.ofTokens (fragments.flatMap tokens)
  := by
  induction fragments with
  | nil => rfl
  | cons fragment fragments ih =>
      rw [List.map_cons, List.flatMap_cons, ih h.tail]
      cases fragment with
      | slot numeral => rfl
      | literal l =>
          have hhead : ∀ t ∈ (Segment.ofTokens (fragments.flatMap tokens)).head?,
              t.index?.isSome = true := by
            rw [← ih h.tail]
            intro t ht
            simpa [segment, Segment.index?] using (List.isChain_cons.mp h.separated).1 t ht
          rw [segment, tokens, ofTokens_map_char_append (h.ne_nil l List.mem_cons_self) hhead]

/-! ### Fragments of a pattern -/

/-- The fragments of a pattern are joined, and they have the tokens of the pattern. -/
theorem exists_split (code : Nat) (p : Text) :
  ∃ fragments, split code p = .ok fragments ∧ Joined fragments
    ∧ fragments.flatMap tokens = Token.ofText p
  := by
  obtain ⟨fragments, hread, hne, htokens⟩ := exists_readAll p
  obtain ⟨hjoined, hall⟩ := joined_foldl joined_nil hne
  use join fragments
  constructor
  · rw [split, hread]
  · use hjoined
    rw [join, hall, htokens]
    rfl

/-- A slot of the fragments begins behind a text. -/
def Opens (fragments : List Fragment) (a : Text) : Prop :=
  ∃ front numeral back, fragments = front ++ slot numeral :: back ∧ front.flatMap text = a

/-- The character behind a text belongs to a literal of the fragments. -/
def InLiteral (fragments : List Fragment) (a : Text) (c : Char) : Prop :=
  ∃ front l back x y, fragments = front ++ literal l :: back ∧ l = x ++ c :: y
    ∧ front.flatMap text ++ x = a

/-- An opening brace stands nowhere in a placeholder but at its front. -/
theorem eq_nil_of_spell_eq {x y : Text} (hnumeral : IsNumeral numeral)
    (h : spell numeral = x ++ '\x7b' :: y) :
  x = []
  := by
  cases x with
  | nil => rfl
  | cons d x =>
      have htail : numeral ++ ['\x7d'] = x ++ '\x7b' :: y := (List.cons.inj h).2
      have hmem : '\x7b' ∈ numeral ++ ['\x7d'] := by
        rw [htail]
        simp
      rcases List.mem_append.mp hmem with hmem | hmem
      · cases hnumeral.isDigit _ hmem
      · apply absurd hmem (by decide)

/-- Every character of some fragments stands in one of them. -/
theorem exists_fragment (h : fragments.flatMap text = a ++ c :: s) :
  ∃ front fragment back x y, fragments = front ++ fragment :: back ∧ fragment.text = x ++ c :: y
    ∧ front.flatMap text ++ x = a ∧ y ++ back.flatMap text = s
  := by
  induction fragments generalizing a with
  | nil =>
      apply absurd h
      simp
  | cons fragment fragments ih =>
      rw [List.flatMap_cons] at h
      -- the character stands in a later fragment unless it stands in the first one
      have hlater (m : Text) (ha : fragment.text ++ m = a)
          (hm : fragments.flatMap text = m ++ c :: s) :
          ∃ front other back x y, fragment :: fragments = front ++ other :: back
            ∧ other.text = x ++ c :: y ∧ front.flatMap text ++ x = a
            ∧ y ++ back.flatMap text = s := by
        obtain ⟨front, other, back, x, y, rfl, htext, rfl, hs⟩ := ih hm
        use fragment :: front, other, back, x, y, rfl, htext
        rw [List.flatMap_cons, List.append_assoc]
        exact ⟨ha, hs⟩
      rcases List.append_eq_append_iff.mp h with ⟨m, ha, hm⟩ | ⟨m, ha, hm⟩
      · apply hlater m ha.symm hm
      · cases m with
        | nil =>
            rw [List.append_nil] at ha
            apply hlater [] (by rw [List.append_nil, ha]) hm.symm
        | cons d m =>
            obtain ⟨rfl, hs⟩ := List.cons.inj hm
            use [], fragment, fragments, a, m, rfl, ha, rfl, hs.symm

/-- A literal of some fragments stands before a slot of them, or behind it. -/
theorem before_or_behind {front back front' back' : List Fragment}
    (h : front ++ literal l :: back = front' ++ slot numeral :: back') :
  (∃ between, front' = front ++ literal l :: between)
    ∨ ∃ between, front = front' ++ slot numeral :: between
  := by
  rcases List.append_eq_append_iff.mp h with ⟨ms, rfl, hms⟩ | ⟨ms, rfl, hms⟩
  · cases ms with
    | nil => cases hms
    | cons fragment ms =>
        obtain ⟨rfl, -⟩ := List.cons.inj hms
        exact .inl ⟨ms, rfl⟩
  · cases ms with
    | nil => cases hms
    | cons fragment ms =>
        obtain ⟨rfl, -⟩ := List.cons.inj hms
        exact .inr ⟨ms, rfl⟩

/-- The character behind a text stands in a placeholder of the pattern. -/
def InPlaceholder (p a : Text) : Prop :=
  ∃ b numeral, IsNumeral numeral ∧ b ++ spell numeral <+: p ∧ b <+: a
    ∧ a.length < (b ++ spell numeral).length

section

variable {p : Text} (htokens : fragments.flatMap tokens = Token.ofText p)

include htokens

theorem flatMap_text_of_tokens :
  fragments.flatMap text = p
  := by
  rw [← flatMap_text_eq, htokens, Token.flatMap_text_ofText]

theorem isNumeral_of_slot_mem (h : slot numeral ∈ fragments) :
  IsNumeral numeral
  := by
  apply Token.isNumeral_of_slot_mem (s := p)
  rw [← htokens, List.mem_flatMap]
  use slot numeral, h
  apply List.mem_singleton_self

/-- No placeholder begins inside a literal. -/
theorem numeral?_of_literal {front back : List Fragment} {x y : Text}
    (h : fragments = front ++ literal (x ++ c :: y) :: back) :
  Placeholder.numeral? (c :: (y ++ back.flatMap text)) = none
  := by
  have hsplit : Token.ofText p = (front.flatMap tokens ++ x.map Token.char)
      ++ Token.char c :: (y.map Token.char ++ back.flatMap tokens) := by
    rw [← htokens, h]
    simp [tokens]
  have hnone := Token.numeral?_of_char hsplit
  have hy : (y.map Token.char).flatMap Token.text = y := flatMap_text_tokens (literal y)
  rwa [List.flatMap_append, flatMap_text_eq, hy] at hnone

/-- A slot begins where the pattern has an opening brace, the numeral of a placeholder and a closing
brace. -/
theorem opens_iff (hp : p = a ++ c :: s) :
  Opens fragments a
    ↔ c = '\x7b' ∧ ∃ numeral, IsNumeral numeral ∧ numeral ++ ['\x7d'] <+: s
  := by
  have htext := flatMap_text_of_tokens htokens
  constructor
  · rintro ⟨front, numeral, back, rfl, rfl⟩
    have hnumeral : IsNumeral numeral := isNumeral_of_slot_mem htokens (by simp)
    rw [hp, List.flatMap_append, List.flatMap_cons] at htext
    have hslot := List.append_cancel_left htext
    rw [text, Placeholder.spell_append] at hslot
    obtain ⟨rfl, rfl⟩ := List.cons.inj hslot
    use rfl, numeral, hnumeral, back.flatMap text
    simp
  · rintro ⟨rfl, numeral, hnumeral, rest, rfl⟩
    obtain ⟨front, fragment, back, x, y, hsplit, hfragment, rfl, hrest⟩ :=
      exists_fragment (htext.trans hp)
    cases fragment with
    | slot other =>
        have hother : IsNumeral other := isNumeral_of_slot_mem htokens (by simp [hsplit])
        obtain rfl := eq_nil_of_spell_eq hother hfragment
        use front, other, back, hsplit
        rw [List.append_nil]
    | literal l =>
        rw [show l = x ++ '\x7b' :: y from hfragment] at hsplit
        have hnone := numeral?_of_literal htokens hsplit
        have hspell : '\x7b' :: (numeral ++ ['\x7d'] ++ rest) = spell numeral ++ rest := by
          simp [spell]
        rw [hrest, hspell, Placeholder.numeral?_spell_append hnumeral] at hnone
        cases hnone

/-- Where a placeholder stands in the pattern, a slot of the fragments has its numeral. -/
theorem exists_slot (hnumeral : IsNumeral numeral) (hstands : a ++ spell numeral <+: p) :
  ∃ front back, fragments = front ++ slot numeral :: back ∧ front.flatMap text = a
  := by
  obtain ⟨rest, hrest⟩ := hstands
  have hp : p = a ++ '\x7b' :: (numeral ++ ['\x7d'] ++ rest) := by
    rw [← hrest]
    simp [spell]
  obtain ⟨front, other, back, hsplit, rfl⟩ :=
    (opens_iff htokens hp).mpr ⟨rfl, numeral, hnumeral, rest, rfl⟩
  have hother : other = numeral := by
    apply Placeholder.eq_of_spell_prefix (isNumeral_of_slot_mem htokens (by simp [hsplit]))
      hnumeral (s := spell numeral ++ rest)
    · use back.flatMap text
      have htext := flatMap_text_of_tokens htokens
      rw [hsplit, ← hrest, List.flatMap_append, List.flatMap_cons, List.append_assoc] at htext
      apply List.append_cancel_left htext
    · apply List.prefix_append
  use front, back
  rw [hsplit, hother]
  exact ⟨rfl, rfl⟩

/-- A character belongs to a literal unless it stands in a placeholder. -/
theorem inLiteral_iff (hp : p = a ++ c :: s) :
  InLiteral fragments a c ↔ ¬ InPlaceholder p a
  := by
  have htext := flatMap_text_of_tokens htokens
  constructor
  · rintro ⟨front, l, back, x, y, hsplit, rfl, rfl⟩
      ⟨b, numeral, hnumeral, hstands, ⟨m, hm⟩, hlt⟩
    -- the placeholder is a slot of the fragments, which the literal stands before or behind
    obtain ⟨front', back', hsplit', rfl⟩ := exists_slot htokens hnumeral hstands
    rw [hsplit] at hsplit'
    rcases before_or_behind hsplit' with ⟨ms, rfl⟩ | ⟨ms, rfl⟩
    · have hlength := congrArg List.length hm
      simp only [List.flatMap_append, List.flatMap_cons, text, List.length_append,
        List.length_cons] at hlength
      omega
    · simp only [List.flatMap_append, List.flatMap_cons, text, List.length_append] at hlt
      omega
  · intro hnone
    obtain ⟨front, fragment, back, x, y, hsplit, hfragment, rfl, hrest⟩ :=
      exists_fragment (htext.trans hp)
    cases fragment with
    | literal l => use front, l, back, x, y, hsplit, hfragment
    | slot other =>
        apply absurd _ hnone
        use front.flatMap text, other, isNumeral_of_slot_mem htokens (by simp [hsplit])
        constructor
        · use back.flatMap text
          rw [← htext, hsplit]
          simp [text]
        use List.prefix_append _ _
        rw [show spell other = x ++ c :: y from hfragment]
        simp

end

/-! ### Patterns -/

/-- Joined fragments with the tokens of a pattern become its segments. -/
theorem Joined.map_segment_eq_ofText {p : Text} (h : Joined fragments)
    (htokens : fragments.flatMap tokens = Token.ofText p) :
  fragments.map segment = Segment.ofText p
  := by
  rw [h.map_segment, htokens, Segment.ofText]

/-- A pattern read by alternatives is accepted or refused as a template is. -/
theorem check_eq (code : Nat) (p : Text) :
  check code p = ((Template.ofPattern code p).map (·.segments)).mapError Refusal.faulty
  := by
  obtain ⟨fragments, hsplit, hjoined, htokens⟩ := exists_split code p
  rw [check, hsplit, Except.bind, hjoined.map_segment_eq_ofText htokens,
    Template.map_segments_ofPattern]
  cases Template.fault? code (Segment.ofText p) with
  | none => rfl
  | some e => rfl

/-- Every pattern is read to its end, so that it is never malformed.  The literals that are read are
not empty, no two of them follow each other directly, and with the placeholders as they are written
the fragments put together are the pattern.  A slot begins just where an opening brace is followed by
the numeral of a placeholder and a closing brace, and every character that does not stand in such a
placeholder belongs to a literal. -/
theorem split_grammar (code : Nat) (p : Text) :
  (∀ n offset, check code p ≠ .error (.malformed n offset))
    ∧ check code p = ((Template.ofPattern code p).map (·.segments)).mapError Refusal.faulty
    ∧ ∃ fragments, split code p = .ok fragments ∧ fragments.map segment = Segment.ofText p
      ∧ (∀ l, literal l ∈ fragments → l ≠ [])
      ∧ Segment.Separated (fragments.map segment)
      ∧ (∀ numeral, slot numeral ∈ fragments → IsNumeral numeral)
      ∧ fragments.flatMap text = p
      ∧ ∀ a c s, p = a ++ c :: s →
        (Opens fragments a
          ↔ c = '\x7b' ∧ ∃ numeral, IsNumeral numeral ∧ numeral ++ ['\x7d'] <+: s)
        ∧ (InLiteral fragments a c ↔ ¬ InPlaceholder p a)
  := by
  obtain ⟨fragments, hsplit, hjoined, htokens⟩ := exists_split code p
  constructor
  · intro n offset
    rw [check_eq]
    cases Template.ofPattern code p with
    | ok t => simp [Except.map, Except.mapError]
    | error e => simp [Except.map, Except.mapError]
  · use check_eq code p, fragments, hsplit, hjoined.map_segment_eq_ofText htokens, hjoined.ne_nil,
      hjoined.separated, fun numeral => isNumeral_of_slot_mem htokens,
      flatMap_text_of_tokens htokens
    intro a c s hp
    exact ⟨opens_iff htokens hp, inLiteral_iff htokens hp⟩

end Fragment

end Diagnostics
