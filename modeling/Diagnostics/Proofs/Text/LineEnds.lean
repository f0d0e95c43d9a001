import Diagnostics.Proofs.Text.Occurrence
import Diagnostics.Proofs.Text.Trim
import Diagnostics.Text.Lines

/-!
# Line ends

`crlf` puts a carriage return in front of every line feed of a text.  The lines of the new text are
the lines of the old one with their new ends.  As both characters are blank, trimming takes line
ends of either kind away; and a text that holds neither of the two characters occurs at the same
places in both.
-/

namespace Diagnostics

namespace Text

variable {l s : Text} {c : Char}

/-- A text with a carriage return in front of every line feed. -/
def crlf (s : Text) : Text := s.flatMap fun c => if c = '\n' then ['\r', '\n'] else [c]

/-- Induction on a text in which the line feeds are a case of their own. -/
@[elab_as_elim]
theorem induction_on_lineFeeds {motive : Text → Prop} (s : Text) (nil : motive [])
    (lineFeed : ∀ s, motive s → motive ('\n' :: s))
    (cons : ∀ c s, c ≠ '\n' → motive s → motive (c :: s)) :
  motive s
  := by
  induction s with
  | nil => exact nil
  | cons c s ih =>
      by_cases hc : c = '\n'
      · rw [hc]
        apply lineFeed s ih
      · apply cons c s hc ih

@[simp]
theorem crlf_nil :
  crlf [] = []
  := rfl

@[simp]
theorem crlf_lineFeed_cons (s : Text) :
  crlf ('\n' :: s) = '\r' :: '\n' :: crlf s
  := rfl

@[simp]
theorem crlf_cons (hc : c ≠ '\n') (s : Text) :
  crlf (c :: s) = c :: crlf s
  := by
  rw [crlf, List.flatMap_cons, if_neg hc]
  rfl

@[simp]
theorem crlf_append (s t : Text) :
  crlf (s ++ t) = crlf s ++ crlf t
  := List.flatMap_append

theorem crlf_eq_self (h : '\n' ∉ s) :
  crlf s = s
  := by
  induction s with
  | nil => rfl
  | cons c s ih =>
      rw [List.mem_cons, not_or] at h
      simp [Ne.symm h.1, ih h.2]

theorem crlf_flatten (ls : List Text) :
  crlf ls.flatten = (ls.map crlf).flatten
  := by
  induction ls with
  | nil => rfl
  | cons l ls ih => simp [ih]

/-- A text becomes longer by one byte for each of its line feeds. -/
theorem utf8Length_crlf (s : Text) :
  (crlf s).utf8Length = s.utf8Length + s.count '\n'
  := by
  induction s using induction_on_lineFeeds with
  | nil => rfl
  | lineFeed s ih =>
      have hr : '\r'.utf8Size = 1 := by decide
      simp only [crlf_lineFeed_cons, utf8Length_cons, ih, hr, List.count_cons_self]
      omega
  | cons c s hc ih => simp [hc, ih, Nat.add_assoc]

@[simp]
theorem crlf_eq_nil_iff :
  crlf s = [] ↔ s = []
  := by
  cases s using induction_on_lineFeeds with
  | nil => simp
  | lineFeed s => simp
  | cons c s hc => simp [hc]

theorem crlf_ne_lineFeed_cons (s t : Text) :
  crlf s ≠ '\n' :: t
  := by
  cases s using induction_on_lineFeeds with
  | nil => simp
  | lineFeed s => simp
  | cons c s hc => simp [hc]

/-- A carriage return that the text holds by itself has no line feed of the text behind it. -/
theorem crlf_lineFeed_cons_ne (hc : c ≠ '\n') (s t : Text) :
  crlf ('\n' :: s) ≠ crlf (c :: t)
  := by
  rw [crlf_lineFeed_cons, crlf_cons hc]
  intro h
  apply crlf_ne_lineFeed_cons t (crlf s) (List.cons.inj h).2.symm

theorem crlf_injective :
  Function.Injective crlf
  := by
  intro s t h
  induction s using induction_on_lineFeeds generalizing t with
  | nil => exact (crlf_eq_nil_iff.mp h.symm).symm
  | lineFeed s ih =>
      cases t using induction_on_lineFeeds with
      | nil => exact crlf_eq_nil_iff.mp h
      | lineFeed t => rw [ih (List.cons.inj (List.cons.inj h).2).2]
      | cons d t hd => apply absurd h (crlf_lineFeed_cons_ne hd s t)
  | cons c s hc ih =>
      cases t using induction_on_lineFeeds with
      | nil => exact crlf_eq_nil_iff.mp h
      | lineFeed t => apply absurd h.symm (crlf_lineFeed_cons_ne hc t s)
      | cons d t hd =>
          rw [crlf_cons hc, crlf_cons hd] at h
          rw [(List.cons.inj h).1, ih (List.cons.inj h).2]

/-! ### Lines -/

theorem lines_crlf (s : Text) :
  lines (crlf s) = (lines s).map crlf
  := by
  induction s using induction_on_lineFeeds with
  | nil => rfl
  | lineFeed s ih =>
      rw [crlf_lineFeed_cons, lines, if_neg (by decide), lines, if_pos rfl, ih, lines, if_pos rfl]
      rfl
  | cons c s hc ih =>
      rw [crlf_cons hc, lines, if_neg hc, lines, if_neg hc, ih]
      cases lines s with
      | nil => simp [hc]
      | cons l ls => simp [hc]

/-! ### Blank characters -/

@[simp]
theorem isBlankText_crlf (s : Text) :
  isBlankText (crlf s) = isBlankText s
  := by
  rw [isBlankText, isBlankText, crlf, List.all_flatMap]
  congr 1
  funext c
  split
  · rename_i hc
    subst hc
    decide
  · simp

theorem map_isBlank_head?_crlf (s : Text) :
  (crlf s).head?.map isBlank = s.head?.map isBlank
  := by
  cases s using induction_on_lineFeeds with
  | nil => rfl
  | lineFeed s =>
      rw [crlf_lineFeed_cons, List.head?_cons, List.head?_cons]
      decide
  | cons c s hc => simp [hc]

theorem getLast?_crlf (s : Text) :
  (crlf s).getLast? = s.getLast?
  := by
  rcases List.eq_nil_or_concat' s with rfl | ⟨s, c, rfl⟩
  · rfl
  · by_cases hc : c = '\n'
    · simp [hc]
    · simp [hc]

theorem IsTrimmed.crlf (h : IsTrimmed s) :
  IsTrimmed (crlf s)
  := by
  constructor
  · intro c hc
    have hmap := Option.mem_map_of_mem isBlank hc
    rw [map_isBlank_head?_crlf] at hmap
    obtain ⟨d, hd, hblank⟩ := Option.map_eq_some_iff.mp hmap
    rw [← hblank]
    apply h.head d hd
  · rw [getLast?_crlf]
    apply h.last

/-! ### Occurrences -/

theorem isPrefixOf?_crlf (hr : '\r' ∉ l) (hn : '\n' ∉ l) (s : Text) :
  l.isPrefixOf? (crlf s) = (l.isPrefixOf? s).map crlf
  := by
  induction l generalizing s with
  | nil => simp [List.isPrefixOf?]
  | cons d l ih =>
      rw [List.mem_cons, not_or] at hr hn
      cases s using induction_on_lineFeeds with
      | nil => rfl
      | lineFeed s => simp [List.isPrefixOf?, Ne.symm hr.1, Ne.symm hn.1]
      | cons c s hc =>
          by_cases hdc : d = c
          · simp [List.isPrefixOf?, hc, hdc, ih hr.2 hn.2]
          · simp [List.isPrefixOf?, hc, hdc]

theorem prefix_crlf_iff (hr : '\r' ∉ l) (hn : '\n' ∉ l) :
  l <+: crlf s ↔ l <+: s
  := by
  rw [← not_iff_not, ← isPrefixOf?_eq_none_iff, ← isPrefixOf?_eq_none_iff, isPrefixOf?_crlf hr hn,
    Option.map_eq_none_iff]

/-- Where a literal stands at the front, it does so in front of the same rest. -/
theorem splitAtFirst?_crlf_of_prefix (hn : '\n' ∉ l) (hne : s ≠ []) (h : l <+: s) :
  splitAtFirst? l (crlf s) = (splitAtFirst? l s).map (Prod.map crlf crlf)
  := by
  obtain ⟨rest, hs⟩ := h
  have hcrlf : crlf s = l ++ crlf rest := by simp [← hs, crlf_eq_self hn]
  obtain ⟨c, t, ht⟩ := List.exists_cons_of_ne_nil (mt crlf_eq_nil_iff.mp hne)
  obtain ⟨d, s, rfl⟩ := List.exists_cons_of_ne_nil hne
  rw [ht] at hcrlf ⊢
  rw [splitAtFirst?_cons_of_eq_append hcrlf, splitAtFirst?_cons_of_eq_append hs.symm]
  rfl

theorem splitAtFirst?_crlf (hr : '\r' ∉ l) (hn : '\n' ∉ l) (s : Text) :
  splitAtFirst? l (crlf s) = (splitAtFirst? l s).map (Prod.map crlf crlf)
  := by
  induction s using induction_on_lineFeeds with
  | nil =>
      rw [crlf_nil, splitAtFirst?]
      split
      · rfl
      · rfl
  | lineFeed s ih =>
      by_cases hfront : l <+: '\n' :: s
      · apply splitAtFirst?_crlf_of_prefix hn (List.cons_ne_nil _ _) hfront
      · have hcrlf : ¬ l <+: crlf ('\n' :: s) := by rwa [prefix_crlf_iff hr hn]
        have hfeed : ¬ l <+: '\n' :: crlf s := by
          intro hl
          cases l with
          | nil => apply hfront List.nil_prefix
          | cons d l => simp [(List.cons_prefix_cons.mp hl).1] at hn
        rw [crlf_lineFeed_cons] at hcrlf ⊢
        rw [splitAtFirst?_cons_of_absent hfront, splitAtFirst?_cons_of_absent hcrlf,
          splitAtFirst?_cons_of_absent hfeed, ih, Option.map_map, Option.map_map, Option.map_map]
        rfl
  | cons c s hc ih =>
      by_cases hfront : l <+: c :: s
      · apply splitAtFirst?_crlf_of_prefix hn (List.cons_ne_nil _ _) hfront
      · have hcrlf : ¬ l <+: crlf (c :: s) := by rwa [prefix_crlf_iff hr hn]
        rw [crlf_cons hc] at hcrlf ⊢
        rw [splitAtFirst?_cons_of_absent hfront, splitAtFirst?_cons_of_absent hcrlf, ih,
          Option.map_map, Option.map_map]
        congr 1
        funext ab
        simp [hc]

/-! ### Offsets -/

/-- The number of line feeds among the first `n` bytes of a text, where these are whole
characters. -/
def feedsBefore (s : Text) (n : Nat) : Nat := (cutAt? n s).elim 0 fun (a, _) => a.count '\n'

theorem feedsBefore_append (a b : Text) :
  feedsBefore (a ++ b) a.utf8Length = a.count '\n'
  := by
  rw [feedsBefore, cutAt?_append]
  rfl

/-- The span of a text that has moved with the line ends in front of its bounds. -/
def crlfSpan (s : Text) (w : Span) : Span :=
  ⟨w.start + s.feedsBefore w.start, w.stop + s.feedsBefore w.stop⟩

end Text

end Diagnostics
