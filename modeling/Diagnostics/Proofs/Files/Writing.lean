import Diagnostics.Files.Tree
import Mathlib.Data.List.Basic
import Mathlib.Tactic.Use

/-!
# Writing a file

Writing puts a text where a path leads, and nothing else in the tree changes: the directories on the
way to the file are there before, and every path that could be followed still leads to the same
place.
-/

namespace Diagnostics

/-! ### Values and errors -/

section Except

variable {α β ε ε' : Type} {x : Except ε α}

@[simp]
theorem mapError_eq_error_iff {f : ε → ε'} {error : ε'} :
  x.mapError f = .error error ↔ ∃ cause, x = .error cause ∧ f cause = error
  := by
  cases x <;> simp [Except.mapError]

@[simp]
theorem mapError_eq_ok_iff {f : ε → ε'} {a : α} :
  x.mapError f = .ok a ↔ x = .ok a
  := by
  cases x <;> simp [Except.mapError]

@[simp]
theorem map_eq_error_iff {f : α → β} {error : ε} :
  x.map f = .error error ↔ x = .error error
  := by
  cases x <;> simp [Except.map]

@[simp]
theorem map_eq_ok_iff {f : α → β} {b : β} :
  x.map f = .ok b ↔ ∃ a, x = .ok a ∧ f a = b
  := by
  cases x <;> simp [Except.map]

theorem bind_eq_ok_iff {f : α → Except ε β} {b : β} :
  x >>= f = .ok b ↔ ∃ a, x = .ok a ∧ f a = .ok b
  := by
  cases x <;> simp [bind, Except.bind]

end Except

namespace FileTree

/-- Some names are on the way to something that is listed, or to the directory in which relative
paths begin. -/
def IsOnWay (t : FileTree) (names : List Text) : Prop :=
  names <+: t.here ∨ ∃ entry ∈ t.nodes, names <+: entry.1

/-- A path names a file for writing: its last part is the name of something that is no directory, in
the directory to which the other parts lead. -/
structure Targets (t : FileTree) (p : Path) (front : List Text) (around : List Text)
    (name : Text) : Prop where
  refuse_eq : refuse p = .ok ()
  parts_eq : Path.parts p = front ++ [name]
  followAll_eq : t.followAll p front = .ok around
  node?_around : t.node? around = some .directory
  grant_around : t.grant .pass around = .ok ()
  child_eq : child around name = .ok (around ++ [name])
  isIdle_eq : Path.isIdle name = false
  ne_dots : name ≠ ['.', '.']
  node?_ne : t.node? (around ++ [name]) ≠ some .directory

variable {t : FileTree} {p : Path} {names other around front way : List Text} {name part : Text}
  {node : FileNode}

/-! ### Contents -/

/-- A text is read as it is written. -/
@[simp]
theorem decode_encode (s : Text) :
  decode (encode s) = .ok s
  := by
  have hread : String.fromUTF8? (String.ofList s).toUTF8 = some (String.ofList s) := by
    rw [String.fromUTF8?, String.toUTF8_eq_toByteArray, dif_pos (String.ofList s).isValidUTF8]
    rfl
  rw [decode, encode, hread]
  dsimp only
  rw [String.toList_ofList]

@[simp]
theorem size_encode (s : Text) :
  (encode s).size = s.utf8Length
  := by
  rw [encode, String.toUTF8_eq_toByteArray, String.toByteArray_ofList, List.utf8Encode,
    List.size_toByteArray]
  induction s with
  | nil => rfl
  | cons c s ih => simp [ih]

/-! ### Nodes -/

theorem isOnWay_iff :
  (names.isPrefixOf t.here || t.nodes.any fun (way, _) => names.isPrefixOf way) = true
    ↔ t.IsOnWay names
  := by
  rw [Bool.or_eq_true, List.any_eq_true, List.isPrefixOf_iff_prefix]
  simp only [List.isPrefixOf_iff_prefix]
  rfl

theorem node?_of_lookup_eq_some (h : t.nodes.lookup names = some node) :
  t.node? names = some node
  := by
  rw [node?, h]

/-- What is on a way and not listed itself is a directory. -/
theorem node?_of_isOnWay (h : t.nodes.lookup names = none) (hway : t.IsOnWay names) :
  t.node? names = some .directory
  := by
  rw [node?, h]
  exact if_pos (isOnWay_iff.mpr hway)

theorem node?_of_not_isOnWay (h : t.nodes.lookup names = none) (hway : ¬ t.IsOnWay names) :
  t.node? names = none
  := by
  rw [node?, h]
  exact if_neg (mt isOnWay_iff.mp hway)

theorem IsOnWay.of_prefix (h : t.IsOnWay names) (hother : other <+: names) :
  t.IsOnWay other
  := by
  rcases h with h | ⟨entry, hentry, h⟩
  · exact .inl (hother.trans h)
  · exact .inr ⟨entry, hentry, hother.trans h⟩

theorem isOnWay_of_node?_eq_directory (h : t.node? names = some .directory) :
  t.IsOnWay names
  := by
  cases hlookup : t.nodes.lookup names with
  | some node =>
      obtain ⟨before, after, hnodes, -⟩ := List.lookup_eq_some_iff.mp hlookup
      right
      use (names, node)
      simp [hnodes]
  | none =>
      by_contra hway
      rw [node?_of_not_isOnWay hlookup hway] at h
      cases h

theorem lookup_filter_of_ne (nodes : List (List Text × FileNode)) (h : other ≠ names) :
  (nodes.filter (·.1 ≠ names)).lookup other = nodes.lookup other
  := by
  induction nodes with
  | nil => rfl
  | cons entry nodes ih =>
      obtain ⟨way, node⟩ := entry
      by_cases hway : way = names
      · rw [List.filter_cons_of_neg (by simp [hway]), ih, List.lookup_cons, hway,
          beq_false_of_ne h]
      · rw [List.filter_cons_of_pos (by simp [hway]), List.lookup_cons, ih, List.lookup_cons]

theorem lookup_put_of_ne (h : other ≠ names) :
  (t.put names node).nodes.lookup other = t.nodes.lookup other
  := by
  rw [put, List.lookup_cons, beq_false_of_ne h]
  apply lookup_filter_of_ne t.nodes h

/-- A new entry in a directory that is there puts nothing but itself on a way. -/
theorem isOnWay_put_iff (node : FileNode) (haround : t.IsOnWay around)
    (hother : other ≠ around ++ [name]) :
  (t.put (around ++ [name]) node).IsOnWay other ↔ t.IsOnWay other
  := by
  constructor
  · rintro (h | ⟨entry, hentry, h⟩)
    · exact .inl h
    · rcases List.mem_cons.mp hentry with rfl | hentry
      · rcases List.prefix_concat_iff.mp h with h | h
        · apply absurd h hother
        · apply haround.of_prefix h
      · exact .inr ⟨entry, (List.mem_filter.mp hentry).1, h⟩
  · rintro (h | ⟨entry, hentry, h⟩)
    · exact .inl h
    · right
      by_cases hnames : entry.1 = around ++ [name]
      · use (around ++ [name], node), List.mem_cons_self
        rw [← hnames]
        exact h
      · use entry
        constructor
        · apply List.mem_cons_of_mem
          apply List.mem_filter.mpr
          simp [hentry, hnames]
        · exact h

/-- Putting a node into a directory changes no other node. -/
theorem node?_put_of_ne (haround : t.node? around = some .directory)
    (hother : other ≠ around ++ [name]) :
  (t.put (around ++ [name]) node).node? other = t.node? other
  := by
  have hway := isOnWay_put_iff node (isOnWay_of_node?_eq_directory haround) hother
  have hlookup : (t.put (around ++ [name]) node).nodes.lookup other = t.nodes.lookup other :=
    lookup_put_of_ne hother
  cases hfound : t.nodes.lookup other with
  | some found =>
      rw [node?_of_lookup_eq_some hfound, node?_of_lookup_eq_some (hlookup.trans hfound)]
  | none =>
      by_cases hon : t.IsOnWay other
      · rw [node?_of_isOnWay hfound hon,
          node?_of_isOnWay (hlookup.trans hfound) (hway.mpr hon)]
      · rw [node?_of_not_isOnWay hfound hon,
          node?_of_not_isOnWay (hlookup.trans hfound) (mt hway.mp hon)]

@[simp]
theorem node?_put_self (t : FileTree) (names : List Text) (node : FileNode) :
  (t.put names node).node? names = some node
  := by
  rw [node?, put, List.lookup_cons_self]

/-! ### Targets -/

theorem eq_append_of_child (h : child around name = .ok names) :
  names = around ++ [name]
  := by
  rw [child] at h
  split at h
  · cases h
  · exact (Except.ok.inj h).symm

/-- A list from which nothing is dropped at the back stays as it is. -/
theorem reverse_dropWhile_reverse {parts : List Text} {q : Text → Bool}
    (h : ¬ (parts.reverse.dropWhile q).reverse.length < parts.length) :
  (parts.reverse.dropWhile q).reverse = parts
  := by
  rw [List.reverse_eq_iff]
  apply (List.dropWhile_suffix q).eq_of_length_le
  simpa using h

/-- A path that can be written names a file. -/
theorem exists_targets (h : t.target p = .ok names) :
  ∃ front around name, t.Targets p front around name ∧ names = around ++ [name]
  := by
  obtain ⟨_, hrefuse, h⟩ := bind_eq_ok_iff.mp h
  dsimp only at h
  split at h
  · cases h
  rename_i name hname
  obtain ⟨around, haround, h⟩ := bind_eq_ok_iff.mp h
  split at h
  case h_2 => cases h
  rename_i hnode
  obtain ⟨_, hgrant, h⟩ := bind_eq_ok_iff.mp h
  split at h
  · cases h
  rename_i hlegal
  obtain ⟨names', hchild, h⟩ := bind_eq_ok_iff.mp h
  split at h
  · cases h
  rename_i hnames
  obtain ⟨_, -, h⟩ := bind_eq_ok_iff.mp h
  simp only [Bool.or_eq_true, decide_eq_true_eq, not_or] at hlegal
  obtain ⟨⟨hidle, hdots⟩, hlength⟩ := hlegal
  rw [reverse_dropWhile_reverse hlength] at hname haround
  obtain rfl := Except.ok.inj h
  obtain rfl := eq_append_of_child hchild
  use (Path.parts p).dropLast, around, name
  constructor
  · constructor
    · exact hrefuse
    · exact (List.dropLast_append_getLast? name hname).symm
    · exact haround
    · exact hnode
    · exact hgrant
    · exact hchild
    · simpa using hidle
    · exact hdots
    · exact hnames
  · rfl

/-! ### Following paths after writing -/

theorem isSome_node?_put (haround : t.node? around = some .directory)
    (h : (t.node? other).isSome = true) :
  ((t.put (around ++ [name]) node).node? other).isSome = true
  := by
  by_cases heq : other = around ++ [name]
  · rw [heq, node?_put_self]
    rfl
  · rw [node?_put_of_ne haround heq]
    exact h

/-- A part that can be followed leads to the same place when a node is put where there was no
directory. -/
theorem follow_put (haround : t.node? around = some .directory)
    (hne : t.node? (around ++ [name]) ≠ some .directory) (h : t.follow way part = .ok names) :
  (t.put (around ++ [name]) node).follow way part = .ok names
  := by
  rw [follow] at h ⊢
  split at h
  case h_2 => cases h
  rename_i hdirectory
  have hway : way ≠ around ++ [name] := by
    rintro rfl
    apply hne hdirectory
  rw [node?_put_of_ne haround hway, hdirectory]
  dsimp only
  split at h
  · rename_i hempty
    rw [if_pos hempty]
    exact h
  rename_i hempty
  rw [if_neg hempty]
  rw [bind_eq_ok_iff] at h ⊢
  obtain ⟨_, hgrant, h⟩ := h
  use (), hgrant
  -- The name of what is there is the only part that asks for another node.
  split at h
  · rename_i hdot
    rw [if_pos hdot]
    exact h
  rename_i hdot
  rw [if_neg hdot]
  split at h
  · rename_i hdots
    rw [if_pos hdots]
    exact h
  rename_i hdots
  rw [if_neg hdots]
  rw [bind_eq_ok_iff] at h ⊢
  obtain ⟨there, hchild, h⟩ := h
  use there, hchild
  split at h
  · rename_i hsome
    rw [if_pos (isSome_node?_put haround hsome)]
    exact h
  · cases h

theorem foldlM_follow_put (haround : t.node? around = some .directory)
    (hne : t.node? (around ++ [name]) ≠ some .directory) {parts : List Text}
    (h : parts.foldlM t.follow way = .ok names) :
  parts.foldlM (t.put (around ++ [name]) node).follow way = .ok names
  := by
  induction parts generalizing way with
  | nil => exact h
  | cons part parts ih =>
      rw [List.foldlM_cons, bind_eq_ok_iff] at h ⊢
      obtain ⟨next, hfollow, h⟩ := h
      exact ⟨next, follow_put haround hne hfollow, ih h⟩

/-- A path leads to the node that is put where it names a file. -/
theorem Targets.locate_put (h : t.Targets p front around name) (node : FileNode) :
  (t.put (around ++ [name]) node).locate p = .ok (around ++ [name])
  := by
  have hput : (t.put (around ++ [name]) node).node? around = some .directory := by
    rw [node?_put_of_ne h.node?_around (by simp), h.node?_around]
  have hname : (t.put (around ++ [name]) node).follow around name = .ok (around ++ [name]) := by
    obtain ⟨hempty, hdot⟩ : name.isEmpty = false ∧ name ≠ ['.'] := by
      simpa [Path.isIdle] using h.isIdle_eq
    rw [follow, hput]
    dsimp only
    rw [hempty, if_neg Bool.false_ne_true]
    apply bind_eq_ok_iff.mpr
    use (), h.grant_around
    rw [if_neg hdot, if_neg h.ne_dots]
    apply bind_eq_ok_iff.mpr
    use around ++ [name], h.child_eq
    rw [node?_put_self]
    rfl
  rw [locate, h.parts_eq]
  apply bind_eq_ok_iff.mpr
  use (), h.refuse_eq
  rw [followAll, List.foldlM_append]
  apply bind_eq_ok_iff.mpr
  use around, foldlM_follow_put h.node?_around h.node?_ne h.followAll_eq
  rw [List.foldlM_cons]
  apply bind_eq_ok_iff.mpr
  exact ⟨_, hname, rfl⟩

/-- Writing changes one file only, which is where the path leads afterwards, and which then holds the
text. -/
theorem of_write_eq_ok {u : FileTree} {s : Text} (h : t.write p s = .ok u) :
  ∃ way, u.locate p = .ok way ∧ u.node? way = some (.file (encode s))
    ∧ ∀ other, other ≠ way → u.node? other = t.node? other
  := by
  obtain ⟨names, htarget, rfl⟩ := map_eq_ok_iff.mp h
  obtain ⟨front, around, name, htargets, rfl⟩ := exists_targets htarget
  use around ++ [name], htargets.locate_put (.file (encode s)), node?_put_self ..
  intro other hother
  apply node?_put_of_ne htargets.node?_around hother

theorem write_eq_error_iff {s : Text} {error : FileError} :
  t.write p s = .error error ↔ t.target p = .error error
  := map_eq_error_iff

end FileTree

end Diagnostics
