import Diagnostics.Text.Basic

/-!
# Paths

A path is a text of names with slashes between them.  A path that begins with a slash is
absolute; every other path is relative to a directory.  Empty names and single dots stand for
nothing, apart from a dot at the very front.
-/

namespace Diagnostics

/-- A path is a text with slashes between its names. -/
abbrev Path := Text

namespace Path

/-- The parts of a text between slashes. -/
def parts : Text → List Text
  | [] => [[]]
  | c :: s =>
    if c = '/' then
      [] :: parts s
    else
      match parts s with
      | [] => [[c]]
      | p :: ps => (c :: p) :: ps

/-- Texts with slashes between them. -/
def ofParts : List Text → Text
  | [] => []
  | [p] => p
  | p :: ps => p ++ '/' :: ofParts ps

/-- Whether a path is absolute. -/
def isAbsolute (p : Path) : Bool := p.head? = some '/'

/-- A path inside the directory `base`, if it is relative. -/
def join (base p : Path) : Path :=
  if p.isAbsolute || base.isEmpty then
    p
  else if base.getLast? = some '/' then
    base ++ p
  else
    base ++ '/' :: p

/-- Whether a part of a path stands for nothing. -/
def isIdle (part : Text) : Bool := part.isEmpty || part = ['.']

/-- The number of characters before the names of a path: the slash of an absolute path, or a dot
at the very front. -/
def headLength : Path → Nat
  | ['.'] => 1
  | '.' :: '/' :: _ => 1
  | '/' :: _ => 1
  | _ => 0

/-- Parts without the idle ones at their end. -/
def trimParts (ps : List Text) : List Text := (ps.reverse.dropWhile isIdle).reverse

/-- The directory of a path: the path without its last name. -/
def parent (p : Path) : Path :=
  let head := p.take p.headLength
  match trimParts (parts (p.drop p.headLength)) with
  | [] => []
  | ps => head ++ ofParts (trimParts ps.dropLast)

end Path

end Diagnostics
