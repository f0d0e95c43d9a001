import Diagnostics.Text.Lines

/-!
# Front matter

An explanation document opens with its front matter: a fence line of three dashes, the lines of
the front matter, and a closing line of three dashes or three dots.  The body begins at the
first line after it that is not blank.  Fences may have white space after them, and the document
may begin with a byte order mark.
-/

namespace Diagnostics

namespace FrontMatter

/-- Whether a line opens the front matter. -/
def opens (line : Text) : Bool := Text.trimEnd line = ['-', '-', '-']

/-- Whether a line closes the front matter. -/
def closes (line : Text) : Bool := opens line || Text.trimEnd line = ['.', '.', '.']

/-- The lines of a text from the first one on that is not blank. -/
def skipBlankLines (lines : List Text) : Text := (lines.dropWhile Text.isBlankText).flatten

/-- The front matter and the body of a document. -/
def split? (document : Text) : Option (Text × Text) :=
  match Text.lines (Text.dropMark document) with
  | [] => none
  | first :: lines =>
    if opens first then
      let matter := lines.takeWhile fun line => !closes line
      match lines.drop matter.length with
      | [] => none
      | _ :: rest => some (matter.flatten, skipBlankLines rest)
    else
      none

end FrontMatter

end Diagnostics
