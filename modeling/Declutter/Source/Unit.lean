import Declutter.Path

/-!
# Source units

A source unit is a file's text with the path that leads to the file and its path within the tree.
-/

namespace Declutter

/-- A source file that was found: where it is, and where it is within the tree that was searched. -/
structure SourceFile where
  path : Path
  relative : Path
  deriving DecidableEq, Repr

/-- A source file with its text. -/
structure SourceUnit extends SourceFile where
  text : Text
  deriving DecidableEq, Repr

namespace SourceUnit

/-- A unit whose path within the tree is all that is known of its place. -/
def ofText (relative : Path) (text : Text) : SourceUnit :=
  { path := relative, relative, text }

/-- The name of a unit in reports. -/
def display (u : SourceUnit) : Text := u.relative.display

end SourceUnit

end Declutter
