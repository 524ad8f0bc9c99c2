import Declutter.Text.Basic

/-!
# Paths

A path is a text; its meaning is its components. Slashes in a row count as one, a slash at the end
does not count, and `.` counts only at the front of a relative path. Two paths with the same
components lead to the same place, but each keeps its own spelling for messages.
-/

namespace Declutter

/-- One step of a path. -/
inductive Component where
  /-- The slash at the front of an absolute path. -/
  | root
  /-- The directory itself, written `.`. -/
  | here
  /-- The directory above, written `..`. -/
  | up
  | name (text : Text)
  deriving DecidableEq, Repr

/-- How a component is written. -/
def Component.text : Component → Text
  | .root => ['/']
  | .here => ['.']
  | .up => ['.', '.']
  | .name n => n

/-- A path, as it is spelled. -/
structure Path where
  text : Text
  deriving DecidableEq, Repr

namespace Path

instance : Coe String Path := ⟨fun s => ⟨s.toList⟩⟩

/-- What stands between the slashes of a path. -/
def pieces (p : Path) : List Text := p.text.splitOn '/'

/-- Whether a path begins at the root. -/
def isAbsolute (p : Path) : Bool := p.text.head? == some '/'

/-- The component that a piece is, away from the front of a path. -/
def component? (piece : Text) : Option Component :=
  if piece = [] ∨ piece = ['.'] then none
  else if piece = ['.', '.'] then some .up
  else some (.name piece)

/-- The components of a path. -/
def components (p : Path) : List Component :=
  let steps := p.pieces.filterMap component?
  if p.isAbsolute then .root :: steps
  else if p.pieces.head? = some ['.'] then .here :: steps
  else steps

/-- The spelling of a path in reports: its components, with slashes between. -/
def display (p : Path) : Text := ['/'].intercalate (p.components.map (·.text))

/-- The path of some components. -/
def ofComponents : List Component → Path
  | .root :: steps => ⟨'/' :: ['/'].intercalate (steps.map (·.text))⟩
  | steps => ⟨['/'].intercalate (steps.map (·.text))⟩

/-- The path without its last component; the root has none before it. -/
def parent? (p : Path) : Option Path :=
  match p.components.getLast? with
  | none | some .root => none
  | some _ => some (ofComponents p.components.dropLast)

/-- A path taken relative to another; an absolute path stands for itself. -/
def join (p q : Path) : Path :=
  if q.isAbsolute then q
  else if p.text = [] ∨ p.text.getLast? = some '/' then ⟨p.text ++ q.text⟩
  else ⟨p.text ++ '/' :: q.text⟩

/-- The last component, if it is a name. -/
def fileName? (p : Path) : Option Text :=
  match p.components.getLast? with
  | some (.name n) => some n
  | _ => none

/-- What follows the last dot of a file name, if something stands before that dot. -/
def nameExtension? (n : Text) : Option Text :=
  let stem := (n.reverse.dropWhile (· != '.')).drop 1
  if stem = [] then none else some (n.drop (stem.length + 1))

/-- The extension of the file that a path names. -/
def extension? (p : Path) : Option Text := p.fileName?.bind nameExtension?

end Path

end Declutter
