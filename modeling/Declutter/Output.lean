import Declutter.Disk.Change
import Declutter.Failure
import Declutter.Text.Utf8

/-!
# The output tree

A run owns its output directory: it is removed with all that is in it and made anew before anything
is written. So it must not be the input directory, nor one above it.
-/

namespace Declutter

/-- The components of a path from the root, with links resolved where the path leads somewhere. -/
def Disk.absolute (d : Disk) (p : Path) : List Component :=
  let ofPlace (q : Place) : List Component := .root :: q.map .name
  match d.resolve? p with
  | some place => ofPlace place
  | none =>
    if p.isAbsolute then p.components
    else ofPlace d.workDir ++ p.components.filter (· ≠ .here)

/-- Whether a directory is another or is above it. -/
def Disk.overlaps (d : Disk) (root input : Path) : Bool :=
  (d.absolute root).isPrefixOf (d.absolute input)

/-- Writes the text of a file. -/
def writeText (p : Path) (s : Text) : DiskM Failure Unit :=
  (Disk.writeFile p s.utf8).rename fun _ => .write p

/-- An output directory that was made anew. -/
structure OutputTree where
  root : Path
  deriving DecidableEq, Repr

namespace OutputTree

/-- Makes an output directory anew. -/
def recreate (root input : Path) : DiskM Failure OutputTree := do
  let d ← get
  if d.overlaps root input then throw (.overlappingRoots input root)
  DiskM.rename (fun _ => .outputDir root) do
    if (d.find? root).isSome then Disk.removeDirs root
    Disk.makeDirs root
  return ⟨root⟩

/-- Writes a file of the tree, and gives its path. -/
def write (t : OutputTree) (relative : Path) (s : Text) : DiskM Failure Path := do
  writeText (t.root.join relative) s
  return t.root.join relative

end OutputTree

end Declutter
