import Declutter.Ordered
import Declutter.Path

/-!
# Disks

A disk has an entry at each of its places: a file, a directory or a symbolic link. A file may be one
that cannot be read. Places are names from the root down, and increase in the order in which a
sorted walk meets them, a directory before what it holds.
-/

namespace Declutter

/-- A place on a disk: the names that lead to it from the root. -/
abbrev Place := List Text

/-- The bytes of a file, and whether they can be read. -/
structure FileData where
  bytes : List UInt8
  readable : Bool := true
  deriving DecidableEq, Repr

instance : Coe FileData (List UInt8) := ⟨FileData.bytes⟩

/-- What stands at a place. -/
inductive Entry where
  | file (data : FileData)
  | dir
  | link (target : Path)
  deriving DecidableEq, Repr

/-- The entries of a disk, and the place that relative paths start from. The root is always a
directory and has no entry of its own. -/
structure Disk where
  entries : OrderedMap Place Entry
  workDir : Place
  deriving DecidableEq

namespace Disk

/-- What stands at a place. -/
def entry? (d : Disk) (p : Place) : Option Entry := if p = [] then some .dir else d.entries.get? p

/-- Puts an entry at a place. -/
def put (d : Disk) (p : Place) (e : Entry) : Disk := { d with entries := d.entries.insert p e }

/-- Takes away the entries at the places that pass a test. -/
def eraseIf (d : Disk) (test : Place → Bool) : Disk :=
  { d with entries := d.entries.filterKeys (!test ·) }

/-- The entries within a directory and the directories in it, by the names that lead to them from
there. -/
def within (d : Disk) (p : Place) : List (Place × Entry) :=
  d.entries.entries.filterMap fun (q, e) =>
    match p.isPrefixOf? q with
    | some (n :: names) => some (n :: names, e)
    | _ => none

/-- A disk with one directory, which is the working directory, and those above it. -/
def withWorkDir (p : Place) : Disk :=
  (List.range p.length).foldl (fun d n => d.put (p.take (n + 1)) .dir) ⟨.empty, p⟩

end Disk

end Declutter
