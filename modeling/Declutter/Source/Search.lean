import Declutter.Config.Basic
import Declutter.Disk.Listing
import Declutter.Disk.Lookup
import Declutter.Failure
import Declutter.Source.Unit
import Declutter.Text.Utf8

/-!
# Finding and loading sources

The sources of a tree are its files with a configured extension, in the order of a sorted walk.
Links within the tree are not followed, and one directory may be left out.
-/

namespace Declutter

/-- Whether the path of a directory leads to the one that a search leaves out. -/
def Disk.isLeftOut (d : Disk) (skip : Option Path) (path : Path) : Bool :=
  skip.any fun s => (d.resolve? s).isSome && d.resolve? path == d.resolve? s

namespace Config

/-- The sources in a directory and in the directories within it, without the one left out. The
names lead to the directory from the place of the root of the search. -/
def sourcesIn (c : Config) (d : Disk) (skip : Option Path) (place : Place) (path : Path)
    (names : Place) : List SourceFile :=
  (d.children (place ++ names)).attach.flatMap fun ⟨(n, e), _⟩ =>
    match e with
    | .file _ =>
      if c.isSource (path.join ⟨n⟩) then
        [{ path := path.join ⟨n⟩, relative := ⟨['/'].intercalate (names ++ [n])⟩ }]
      else []
    | .dir =>
      if d.isLeftOut skip (path.join ⟨n⟩) then []
      else c.sourcesIn d skip place (path.join ⟨n⟩) (names ++ [n])
    | .link _ => []
termination_by (d.within (place ++ names)).length
decreasing_by
  rw [← List.append_assoc]
  exact Disk.length_within_lt ‹_›

/-- The sources under a directory, without those in the directory `skip`. The root itself is not
left out where it is a link. -/
def findSources (c : Config) (d : Disk) (skip : Option Path) (root : Path) :
    Except Failure (List SourceFile) :=
  match d.resolve? root with
  | none => .error (.missingInput root)
  | some place =>
    if d.entry? place ≠ some .dir then .error (.missingInput root)
    else if !d.isLink root && d.isLeftOut skip root then .ok []
    else .ok (c.sourcesIn d skip place root [])

end Config

/-- A source with its text; bytes that are not UTF-8 are replaced. -/
def SourceFile.load? (f : SourceFile) (d : Disk) : Option SourceUnit :=
  (d.read? f.path).map fun bytes => { f with text := Text.decodeLossy bytes }

/-- The sources that can be read, and how many cannot. -/
def Disk.loadAll (d : Disk) : List SourceFile → List SourceUnit × Nat
  | [] => ([], 0)
  | f :: files =>
    let (units, skipped) := d.loadAll files
    match f.load? d with
    | some u => (u :: units, skipped)
    | none => (units, skipped + 1)

end Declutter
