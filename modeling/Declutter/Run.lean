import Declutter.Output
import Declutter.Report
import Declutter.Scrub
import Declutter.Source.Search

/-!
# Runs

A run checks its input, makes its output directory anew, and loads the sources. Their types are
indexed before anything is taken out of them. Then each is scrubbed into the output tree, and the
report of unused types is written.

The words of a lexicon are looked for as they are, however many and however long, and no patterns
are compiled from them. So a run has no failure for patterns that are too large to compile, which
would come between the check of the input and the making of the output directory.
-/

namespace Declutter

/-- A method that was marked: its file, its name, the number of its line, and its length. -/
structure AnnotatedMethod where
  file : Text
  name : Text
  line : Nat
  lineSpan : Nat
  deriving DecidableEq, Repr

/-- What a run has done. -/
structure RunSummary where
  found : Nat
  written : Nat
  skipped : Nat
  annotated : List AnnotatedMethod
  unused : UnusedReport
  outputRoot : Path
  reportPath : Path
  deriving DecidableEq, Repr

namespace Config

/-- Scrubs one source into the output tree. -/
def scrubUnit (c : Config) (tree : OutputTree) (u : SourceUnit) :
    DiskM Failure (List AnnotatedMethod) := do
  let scrubbed := c.scrub u.text
  let _ ← tree.write u.relative scrubbed.text
  return scrubbed.annotated.map fun m =>
    { file := u.display, name := m.name, line := m.startLine + 1, lineSpan := m.lineSpan }

/-- Scrubs sources one after the other, up to the first that fails. -/
def scrubInTurn (c : Config) (tree : OutputTree) (units : List SourceUnit) :
    DiskM Failure (List AnnotatedMethod) :=
  return (← units.mapM (c.scrubUnit tree)).flatten

/-- Scrubs all sources, and then fails if one of them has failed. -/
def scrubApart (c : Config) (tree : OutputTree) (units : List SourceUnit) :
    DiskM Failure (List AnnotatedMethod) := do
  let results ← units.mapM fun u => (c.scrubUnit tree u).attempt
  return (← results.mapM MonadExcept.ofExcept).flatten

/-- A run. -/
def run (c : Config) (format : ReportFormat) : DiskM Failure RunSummary := do
  if !(← get).isDir c.input then throw (.missingInput c.input)
  let tree ← OutputTree.recreate c.output c.input
  let d ← get
  let files ← MonadExcept.ofExcept (c.findSources d (some tree.root) c.input)
  let (units, skipped) := d.loadAll files
  let unused := (SymbolIndex.ofUnits c.lexicon units).unused
  let annotated ← if c.parallel then c.scrubApart tree units else c.scrubInTurn tree units
  writeText c.reportPath (unused.render format)
  return {
    found := files.length
    written := units.length
    skipped
    annotated
    unused
    outputRoot := tree.root
    reportPath := c.reportPath }

end Config

end Declutter
