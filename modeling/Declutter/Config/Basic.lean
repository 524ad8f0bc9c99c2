import Declutter.Lexicon
import Declutter.Path

/-!
# Configurations

What a run is told: where to read, where to write, what counts as source and what counts as long.
-/

namespace Declutter

/-- The settings of a run. -/
structure Config where
  /-- The tree that is read. -/
  input : Path
  /-- The tree that is written; it is deleted first. -/
  output : Path
  /-- The report file; a relative path is taken from `output`. -/
  report : Path
  /-- Methods that span more line ends than this are marked. -/
  lineThreshold : Nat
  /-- The extensions of source files, without the dot. -/
  extensions : List Text
  /-- Whether files are treated independently of each other's failures. -/
  parallel : Bool
  lexicon : Lexicon
  deriving DecidableEq, Repr

namespace Config

/-- The settings that hold where nothing else is said. -/
def standard : Config where
  input := "Code"
  output := "Code_Cleaned"
  report := "UNUSED_SCRIPTS_REPORT.txt"
  lineThreshold := 25
  extensions := ["cs".toList]
  parallel := false
  lexicon := .csharp

instance : Inhabited Config := ⟨standard⟩

/-- Where the report is written. -/
def reportPath (c : Config) : Path := c.output.join c.report

/-- Whether a path names a source file. -/
def isSource (c : Config) (p : Path) : Bool := p.extension?.any (· ∈ c.extensions)

end Config

end Declutter
