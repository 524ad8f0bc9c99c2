import Declutter.Config.File
import Declutter.Disk.Lookup

/-!
# Where configurations are found
-/

namespace Declutter.Config

/-- The configuration in a file. -/
def load (d : Disk) (p : Path) : Except Failure Config := ofBytes p (d.read? p)

/-- The configuration in the first of the usual files that a directory has, or the standard one. -/
def loadFrom (d : Disk) (dir : Path) : Except Failure Config :=
  match (fileNames.map dir.join).find? d.isFile with
  | some p => load d p
  | none => .ok standard

end Declutter.Config
