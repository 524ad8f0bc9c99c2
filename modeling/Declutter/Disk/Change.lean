import Declutter.Disk.Lookup

/-!
# Changes on a disk

Directories are made, trees are removed and files are written. A change that fails half-way leaves
what it has done, so changes run in `DiskM`, which keeps the disk of a failed action.
-/

namespace Declutter

/-- An action on a disk that may fail. The disk after a failure is the one that the failure
left. -/
abbrev DiskM (ε : Type) := ExceptT ε (StateM Disk)

namespace DiskM

variable {ε δ α : Type}

/-- Runs an action on a disk. -/
def runOn (d : Disk) (action : DiskM ε α) : Except ε α × Disk := (action.run).run d

/-- Gives a failure another name. -/
def rename (f : ε → δ) (action : DiskM ε α) : DiskM δ α :=
  ExceptT.mk ((fun | .ok a => .ok a | .error e => .error (f e)) <$> action.run)

/-- A change that is done as a whole or not at all. -/
def change (f : Disk → Except ε Disk) : DiskM ε Unit := do
  set (← MonadExcept.ofExcept (f (← get)))

/-- Runs an action whose failure does not end the actions after it. -/
def attempt (action : DiskM ε α) : DiskM δ (Except ε α) := ExceptT.lift action.run

end DiskM

namespace Disk

/-! ## Directories -/

/-- Makes a directory in one that is there. -/
def makeDir (d : Disk) (p : Path) : Except DiskError Disk := do
  match ← d.locate d.workDir p with
  | (parent, some (.down name)) =>
    if (d.entry? (parent ++ [name])).isSome then throw .exists
    return d.put (parent ++ [name]) .dir
  | _ => throw .exists

/-- Makes a directory, or leaves one that is there already. -/
def ensureDir (d : Disk) (p : Path) : Except DiskError Disk :=
  match d.makeDir p with
  | .ok d => .ok d
  | .error e => if d.isDir p then .ok d else .error e

/-- Makes the directory of some components, given in reverse, and those above it as far as they are
missing. -/
def makeDirsUp : List Component → DiskM DiskError Unit
  | [] => pure ()
  | c :: above => do
    let p := Path.ofComponents (c :: above).reverse
    match (← get).ensureDir p with
    | .ok d => set d
    | .error .notFound =>
      makeDirsUp above
      DiskM.change (·.ensureDir p)
    | .error e => throw e

/-- Makes a directory, and those above it as far as they are missing. -/
def makeDirs (p : Path) : DiskM DiskError Unit := do
  if p.components = [] then return
  match (← get).ensureDir p with
  | .ok d => set d
  | .error .notFound =>
    makeDirsUp p.components.reverse.tail
    DiskM.change (·.ensureDir p)
  | .error e => throw e

/-! ## Removal -/

/-- Removes an empty directory. One that is not there counts as removed. -/
def removeDir (d : Disk) (p : Path) : Except DiskError Disk :=
  match d.locate d.workDir p with
  | .ok (parent, some (.down name)) =>
    let place := parent ++ [name]
    match d.entry? place with
    | none => .ok d
    | some .dir => if d.within place = [] then .ok (d.eraseIf (· == place)) else .error .notEmpty
    | some _ => .error .notDirectory
  | .ok _ => .error .invalid
  | .error .notFound => .ok d
  | .error e => .error e

/-- Removes a directory with all that is in it. Of a link, only the link is removed. -/
def removeDirs (p : Path) : DiskM DiskError Unit := do
  let d ← get
  let place ← MonadExcept.ofExcept (d.lookup false p)
  match d.entry? place with
  | some .dir =>
    set (d.eraseIf fun q => place.isPrefixOf q && q != place)
    DiskM.change (·.removeDir p)
  | some (.link _) => set (d.eraseIf (· == place))
  | some (.file _) => throw .notDirectory
  | none => throw .notFound

/-- Removes a file, a link, or a directory with all that is in it. -/
def remove (p : Path) : DiskM DiskError Unit := do
  let d ← get
  let place ← MonadExcept.ofExcept (d.lookup false p)
  if d.entry? place = some .dir then removeDirs p else set (d.eraseIf (· == place))

/-! ## Files and links -/

/-- Follows steps from a place to where a file is, or where nothing is yet, through at most `links`
links. The link at the end is followed too. -/
def walkToFile (d : Disk) (links : Nat) (place : Place) (steps : List Step) :
    Except DiskError Place :=
  match steps with
  | [] => .error .isDirectory
  | step :: steps =>
    match d.entry? place with
    | none => .error .notFound
    | some (.file _) | some (.link _) => .error .notDirectory
    | some .dir =>
      match step with
      | .here => d.walkToFile links place steps
      | .up => d.walkToFile links place.dropLast steps
      | .down name =>
        match d.entry? (place ++ [name]) with
        | some (.link target) =>
          match links with
          | 0 => .error .tooManyLinks
          | links + 1 => d.walkToFile links (target.start place) (target.fullSteps ++ steps)
        | e =>
          if steps ≠ [] then d.walkToFile links (place ++ [name]) steps
          else if e = some .dir then .error .isDirectory
          else .ok (place ++ [name])
termination_by (links, steps.length)

/-- The place that writing to a path makes or overwrites. -/
def fileTarget (d : Disk) (p : Path) : Except DiskError Place :=
  if p.text = [] then .error .notFound
  else if !p.isValid then .error .invalid
  else d.walkToFile linkLimit (p.start d.workDir) p.fullSteps

/-- A file at a place with other bytes. One that could not be read before still cannot. -/
def rewritten (d : Disk) (place : Place) (bytes : List UInt8) : FileData :=
  match d.entry? place with
  | some (.file data) => { data with bytes }
  | _ => { bytes }

/-- Writes a file in a directory that is there. -/
def putFile (d : Disk) (p : Path) (bytes : List UInt8) : Except DiskError Disk :=
  (d.fileTarget p).map fun place => d.put place (.file (d.rewritten place bytes))

/-- Makes the directories above a path, as far as they are missing. -/
def makeParents (p : Path) : DiskM DiskError Unit :=
  match p.parent? with
  | none => pure ()
  | some parent => makeDirs parent

/-- Writes a file, and makes the directories above it as far as they are missing. -/
def writeFile (p : Path) (bytes : List UInt8) : DiskM DiskError Unit := do
  makeParents p
  DiskM.change (·.putFile p bytes)

/-- Makes a link in a directory that is there. -/
def putLink (d : Disk) (p target : Path) : Except DiskError Disk := do
  match ← d.locate d.workDir p with
  | (parent, some (.down name)) =>
    if (d.entry? (parent ++ [name])).isSome then throw .exists
    return d.put (parent ++ [name]) (.link target)
  | _ => throw .exists

/-- Makes a link, and the directories above it as far as they are missing. -/
def makeLink (p target : Path) : DiskM DiskError Unit := do
  makeParents p
  DiskM.change (·.putLink p target)

end Disk

end Declutter
