import Declutter.Command.Basic

/-!
# The program

The thin layer around `Command.execute`. It copies the part of the file system that a run can reach
into a disk, runs the command on it, and carries the changes of the disk over to the file system.
-/

namespace Declutter.Main

/-- The absolute path of a place. -/
def pathOf (p : Place) : String := String.ofList ('/' :: ['/'].intercalate p)

/-- The place of an absolute path without links. -/
def placeOf (path : String) : Place := (path.toList.splitOn '/').filter (· ≠ [])

/-- What the file system has at a place, if it can be seen. A link counts by where it leads. -/
def entryAt? (p : Place) : IO (Option Entry) := do
  try
    match (← ((← IO.currentDir) / pathOf p).symlinkMetadata).type with
    | .dir => return some .dir
    | .symlink =>
      let target ← try pure (← IO.FS.realPath (pathOf p)).toString catch _ => pure ""
      return some (.link target)
    | .file =>
      try return some (.file { bytes := (← IO.FS.readBinFile (pathOf p)).toList })
      catch _ => return some (.file { bytes := [], readable := false })
    | .other => return none
  catch _ => return none

/-- Copies the steps of a path, and gives the place that it leads to. -/
def copySteps (d : Disk) (p : Place) : List Step → IO (Disk × Option Place)
  | [] => return (d, some p)
  | .here :: steps => copySteps d p steps
  | .up :: steps => copySteps d p.dropLast steps
  | .down name :: steps => do
    let next := p ++ [name]
    match ← entryAt? next with
    | none => return (d, none)
    | some (.link target) =>
      let real := placeOf (String.ofList target.text)
      let d := real.foldl (fun (d, q) n => (Disk.put d (q ++ [n]) .dir, q ++ [n])) (d, ([] : Place))
      let d := d.1.put next (.link target)
      match ← entryAt? real with
      | none => return (d, none)
      | some e => copySteps (d.put real e) real steps
    | some e => copySteps (d.put next e) next steps

/-- Copies a directory with all that is in it. -/
partial def copyTree (d : Disk) (p : Place) : IO Disk := do
  let mut d := d
  for child in ← ((← IO.currentDir) / pathOf p).readDir do
    let next := p ++ [child.fileName.toList]
    match ← entryAt? next with
    | none => pure ()
    | some .dir => d ← copyTree (d.put next .dir) next
    | some e => d := d.put next e
  return d

/-- Copies what a path leads to. -/
def copyPath (d : Disk) (p : Path) : IO Disk := do
  match ← copySteps d (p.start d.workDir) p.steps with
  | (d, some place) => if d.entry? place = some .dir then copyTree d place else return d
  | (d, none) => return d

/-- Copies all that a command line can reach. -/
def copyReachable (args : List Text) : IO Disk := do
  let d := Disk.withWorkDir (placeOf (← IO.currentDir).toString)
  match Arguments.read args with
  | .error _ => return d
  | .ok a =>
    let d ← (a.config.elim Config.fileNames ([·])).foldlM copyPath d
    match a.configure d with
    | .error _ => return d
    | .ok c =>
      let d ← [c.input, c.output].foldlM copyPath d
      match c.reportPath.parent? with
      | none => return d
      | some p => return (← copySteps d (p.start d.workDir) p.steps).1

/-- Carries the changes of a disk over to the file system: first what is gone, from the inside out,
then what is new. -/
def carryOver (before after : Disk) : IO Unit := do
  for (p, e) in before.entries.entries.reverse do
    match e, after.entry? p with
    | .dir, some .dir | .link _, some (.link _) => pure ()
    | .file old, some (.file new) =>
      if old.readable ≠ new.readable then IO.FS.removeFile (pathOf p)
    | .dir, _ => IO.FS.removeDir (pathOf p)
    | _, _ => IO.FS.removeFile (pathOf p)
  for (p, e) in after.entries.entries do
    if before.entry? p ≠ some e then
      match e with
      | .dir => IO.FS.createDir (pathOf p)
      | .file data => IO.FS.writeBinFile (pathOf p) ⟨data.bytes.toArray⟩
      | .link _ => pure ()

/-- Reports a failure. -/
def reportFailure (f : Failure) : IO Unit := do
  IO.eprintln s!"Error: {String.ofList f.code}"
  IO.eprintln s!"  × {String.ofList f.message}"
  if let some help := f.help? then IO.eprintln s!"  help: {String.ofList help}"

end Declutter.Main

open Declutter in
/-- Runs the program. -/
def main (args : List String) : IO UInt32 := do
  let begun ← IO.monoMsNow
  let args := args.map (·.toList)
  let before ← Main.copyReachable args
  let (outcome, after) := Command.execute args before
  Main.carryOver before after
  let stdout ← IO.getStdout
  let styled := usesStyles (← IO.getEnv "CLICOLOR_FORCE") (← IO.getEnv "NO_COLOR")
    (← IO.getEnv "CLICOLOR") (← stdout.isTty)
  stdout.putStr (String.ofList (outcome.output styled (((← IO.monoMsNow) - begun) / 10)))
  stdout.flush
  if let some f := outcome.failure? then Main.reportFailure f
  if outcome.exitCode = 2 then IO.eprintln "error: invalid arguments; '--help' shows the right ones"
  return outcome.exitCode.toUInt32
