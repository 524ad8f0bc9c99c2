import Declutter.Disk.Basic

/-!
# Following paths

A path is followed step by step from the root or from the working directory. Every step starts in a
directory, `..` leads to the directory above, and a link on the way is replaced by its target, for
forty links at most. The link at the end of a path is followed or not, as is asked.
-/

namespace Declutter

/-- Why something cannot be done on a disk. -/
inductive DiskError where
  | notFound
  | notDirectory
  | isDirectory
  | exists
  | notEmpty
  | tooManyLinks
  | invalid
  deriving DecidableEq, Repr

/-- One step of a path on a disk. -/
inductive Step where
  | here
  | up
  | down (name : Text)
  deriving DecidableEq, Repr

namespace Path

/-- The step that a piece of a path is. -/
def step? (piece : Text) : Option Step :=
  if piece = [] then none
  else if piece = ['.'] then some .here
  else if piece = ['.', '.'] then some .up
  else some (.down piece)

/-- The steps of a path, without regard to a slash at its end. -/
def steps (p : Path) : List Step := p.pieces.filterMap step?

/-- Whether a path ends in a slash. -/
def endsInSlash (p : Path) : Bool := p.text.getLast? == some '/'

/-- All steps of a path: a slash at its end asks for a directory. -/
def fullSteps (p : Path) : List Step := p.steps ++ if p.endsInSlash then [.here] else []

/-- Where a path starts, seen from a directory. -/
def start (p : Path) (base : Place) : Place := if p.isAbsolute then [] else base

/-- Whether a path can lead anywhere at all. -/
def isValid (p : Path) : Bool := '\x00' ∉ p.text

end Path

namespace Disk

/-- How many links a path may lead through. -/
def linkLimit : Nat := 40

/-- Follows steps from a place, through at most `links` links. -/
def walk (d : Disk) (followLast : Bool) (links : Nat) (place : Place) (steps : List Step) :
    Except DiskError Place :=
  match steps with
  | [] => .ok place
  | step :: steps =>
    match d.entry? place with
    | none => .error .notFound
    | some (.file _) | some (.link _) => .error .notDirectory
    | some .dir =>
      match step with
      | .here => d.walk followLast links place steps
      | .up => d.walk followLast links place.dropLast steps
      | .down name =>
        match d.entry? (place ++ [name]) with
        | none => .error .notFound
        | some (.link target) =>
          if steps = [] ∧ !followLast then .ok (place ++ [name])
          else
            match links with
            | 0 => .error .tooManyLinks
            | links + 1 => d.walk followLast links (target.start place) (target.fullSteps ++ steps)
        | some _ => d.walk followLast links (place ++ [name]) steps
termination_by (links, steps.length)

/-- The place that a path leads to. -/
def lookup (d : Disk) (followLast : Bool) (p : Path) : Except DiskError Place :=
  if p.text = [] then .error .notFound
  else if !p.isValid then .error .invalid
  else d.walk followLast linkLimit (p.start d.workDir) p.fullSteps

/-- The place that a path leads to in the end. -/
def resolve? (d : Disk) (p : Path) : Option Place := (d.lookup true p).toOption

/-- What a path leads to in the end. -/
def find? (d : Disk) (p : Path) : Option Entry := (d.resolve? p).bind d.entry?

/-- Whether a path leads to a directory. -/
def isDir (d : Disk) (p : Path) : Bool := d.find? p == some .dir

/-- Whether a path leads to a file. -/
def isFile (d : Disk) (p : Path) : Bool :=
  match d.find? p with
  | some (.file _) => true
  | _ => false

/-- The bytes of the file that a path leads to, if they can be read. -/
def read? (d : Disk) (p : Path) : Option (List UInt8) :=
  match d.find? p with
  | some (.file data) => if data.readable then some data.bytes else none
  | _ => none

/-- Whether a path is itself a link. -/
def isLink (d : Disk) (p : Path) : Bool :=
  match (d.lookup false p).toOption.bind d.entry? with
  | some (.link _) => true
  | _ => false

/-- The directory that the last step of a path starts in, and that step; the root has none. -/
def locate (d : Disk) (start : Place) (p : Path) : Except DiskError (Place × Option Step) := do
  if p.text = [] then throw .notFound
  if !p.isValid then throw .invalid
  let parent ← d.walk true linkLimit (p.start start) p.steps.dropLast
  match d.entry? parent with
  | some .dir => return (parent, p.steps.getLast?)
  | some _ => throw .notDirectory
  | none => throw .notFound

end Disk

end Declutter
