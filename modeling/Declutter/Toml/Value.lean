import Declutter.Setting
import Declutter.Text.Numeral

/-!
# TOML values and tables

A document builds its tables bit by bit, and how a table came about decides who may add to it: a
table with a header of its own gets one header only, a table made by dotted keys grows by dotted
keys only, and an inline table is closed.
-/

namespace Declutter.Toml

/-- How a table came about. -/
inductive Origin where
  /-- By a header of its own. -/
  | header
  /-- By a header of a table within it. -/
  | implied
  /-- By dotted keys. -/
  | dotted
  /-- Between braces. -/
  | inline
  deriving DecidableEq, Repr

/-- A value. A float is its digits and a power of ten, or `none` for infinities and NaN. -/
inductive Value where
  | text (s : Text)
  | integer (n : Int)
  | float (decimal : Option (Nat × Int))
  | flag (b : Bool)
  | moment (s : Text)
  | array (items : List Value)
  | table (origin : Origin) (fields : List (Text × Value))
  /-- The tables that headers in double brackets made, in order. -/
  | tables (elements : List (List (Text × Value)))

/-- The fields of a table. -/
abbrev Table := List (Text × Value)

namespace Table

/-- Gives a field that is there another value. -/
def replace (t : Table) (key : Text) (v : Value) : Table :=
  t.map fun (k, old) => if k = key then (k, v) else (k, old)

/-- Changes the table at the end of a path, and makes the tables on the way that are missing. Dotted
keys may not enter a table that has a header of its own, and nothing may enter an inline table. -/
def update (dotted : Bool) (change : Origin → Table → Option Table) :
    List Text → Origin → Table → Option Table
  | [], origin, t => change origin t
  | key :: path, _, t =>
    match t.lookup key with
    | none =>
      let origin := if dotted then .dotted else .implied
      (update dotted change path origin []).map fun sub => t ++ [(key, .table origin sub)]
    | some (.table origin sub) =>
      if origin = .inline ∨ dotted ∧ origin = .header then none
      else (update dotted change path origin sub).map fun sub => t.replace key (.table origin sub)
    | some (.tables elements) =>
      match elements.getLast? with
      | none => none
      | some last =>
        (update dotted change path .header last).map fun last =>
          t.replace key (.tables (elements.dropLast ++ [last]))
    | some _ => none

/-- Adds a field under a dotted key, relative to a table of the given origin. -/
def addField (path : List Text) (key : Text) (v : Value) (origin : Origin) (t : Table) :
    Option Table :=
  update true (fun origin t =>
    if (origin = .dotted) ↔ path = [] then none
    else if (t.lookup key).isSome then none
    else some (t ++ [(key, v)])) path origin t

/-- Opens the table of a header. -/
def openTable (path : List Text) (key : Text) (t : Table) : Option Table :=
  update false (fun _ t =>
    match t.lookup key with
    | none => some (t ++ [(key, .table .header [])])
    | some (.table .implied sub) => some (t.replace key (.table .header sub))
    | some _ => none) path .header t

/-- Opens a further table of a header in double brackets. -/
def openElement (path : List Text) (key : Text) (t : Table) : Option Table :=
  update false (fun _ t =>
    match t.lookup key with
    | none => some (t ++ [(key, .tables [[]])])
    | some (.tables elements) => some (t.replace key (.tables (elements ++ [[]])))
    | some _ => none) path .header t

end Table

/-- Whether digits times a power of ten round to a finite double. -/
def isFiniteDouble (digits : Nat) (exponent : Int) : Bool :=
  let limit := Nat.pow 2 1024 - Nat.pow 2 970
  let size := (Nat.toDigits 10 digits).length + exponent
  if digits = 0 then true
  else if size < 309 then true
  else if 309 < size then false
  else digits * Nat.pow 10 exponent.toNat < limit * Nat.pow 10 (-exponent).toNat

mutual

/-- Whether the numbers in a value have a machine form: 128 bits for integers, doubles for
floats. -/
def Value.isRepresentable : Value → Bool
  | .integer n => -2 ^ 127 ≤ n && n < 2 ^ 128
  | .float (some (digits, exponent)) => isFiniteDouble digits exponent
  | .array items => allRepresentable items
  | .table _ fields => fieldsRepresentable fields
  | .tables elements => tablesRepresentable elements
  | _ => true

/-- All of a list. -/
def allRepresentable : List Value → Bool
  | [] => true
  | v :: vs => v.isRepresentable && allRepresentable vs

/-- All fields of a table. -/
def fieldsRepresentable : List (Text × Value) → Bool
  | [] => true
  | (_, v) :: fs => v.isRepresentable && fieldsRepresentable fs

/-- All fields of several tables. -/
def tablesRepresentable : List (List (Text × Value)) → Bool
  | [] => true
  | t :: ts => fieldsRepresentable t && tablesRepresentable ts

end

instance : Setting Value where
  text?
    | .text s => some s
    | _ => none
  count?
    | .integer n => if 0 ≤ n ∧ n < wordLimit then some n.toNat else none
    | _ => none
  flag?
    | .flag b => some b
    | _ => none
  items?
    | .array items => some items
    | .tables elements => some (elements.map (.table .header))
    | _ => none
  fields?
    | .table _ fields => some (.named fields)
    | .array items => some (.positional items)
    | .tables elements => some (.positional (elements.map (.table .header)))
    | _ => none
  isHarmless := Value.isRepresentable

end Declutter.Toml
