import Declutter.Text.Basic

/-!
# Settings

What a configuration asks of the values of a settings format, whichever format it is. A value may be
readable in several ways (a plain YAML scalar is a text as well as a number), so each way is a
question of its own.
-/

namespace Declutter

/-- The fields of a record: by name, or by position where a format allows a list for a record. -/
inductive Fields (ν : Type) where
  | named (fields : List (Text × ν))
  | positional (values : List ν)

/-- The ways to read a value. -/
class Setting (ν : Type) where
  text? : ν → Option Text
  count? : ν → Option Nat
  flag? : ν → Option Bool
  items? : ν → Option (List ν)
  fields? : ν → Option (Fields ν)
  /-- Whether a value that nobody asks for may stand. -/
  isHarmless : ν → Bool

namespace Setting

variable {ν : Type} [Setting ν]

/-- A list of texts. -/
def texts? (v : ν) : Option (List Text) := (items? v).bind (·.mapM text?)

end Setting

namespace Fields

variable {ν : Type} [Setting ν]

/-- The field of a given name and position: what `read?` makes of it, or `default` if it is missing.
A field given twice cannot be read. -/
def get? (fs : Fields ν) (position : Nat) (name : Text) (read? : ν → Option α) (default : α) :
    Option α :=
  match fs with
  | .named fields =>
    match fields.filter (·.1 == name) with
    | [] => some default
    | [(_, v)] => read? v
    | _ => none
  | .positional values =>
    match values[position]? with
    | some v => read? v
    | none => some default

/-- Whether all fields but those of the given names may stand. -/
def othersHarmless (fs : Fields ν) (names : List Text) : Bool :=
  match fs with
  | .named fields => fields.all fun (k, v) => names.contains k || Setting.isHarmless v
  | .positional _ => true

end Fields

end Declutter
