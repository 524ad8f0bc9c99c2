import Declutter.Text.Basic

/-!
# JSON

The values that reports are made of, and their layout: two blanks of indentation for each level, one
member a line, empty lists and objects on one line.
-/

namespace Declutter

/-- A JSON value; numbers are the natural ones. -/
inductive Json where
  | text (s : Text)
  | number (n : Nat)
  | list (items : List Json)
  | object (members : List (Text × Json))

namespace Json

/-- The last two digits of a control character's number. -/
def hexPair (n : Nat) : Text := [Nat.digitChar (n / 16 % 16), Nat.digitChar (n % 16)]

/-- A character between quotes: quote, backslash and control characters are escaped. -/
def escape (c : Char) : Text :=
  if c == '"' then ['\\', '"']
  else if c == '\\' then ['\\', '\\']
  else if c == '\x08' then ['\\', 'b']
  else if c == '\t' then ['\\', 't']
  else if c == '\n' then ['\\', 'n']
  else if c == '\x0c' then ['\\', 'f']
  else if c == '\r' then ['\\', 'r']
  else if c.toNat < 0x20 then ['\\', 'u', '0', '0'] ++ hexPair c.toNat
  else [c]

/-- A text between quotes. -/
def quote (s : Text) : Text := '"' :: s.flatMap escape ++ ['"']

/-- A new line, indented by `depth` levels. -/
def newLine (depth : Nat) : Text := '\n' :: List.replicate (2 * depth) ' '

/-- Items on lines of their own, between brackets. -/
def enclose (left right : Char) (depth : Nat) (items : List Text) : Text :=
  if items.isEmpty then [left, right]
  else
    [left] ++ newLine (depth + 1) ++ (',' :: newLine (depth + 1)).intercalate items ++
      newLine depth ++ [right]

mutual

/-- A value laid out at a depth. -/
def render (depth : Nat) : Json → Text
  | .text s => quote s
  | .number n => Nat.toDigits 10 n
  | .list items => enclose '[' ']' depth (renderItems (depth + 1) items)
  | .object members => enclose '{' '}' depth (renderMembers (depth + 1) members)

/-- The items of a list, each laid out. -/
def renderItems (depth : Nat) : List Json → List Text
  | [] => []
  | j :: js => render depth j :: renderItems depth js

/-- The members of an object, each laid out. -/
def renderMembers (depth : Nat) : List (Text × Json) → List Text
  | [] => []
  | (k, j) :: ms => (quote k ++ [':', ' '] ++ render depth j) :: renderMembers depth ms

end

/-- A value laid out on its own. -/
def pretty (j : Json) : Text := render 0 j

end Json

end Declutter
