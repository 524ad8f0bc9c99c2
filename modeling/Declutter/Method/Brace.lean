import Declutter.Text.Utf8

/-!
# Braces

Every `{` goes one level down and every `}` one level up; which of them stand in strings is not
known. `close?` finds where the level comes back to zero. It reads characters as well as bytes,
since a brace is one byte that no other character contains.
-/

namespace Declutter

/-- The two braces. -/
inductive Brace where
  | opening
  | closing
  deriving DecidableEq, Repr

namespace Brace

/-- The brace that a character is. -/
def ofChar (c : Char) : Option Brace :=
  if c == '{' then some .opening else if c == '}' then some .closing else none

/-- The brace that a byte is. -/
def ofByte (b : UInt8) : Option Brace :=
  if b == 0x7B then some .opening else if b == 0x7D then some .closing else none

/-- The position of the first closing brace that brings the level to zero. -/
def close? (brace : α → Option Brace) : Int → List α → Option Nat
  | _, [] => none
  | level, x :: xs =>
    match brace x with
    | some .opening => (close? brace (level + 1) xs).map (· + 1)
    | some .closing =>
      if level - 1 = 0 then some 0 else (close? brace (level - 1) xs).map (· + 1)
    | none => (close? brace level xs).map (· + 1)

/-- A byte offset beyond the end of a text. -/
structure OffsetError where
  offset : Nat
  size : Nat
  deriving DecidableEq, Repr

/-- The byte offset at which the level, counted from the byte at `start`, comes back to zero. -/
def matching? (s : Text) (start : Nat) : Except OffsetError (Option Nat) :=
  let bytes := s.utf8
  if start ≤ bytes.length then
    .ok ((close? ofByte 0 (bytes.drop start)).map (start + ·))
  else .error ⟨start, bytes.length⟩

end Brace

end Declutter
