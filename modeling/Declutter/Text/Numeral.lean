import Declutter.Text.Basic

/-!
# Numerals

Numbers written in digits, of a base up to sixteen.
-/

namespace Declutter

/-- The value of a digit, of sixteen. -/
def hexDigit? (c : Char) : Option Nat :=
  if c.isDigit then some (c.toNat - '0'.toNat)
  else if 'a' ≤ c && c ≤ 'f' then some (c.toNat - 'a'.toNat + 10)
  else if 'A' ≤ c && c ≤ 'F' then some (c.toNat - 'A'.toNat + 10)
  else none

/-- The first number that a machine word cannot hold. -/
def wordLimit : Nat := Nat.pow 2 64

namespace Text

/-- The number that digits write in a base. -/
def value (base : Nat) (digits : Text) : Nat :=
  digits.foldl (fun n c => base * n + (hexDigit? c).getD 0) 0

/-- Whether a text is one or more digits of a base. -/
def isNumeral (base : Nat) (s : Text) : Bool :=
  s ≠ [] && s.all fun c => (hexDigit? c).any (· < base)

/-- The number that digits write, if a machine word of 64 bits can hold it. -/
def word? (base : Nat) (digits : Text) : Option Nat :=
  let n := value base digits
  if isNumeral base digits ∧ n < wordLimit then some n else none

/-- The character whose number is written in hexadecimal digits. -/
def charOfHex? (digits : Text) : Option Char :=
  let n := value 16 digits
  if isNumeral 16 digits ∧ n.isValidChar then some (Char.ofNat n) else none

end Text

end Declutter
