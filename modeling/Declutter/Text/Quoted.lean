import Declutter.Text.HiddenRanges
import Declutter.Text.Basic

/-!
# Quoted texts in messages

A text between double quotes, with escapes for what would not show or would end the quotes.
-/

namespace Declutter

/-- Whether a character does not show on its own. -/
def isHidden (c : Char) : Bool :=
  c.toNat < 0x20 || hiddenRanges.any fun (first, last) => first ≤ c.toNat && c.toNat ≤ last

namespace Text

/-- A character between double quotes. -/
def escapeChar (c : Char) : Text :=
  if c == '"' || c == '\\' then ['\\', c]
  else if c == '\t' then ['\\', 't']
  else if c == '\r' then ['\\', 'r']
  else if c == '\n' then ['\\', 'n']
  else if c == '\x00' then ['\\', '0']
  else if isHidden c then ['\\', 'u', '\x7b'] ++ Nat.toDigits 16 c.toNat ++ ['\x7d']
  else [c]

/-- A text between double quotes. -/
def quoted (s : Text) : Text := '"' :: s.flatMap escapeChar ++ ['"']

end Text

end Declutter
