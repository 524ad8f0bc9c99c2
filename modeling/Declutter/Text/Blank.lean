import Declutter.Text.Basic

/-!
# Blanks

The White_Space characters of Unicode, and trimming by them.
-/

namespace Declutter

/-- White_Space: the twenty-five characters that count as blank. -/
def isBlank (c : Char) : Bool :=
  let n := c.toNat
  (0x09 ≤ n && n ≤ 0x0D) || n == 0x20 || n == 0x85 || n == 0xA0 || n == 0x1680 ||
    (0x2000 ≤ n && n ≤ 0x200A) || n == 0x2028 || n == 0x2029 || n == 0x202F || n == 0x205F ||
    n == 0x3000

/-- A space or a tab: what indentation is made of. -/
def isIndent (c : Char) : Bool := c == ' ' || c == '\t'

namespace Text

/-- A text without the blanks at its front. -/
def trimStart (s : Text) : Text := s.dropWhile isBlank

/-- A text without the blanks at its end. -/
def trimEnd (s : Text) : Text := (s.reverse.dropWhile isBlank).reverse

/-- A text without the blanks at either end. -/
def trim (s : Text) : Text := trimEnd (trimStart s)

end Text

end Declutter
