import Declutter.Text.WordRanges
import Declutter.Text.Basic

/-!
# Words

A word is a longest run of word characters. Names that the scans pick up are narrower: ASCII
letters, digits and underscores, not beginning with a digit.
-/

namespace Declutter

/-- Word characters: alphabetic characters, marks, decimal digits, connectors and join controls. -/
def isWord (c : Char) : Bool :=
  if c.toNat < 0x80 then c.isAlphanum || c == '_'
  else wordRanges.any fun (first, last) => first ≤ c.toNat && c.toNat ≤ last

/-- The first character of a name. -/
def isNameStart (c : Char) : Bool := c.isAlpha || c == '_'

/-- A character of a name, after the first. -/
def isNameChar (c : Char) : Bool := c.isAlphanum || c == '_'

/-- Whether a word begins or ends between two neighbours; the ends of a text have none. -/
def isWordEdge (left right : Option Char) : Bool := left.any isWord != right.any isWord

namespace Text

/-- The words of a text, from left to right. -/
def words (s : Text) : List Text := (s.splitOnP fun c => !isWord c).filter (· ≠ [])

end Text

end Declutter
