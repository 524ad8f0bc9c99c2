import Declutter.Text.Basic

/-!
# Reading positions

YAML depends on where things stand: a cursor is what is left of a text, with the index, line and
column of its first character. Five characters end a line, and a carriage return before a line feed
counts with it.
-/

namespace Declutter.Yaml

/-- Whether a text may hold a character at all. -/
def isAllowed (c : Char) : Bool :=
  let n := c.toNat
  n == 0x09 || n == 0x0A || n == 0x0D || (0x20 ≤ n && n ≤ 0x7E) || n == 0x85 ||
    (0xA0 ≤ n && n ≤ 0xFFFD) || 0x10000 ≤ n

/-- Whether a character ends a line. -/
def isBreak (c : Char) : Bool :=
  c == '\r' || c == '\n' || c == '\x85' || c == '\u2028' || c == '\u2029'

/-- Whether a character is a blank within a line. -/
def isSpace (c : Char) : Bool := c == ' ' || c == '\t'

/-- The characters of names: anchors, handles and directives. -/
def isNameChar (c : Char) : Bool := c.isAlphanum || c == '_' || c == '-'

/-- What is left of a text, and where it begins. -/
structure Cursor where
  rest : Text
  index : Nat := 0
  line : Nat := 0
  column : Nat := 0
  deriving Repr

namespace Cursor

/-- The character at the cursor. -/
def head? (p : Cursor) : Option Char := p.rest.head?

/-- The character some way after the cursor. -/
def at? (p : Cursor) (n : Nat) : Option Char := p.rest[n]?

/-- Whether a character stands at the cursor. -/
def sees (p : Cursor) (c : Char) : Bool := p.head? == some c

/-- Whether one of some characters stands some way after the cursor. -/
def seesOneOf (p : Cursor) (n : Nat) (cs : List Char) : Bool := (p.at? n).any (· ∈ cs)

/-- Whether a blank, a line end or the end of the text stands some way after the cursor. -/
def isGapAt (p : Cursor) (n : Nat) : Bool := (p.at? n).all fun c => isSpace c || isBreak c

/-- Whether a line end or the end of the text stands at the cursor. -/
def isLineEnd (p : Cursor) : Bool := p.head?.all isBreak

/-- Past some characters of the line. -/
def advance (p : Cursor) (n : Nat := 1) : Cursor :=
  { p with rest := p.rest.drop n, index := p.index + n, column := p.column + n }

/-- Past the line end at the cursor, with what it counts as in a scalar. -/
def passBreak (p : Cursor) : Text × Cursor :=
  let next (n : Nat) : Cursor :=
    { rest := p.rest.drop n, index := p.index + n, line := p.line + 1, column := 0 }
  match p.rest with
  | '\r' :: '\n' :: _ => (['\n'], next 2)
  | c :: _ =>
    if c == '\u2028' || c == '\u2029' then ([c], next 1)
    else if isBreak c then (['\n'], next 1)
    else ([], p)
  | [] => ([], p)

/-- Past the longest run of characters that pass a test, with the run. -/
def passWhile (test : Char → Bool) (p : Cursor) : Text × Cursor :=
  let run := p.rest.takeWhile test
  (run, p.advance run.length)

/-- Past the blanks at the cursor. -/
def passSpaces (p : Cursor) : Cursor := (p.passWhile isSpace).2

/-- Past the comment at the cursor, if there is one. -/
def passComment (p : Cursor) : Cursor :=
  if p.sees '#' then (p.passWhile (!isBreak ·)).2 else p

/-- Whether three of a character stand alone at the front of a line: the mark of a document. -/
def seesMark (p : Cursor) (c : Char) : Bool :=
  p.column == 0 && p.rest.take 3 == [c, c, c] && p.isGapAt 3

/-- Whether a document starts or ends at the cursor. -/
def isDocumentMark (p : Cursor) : Bool := p.seesMark '-' || p.seesMark '.'

end Cursor

end Declutter.Yaml
