import Declutter.Text.Numeral

/-!
# TOML strings

Four kinds: between double quotes with escapes, between single quotes without, and both over several
lines between tripled quotes. Each reader starts after the opening quotes and gives the string and
what follows the closing quotes.
-/

namespace Declutter.Toml

/-- Tabs and everything that is not a control character. -/
def isPrintable (c : Char) : Bool := c == '\t' || (0x20 ≤ c.toNat && c.toNat != 0x7F)

/-- What a single character after a backslash stands for. -/
def escaped? (c : Char) : Option Char :=
  match c with
  | 'b' => some '\x08'
  | 't' => some '\t'
  | 'n' => some '\n'
  | 'f' => some '\x0c'
  | 'r' => some '\r'
  | 'e' => some '\x1b'
  | '"' => some '"'
  | '\\' => some '\\'
  | _ => none

/-- One more character in front. -/
def push? (c : Option Char) (r : Option (Text × Text)) : Option (Text × Text) :=
  match c, r with
  | some c, some (s, rest) => some (c :: s, rest)
  | _, _ => none

/-- A string between double quotes. -/
def basic : Text → Option (Text × Text)
  | [] => none
  | '"' :: s => some ([], s)
  | '\\' :: 'x' :: a :: b :: s => push? (Text.charOfHex? [a, b]) (basic s)
  | '\\' :: 'u' :: a :: b :: c :: d :: s => push? (Text.charOfHex? [a, b, c, d]) (basic s)
  | '\\' :: 'U' :: a :: b :: c :: d :: e :: f :: g :: h :: s =>
    push? (Text.charOfHex? [a, b, c, d, e, f, g, h]) (basic s)
  | '\\' :: e :: s => push? (escaped? e) (basic s)
  | c :: s => if c == '\\' || !isPrintable c then none else push? (some c) (basic s)

/-- A string between single quotes. -/
def literal : Text → Option (Text × Text)
  | [] => none
  | '\'' :: s => some ([], s)
  | c :: s => if isPrintable c then push? (some c) (literal s) else none

/-- Whether a line ends here, blanks aside. -/
def endsLine (s : Text) : Bool :=
  match s.dropWhile fun c => c == ' ' || c == '\t' with
  | '\n' :: _ => true
  | '\r' :: '\n' :: _ => true
  | _ => false

/-- The quotes right after three closing ones belong to the string, up to two of them. -/
def closeLong (quote : Char) (s : Text) : Text × Text :=
  let extra := (s.takeWhile (· == quote)).take 2
  (extra, s.drop extra.length)

/-- A string between three double quotes. After a backslash at the end of a line, `trimming` takes
away all blanks and line ends up to the next character. -/
def longBasic (trimming : Bool) : Text → Option (Text × Text)
  | [] => none
  | '"' :: '"' :: '"' :: s => some (closeLong '"' s)
  | '\r' :: '\n' :: s =>
    if trimming then longBasic true s
    else push? (some '\r') (push? (some '\n') (longBasic false s))
  | '\\' :: 'x' :: a :: b :: s => push? (Text.charOfHex? [a, b]) (longBasic false s)
  | '\\' :: 'u' :: a :: b :: c :: d :: s => push? (Text.charOfHex? [a, b, c, d]) (longBasic false s)
  | '\\' :: 'U' :: a :: b :: c :: d :: e :: f :: g :: h :: s =>
    push? (Text.charOfHex? [a, b, c, d, e, f, g, h]) (longBasic false s)
  | '\\' :: e :: s =>
    if endsLine (e :: s) then longBasic true (e :: s)
    else push? (escaped? e) (longBasic false s)
  | c :: s =>
    if trimming && (c == ' ' || c == '\t' || c == '\n') then longBasic true s
    else if c == '\\' || !(isPrintable c || c == '\n') then none
    else push? (some c) (longBasic false s)

/-- A string between three single quotes. -/
def longLiteral : Text → Option (Text × Text)
  | [] => none
  | '\'' :: '\'' :: '\'' :: s => some (closeLong '\'' s)
  | '\r' :: '\n' :: s => push? (some '\r') (push? (some '\n') (longLiteral s))
  | c :: s => if isPrintable c || c == '\n' then push? (some c) (longLiteral s) else none

/-- A line end right after the opening quotes of a long string does not belong to it. -/
def dropFirstEnd : Text → Text
  | '\n' :: s => s
  | '\r' :: '\n' :: s => s
  | s => s

/-- A string of any kind at the front of a text. -/
def string? : Text → Option (Text × Text)
  | '"' :: '"' :: '"' :: s => longBasic false (dropFirstEnd s)
  | '"' :: s => basic s
  | '\'' :: '\'' :: '\'' :: s => longLiteral (dropFirstEnd s)
  | '\'' :: s => literal s
  | _ => none

end Declutter.Toml
