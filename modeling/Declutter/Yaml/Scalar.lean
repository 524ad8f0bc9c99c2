import Declutter.Text.Numeral
import Declutter.Yaml.Cursor

/-!
# YAML scalars

Plain, quoted and block scalars. In the first two a single line end folds to a blank, and of several
the first is dropped; a block scalar keeps its lines or folds them, as its header says. Every reader
has a `bound` on the number of its steps, which is more than the length of the text.
-/

namespace Declutter.Yaml

/-- How a scalar is written. -/
inductive Style where
  | plain
  | quoted
  | literal
  | folded
  deriving DecidableEq, Repr

/-! ## Blanks between words -/

/-- What stands between two words of a scalar. -/
structure Gap where
  /-- The blanks, if the line goes on. -/
  spaces : Text := []
  /-- Whether a line ended. -/
  broken : Bool := false
  /-- The first line end, and those after it. -/
  first : Text := []
  more : Text := []

namespace Gap

/-- What a gap becomes in the scalar. -/
def fold (g : Gap) : Text :=
  if !g.broken then g.spaces
  else if g.first.head? != some '\n' then g.first ++ g.more
  else if g.more = [] then [' ']
  else g.more

/-- Reads on over blanks and line ends. `refuse` says which blanks may not stand where they do, once
a line has ended. -/
def read (refuse : Cursor → Bool) (bound : Nat) (g : Gap) (p : Cursor) : Option (Gap × Cursor) :=
  match bound with
  | 0 => none
  | bound + 1 =>
    match p.head? with
    | none => some (g, p)
    | some c =>
      if isSpace c then
        if !g.broken then read refuse bound { g with spaces := g.spaces ++ [c] } p.advance
        else if refuse p then none
        else read refuse bound g p.advance
      else if isBreak c then
        let (ends, p) := p.passBreak
        if g.broken then read refuse bound { g with more := g.more ++ ends } p
        else read refuse bound { g with spaces := [], broken := true, first := ends } p
      else some (g, p)

end Gap

/-! ## Plain scalars -/

/-- One word of a plain scalar: up to a gap, or to a character that ends the scalar. -/
def plainWord (inFlow : Bool) (bound : Nat) (p : Cursor) : Option (Text × Cursor) :=
  match bound with
  | 0 => none
  | bound + 1 =>
    match p.head? with
    | none => some ([], p)
    | some c =>
      if p.isGapAt 0 then some ([], p)
      else if inFlow && c == ':' && p.seesOneOf 1 [',', '?', '[', ']', '\x7b', '\x7d'] then none
      else if c == ':' && p.isGapAt 1 then some ([], p)
      else if inFlow && (c ∈ [',', '[', ']', '\x7b', '\x7d'] || c == '?' && p.at? 1 == some ' ')
      then some ([], p)
      else (plainWord inFlow bound p.advance).map fun (w, p) => (c :: w, p)

/-- A plain scalar in a block of the given indentation, after a gap. Gives the scalar, whether the
gap at its end has a line end, and what follows that gap. -/
def plain (inFlow : Bool) (indent : Nat) (bound : Nat) (g : Gap) (p : Cursor) :
    Option (Text × Bool × Cursor) :=
  match bound with
  | 0 => none
  | bound + 1 => do
    if p.isDocumentMark || p.sees '#' then return ([], g.broken, p)
    let (word, p) ← plainWord inFlow (bound + 1) p
    let front := if word = [] then [] else g.fold ++ word
    let g := if word = [] then g else {}
    if !(p.head?.any fun c => isSpace c || isBreak c) then return (front, g.broken, p)
    let refuse (p : Cursor) := p.column < indent && p.sees '\t'
    let (g, p) ← g.read refuse (bound + 1) p
    if !inFlow && p.column < indent then return (front, g.broken, p)
    let (s, broken, p) ← plain inFlow indent bound g p
    return (front ++ s, broken, p)

/-! ## Quoted scalars -/

/-- What a single character after a backslash stands for. -/
def escaped? (c : Char) : Option Char :=
  match c with
  | '0' => some '\x00'
  | 'a' => some '\x07'
  | 'b' => some '\x08'
  | 't' => some '\t'
  | '\t' => some '\t'
  | 'n' => some '\n'
  | 'v' => some '\x0b'
  | 'f' => some '\x0c'
  | 'r' => some '\r'
  | 'e' => some '\x1b'
  | ' ' => some ' '
  | '"' => some '"'
  | '/' => some '/'
  | '\\' => some '\\'
  | 'N' => some '\x85'
  | '_' => some '\xa0'
  | 'L' => some '\u2028'
  | 'P' => some '\u2029'
  | _ => none

/-- How many digits follow the letter of a numeric escape. -/
def escapeWidth? (c : Char) : Option Nat :=
  match c with
  | 'x' => some 2
  | 'u' => some 4
  | 'U' => some 8
  | _ => none

/-- The escape after a backslash, and what follows it. -/
def escape? (p : Cursor) : Option (Char × Cursor) := do
  let c ← p.head?
  match escapeWidth? c with
  | none => return (← escaped? c, p.advance)
  | some n =>
    let digits := (p.rest.drop 1).take n
    if digits.length = n then return (← Text.charOfHex? digits, p.advance (n + 1)) else failure

/-- One word of a quoted scalar: up to a gap, the closing quote, or a line end after a backslash.
The flag says whether it was the latter. -/
def quotedWord (quote : Char) (bound : Nat) (p : Cursor) : Option (Text × Bool × Cursor) :=
  match bound with
  | 0 => none
  | bound + 1 =>
    match p.head? with
    | none => some ([], false, p)
    | some c =>
      if p.isGapAt 0 then some ([], false, p)
      else if quote == '\'' && c == '\'' && p.at? 1 == some '\'' then
        (quotedWord quote bound (p.advance 2)).map fun (w, r) => ('\'' :: w, r)
      else if c == quote then some ([], false, p)
      else if quote == '"' && c == '\\' then
        if (p.at? 1).any isBreak then some ([], true, p.advance.passBreak.2)
        else do
          let (e, p) ← escape? p.advance
          let (w, r) ← quotedWord quote bound p
          return (e :: w, r)
      else (quotedWord quote bound p.advance).map fun (w, r) => (c :: w, r)

/-- A quoted scalar after its opening quote, and what follows its closing quote. -/
def quoted (quote : Char) (bound : Nat) (p : Cursor) : Option (Text × Cursor) :=
  match bound with
  | 0 => none
  | bound + 1 => do
    if p.isDocumentMark || p.rest.isEmpty then failure
    let (word, broken, p) ← quotedWord quote (bound + 1) p
    if p.sees quote then return (word, p.advance)
    let (g, p) ← Gap.read (fun _ => false) (bound + 1) { broken } p
    let (s, p) ← quoted quote bound p
    return (word ++ g.fold ++ s, p)

/-! ## Block scalars -/

/-- What happens to the line ends at the end of a block scalar. -/
inductive Chomping where
  | strip
  | clip
  | keep
  deriving DecidableEq, Repr

/-- The sign for chomping, if there is one. -/
def chomping? (p : Cursor) : Option Chomping :=
  if p.sees '+' then some .keep else if p.sees '-' then some .strip else none

/-- The digit for the indentation, if there is one; zero is refused. -/
def increment? (p : Cursor) : Option (Option Nat) :=
  match p.head? with
  | some '0' => none
  | some c => some (if c.isDigit then hexDigit? c else none)
  | none => some none

/-- The header of a block scalar: chomping, and indentation relative to the block. The sign and the
digit come in either order. -/
def blockHeader (p : Cursor) : Option (Chomping × Option Nat × Cursor) := do
  match chomping? p with
  | some chomping =>
    match ← increment? p.advance with
    | some n => return (chomping, some n, p.advance 2)
    | none => return (chomping, none, p.advance)
  | none =>
    match ← increment? p with
    | some n =>
      match chomping? p.advance with
      | some chomping => return (chomping, some n, p.advance 2)
      | none => return (.clip, some n, p.advance)
    | none => return (.clip, none, p)

/-- The empty lines before a line of a block scalar: their line ends, and the greatest indentation.
Without a known indentation, all blanks in front of a line are indentation. -/
def emptyLines (indent : Option Nat) (bound : Nat) (p : Cursor) : Option (Text × Nat × Cursor) :=
  match bound with
  | 0 => none
  | bound + 1 =>
    let spaces := (p.rest.takeWhile (· == ' ')).length
    let p := p.advance (indent.elim spaces fun n => min spaces (n - p.column))
    if indent.all (p.column < ·) && p.sees '\t' then none
    else if p.head?.any isBreak then
      let (ends, next) := p.passBreak
      (emptyLines indent bound next).map fun (more, widest, next) =>
        (ends ++ more, max p.column widest, next)
    else some ([], p.column, p)

/-- The lines of a block scalar, one after the other. `blank` says whether the line before began
with a blank, `last` is its line end, `more` are the ends of empty lines after it. Gives the scalar,
and the line ends that chomping decides on. -/
def blockLines (folded : Bool) (indent : Nat) (bound : Nat) (blank : Bool) (last more : Text)
    (p : Cursor) : Option (Text × Text × Text × Cursor) :=
  match bound with
  | 0 => none
  | bound + 1 =>
    if p.column != indent || p.rest.isEmpty then some ([], last, more, p)
    else do
      let indented := p.head?.any isSpace
      let joined :=
        if folded && last.head? == some '\n' && !blank && !indented then
          if more = [] then [' '] else more
        else last ++ more
      let (line, p) := p.passWhile (!isBreak ·)
      let (ends, p) := p.passBreak
      let (empties, _, p) ← emptyLines (some indent) (bound + 1) p
      let (s, last, more, p) ← blockLines folded indent bound indented ends empties p
      return (joined ++ line ++ s, last, more, p)

/-- A block scalar after its indicator, in a block of the given indentation, and what follows it. -/
def block (folded : Bool) (parent : Option Nat) (p : Cursor) : Option (Text × Cursor) := do
  let (chomping, increment, p) ← blockHeader p
  let p := p.passSpaces.passComment
  if !p.isLineEnd then failure
  let p := p.passBreak.2
  let indent := increment.map (parent.getD 0 + ·)
  let (ends, widest, p) ← emptyLines indent (p.rest.length + 1) p
  let indent := indent.getD (max widest (parent.elim 1 (· + 1)))
  let (s, last, more, p) ← blockLines folded indent (p.rest.length + 1) false [] ends p
  let tail :=
    match chomping with
    | .strip => []
    | .clip => last
    | .keep => last ++ more
  return (s ++ tail, p)

end Declutter.Yaml
