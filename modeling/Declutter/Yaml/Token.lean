import Declutter.Text.Utf8
import Declutter.Yaml.Scalar

/-!
# YAML tokens

A text becomes a list of tokens in which indentation is explicit: blocks have a token at their start
and one at their end. A key shows only at its colon, so the scan remembers for each flow level where
one may have begun, and puts its tokens in there when the colon comes. A key fits on one line and in
1024 characters.
-/

namespace Declutter.Yaml

/-- The tokens of a stream. -/
inductive Token where
  | version (major minor : Nat)
  /-- What a tag handle stands for in the document. -/
  | handle (name base : Text)
  | documentStart
  | documentEnd
  | sequenceStart
  | mappingStart
  | blockEnd
  | openSequence
  | closeSequence
  | openMapping
  | closeMapping
  /-- The dash before an item of a block sequence. -/
  | dash
  | comma
  | key
  | value
  | reference (name : Text)
  | anchor (name : Text)
  | tag (handle suffix : Text)
  | scalar (style : Style) (text : Text)
  deriving DecidableEq, Repr

/-- Where a key may have begun: how many tokens were before it, and its position. -/
structure Candidate where
  number : Nat
  position : Cursor
  /-- Whether nothing but a key can stand there. -/
  required : Bool

/-- A stream as far as it was scanned. -/
structure Scan where
  cursor : Cursor
  tokens : List Token := []
  /-- The candidate of this flow level, and those of the levels around it. -/
  candidate : Option Candidate := none
  outer : List (Option Candidate) := []
  /-- The indentations of the open blocks, innermost first. -/
  indents : List Nat := []
  keyAllowed : Bool := true

namespace Scan

/-- Whether the scan is between brackets or braces. -/
def inFlow (x : Scan) : Bool := !x.outer.isEmpty

/-- One more token. -/
def push (x : Scan) (t : Token) : Scan := { x with tokens := x.tokens ++ [t] }

/-! ## Indentation -/

/-- Opens a block at a column, if none is open there, with its token at a place in the list. -/
def openBlock (x : Scan) (column number : Nat) (t : Token) : Scan :=
  if !x.inFlow && x.indents.head?.all (· < column) then
    { x with indents := column :: x.indents, tokens := x.tokens.insertIdx number t }
  else x

/-- Closes the blocks whose indentation passes a test, from the innermost on. -/
def closeBlocks (x : Scan) (test : Nat → Bool) : Scan :=
  if x.inFlow then x
  else
    { x with
      tokens := x.tokens ++ (x.indents.takeWhile test).map fun _ => .blockEnd
      indents := x.indents.dropWhile test }

/-! ## Keys -/

/-- Gives up a candidate; one that is required cannot be given up. -/
def dropKey (x : Scan) : Option Scan :=
  if x.candidate.any (·.required) then none else some { x with candidate := none }

/-- Remembers that a key may begin here. -/
def saveKey (x : Scan) : Option Scan :=
  if x.keyAllowed then
    let required := !x.inFlow && x.indents.head? == some x.cursor.column
    x.dropKey.map fun x => { x with candidate := some ⟨x.tokens.length, x.cursor, required⟩ }
  else some x

/-- Whether a candidate is too far away for its colon. -/
def isStale (p : Cursor) (k : Candidate) : Bool :=
  k.position.line < p.line || k.position.index + 1024 < p.index

/-- Gives up all candidates that are too far away. -/
def dropStale (x : Scan) : Option Scan :=
  if (x.candidate :: x.outer).any (·.any fun k => isStale x.cursor k && k.required) then none
  else
    let keep (k : Option Candidate) := k.filter (!isStale x.cursor ·)
    some { x with candidate := keep x.candidate, outer := x.outer.map keep }

/-! ## Between tokens -/

/-- Past blanks, comments and line ends. A tab does not count as a blank where a key may begin. -/
def skipGap (bound : Nat) (x : Scan) : Scan :=
  match bound with
  | 0 => x
  | bound + 1 =>
    let tabs := x.inFlow || !x.keyAllowed
    let p := x.cursor
    let p := if p.index = 0 ∧ p.sees '\uFEFF' then p.advance else p
    let p := (p.passWhile fun c => c == ' ' || tabs && c == '\t').2.passComment
    if p.head?.any isBreak then
      skipGap bound { x with cursor := p.passBreak.2, keyAllowed := x.keyAllowed || !x.inFlow }
    else { x with cursor := p }

/-! ## Directives and tags -/

/-- A number of up to nine digits. -/
def versionNumber? (p : Cursor) : Option (Nat × Cursor) :=
  let (ds, p) := p.passWhile Char.isDigit
  if ds ≠ [] ∧ ds.length ≤ 9 then some (ds.value 10, p) else none

/-- A handle: a name between exclamation marks, or as much of that as is there. -/
def handle? (p : Cursor) : Option (Text × Cursor) :=
  if p.sees '!' then
    let (name, p) := p.advance.passWhile isNameChar
    if p.sees '!' then some ('!' :: name ++ ['!'], p.advance) else some ('!' :: name, p)
  else none

/-- Whether a character may stand in a tag. -/
def isTagChar (c : Char) : Bool := isNameChar c || c ∈ ";/?:@&=+$.%!~*'()".toList

/-- Whether a character may stand in a tag between angle brackets. -/
def isVerbatimChar (c : Char) : Bool := isTagChar c || c ∈ [',', '[', ']']

/-- The byte of a percent sign and two digits. -/
def escapedByte? (p : Cursor) : Option (UInt8 × Cursor) :=
  let digits : Text := (p.rest.drop 1).take 2
  if p.sees '%' ∧ digits.length = 2 ∧ Text.isNumeral 16 digits then
    some ((Text.value 16 digits).toUInt8, p.advance 3)
  else none

/-- `n` bytes, each of which continues a character. -/
def escapedTails? : Nat → Cursor → Option (List UInt8 × Cursor)
  | 0, p => some ([], p)
  | n + 1, p => do
    let (b, p) ← escapedByte? p
    if b &&& 0xC0 != 0x80 then failure
    let (bs, p) ← escapedTails? n p
    return (b :: bs, p)

/-- How many bytes follow the first byte of a character. -/
def tailCount? (b : UInt8) : Option Nat :=
  if b &&& 0x80 == 0 then some 0
  else if b &&& 0xE0 == 0xC0 then some 1
  else if b &&& 0xF0 == 0xE0 then some 2
  else if b &&& 0xF8 == 0xF0 then some 3
  else none

/-- The characters of a tag; percent signs write the bytes of a character. -/
def tagText? (test : Char → Bool) (bound : Nat) (p : Cursor) : Option (Text × Cursor) :=
  match bound with
  | 0 => none
  | bound + 1 =>
    match p.head? with
    | none => some ([], p)
    | some c =>
      if !test c then some ([], p)
      else if c == '%' then do
        let (b, p) ← escapedByte? p
        let (bs, p) ← escapedTails? (← tailCount? b) p
        let (s, p) ← tagText? test bound p
        return (Text.decodeLossy (b :: bs) ++ s, p)
      else (tagText? test bound p.advance).map fun (s, p) => (c :: s, p)

/-- A tag: its handle and what follows the handle. Between angle brackets, and for a lone
exclamation mark, the handle is empty. -/
def tag? (p : Cursor) : Option (Text × Text × Cursor) := do
  let bound := p.rest.length + 1
  if p.at? 1 = some '<' then
    let (s, p) ← tagText? isVerbatimChar bound (p.advance 2)
    if s ≠ [] ∧ p.sees '>' then return ([], s, p.advance) else failure
  else
    let (name, p) ← handle? p
    let (s, p) ← tagText? isTagChar bound p
    if 1 < name.length ∧ name.getLast? = some '!' then
      if s = [] then failure else return (name, s, p)
    else
      let s := name.drop 1 ++ s
      if s = [] then return ([], ['!'], p) else return (['!'], s, p)

/-- A directive after its percent sign, up to the end of its line. -/
def directive? (p : Cursor) : Option (Token × Cursor) := do
  let (name, p) := p.passWhile isNameChar
  if !p.isGapAt 0 then failure
  let p := p.passSpaces
  let (t, p) ←
    if name = "YAML".toList then do
      let (major, p) ← versionNumber? p
      if !p.sees '.' then failure
      let (minor, p) ← versionNumber? p.advance
      pure (Token.version major minor, p)
    else if name = "TAG".toList then do
      let (name, p) ← handle? p
      if name.getLast? ≠ some '!' then failure
      if !(p.head?.any isSpace) then failure
      let p := p.passSpaces
      let (base, p) ← tagText? isVerbatimChar (p.rest.length + 1) p
      if base = [] ∨ !p.isGapAt 0 then failure
      pure (Token.handle name base, p)
    else none
  let p := p.passSpaces.passComment
  if p.isLineEnd then return (t, p.passBreak.2) else failure

/-- The name of an anchor or a reference, after its sign. -/
def anchorName? (p : Cursor) : Option (Text × Cursor) :=
  let (name, p) := p.passWhile isNameChar
  if name ≠ [] ∧ (p.isGapAt 0 ∨ p.seesOneOf 0 "?:,]\x7d%@`".toList) then some (name, p) else none

/-! ## Tokens -/

/-- Ends all blocks and keys, as at the start and end of a document. -/
def settle (x : Scan) : Option Scan :=
  (x.closeBlocks fun _ => true).dropKey.map fun x => { x with keyAllowed := false }

/-- A directive. -/
def readDirective (x : Scan) : Option Scan := do
  let x ← x.settle
  let (t, p) ← directive? x.cursor.advance
  return { x.push t with cursor := p }

/-- The mark of the start or end of a document. -/
def readMark (x : Scan) (t : Token) : Option Scan := do
  let x ← x.settle
  return { x.push t with cursor := x.cursor.advance 3 }

/-- An opening bracket or brace. -/
def readOpening (x : Scan) (t : Token) : Option Scan := do
  let x ← x.saveKey
  return { x.push t with
    cursor := x.cursor.advance
    candidate := none
    outer := x.candidate :: x.outer
    keyAllowed := true }

/-- A closing bracket or brace. -/
def readClosing (x : Scan) (t : Token) : Option Scan := do
  let x ← x.dropKey
  let x := { x.push t with cursor := x.cursor.advance, keyAllowed := false }
  match x.outer with
  | [] => return x
  | k :: outer => return { x with candidate := k, outer }

/-- A comma between brackets or braces. -/
def readComma (x : Scan) : Option Scan := do
  let x ← x.dropKey
  return { x.push .comma with cursor := x.cursor.advance, keyAllowed := true }

/-- A sign that stands where a key may begin, and opens a block there. -/
def readSign (x : Scan) (start sign : Token) : Option Scan := do
  if !x.inFlow && !x.keyAllowed then failure
  let x ← (x.openBlock x.cursor.column x.tokens.length start).dropKey
  return { x.push sign with cursor := x.cursor.advance }

/-- The dash before an item. -/
def readDash (x : Scan) : Option Scan :=
  (x.readSign .sequenceStart .dash).map fun x => { x with keyAllowed := true }

/-- The question mark before a key. -/
def readKey (x : Scan) : Option Scan :=
  (x.readSign .mappingStart .key).map fun x => { x with keyAllowed := !x.inFlow }

/-- The colon before a value. If a key may have begun before it, the key's tokens go in there. -/
def readValue (x : Scan) : Option Scan :=
  match x.candidate with
  | some k =>
    let x := { x with tokens := x.tokens.insertIdx k.number .key, candidate := none }
    let x := x.openBlock k.position.column k.number .mappingStart
    some { x.push .value with cursor := x.cursor.advance, keyAllowed := false }
  | none =>
    (x.readSign .mappingStart .value).map fun x => { x with keyAllowed := !x.inFlow }

/-- A token that a key may begin with. -/
def readNode (x : Scan) (read? : Cursor → Option (Token × Cursor)) : Option Scan := do
  let x ← x.saveKey
  let (t, p) ← read? x.cursor
  return { x.push t with cursor := p, keyAllowed := false }

/-- A tag, which a blank or a comma ends. -/
def readTag (x : Scan) : Option Scan := do
  let x ← x.readNode fun p => (tag? p).map fun (handle, s, p) => (.tag handle s, p)
  if x.cursor.isGapAt 0 ∨ (x.inFlow ∧ x.cursor.sees ',') then return x else failure

/-- A block scalar. -/
def readBlock (x : Scan) (style : Style) : Option Scan := do
  let x ← x.dropKey
  let (s, p) ← block (style == .folded) x.indents.head? x.cursor.advance
  return { x.push (.scalar style s) with cursor := p, keyAllowed := true }

/-- A scalar between quotes. -/
def readQuoted (x : Scan) (quote : Char) : Option Scan :=
  x.readNode fun p =>
    (quoted quote (p.rest.length + 1) p.advance).map fun (s, p) => (.scalar .quoted s, p)

/-- A plain scalar. After one that ran into the next line, a key may begin. -/
def readPlain (x : Scan) : Option Scan := do
  let x ← x.saveKey
  let indent := x.indents.head?.elim 0 (· + 1)
  let (s, broken, p) ← plain x.inFlow indent (x.cursor.rest.length + 1) {} x.cursor
  return { x.push (.scalar .plain s) with cursor := p, keyAllowed := broken }

/-- Whether a plain scalar may begin at the cursor. -/
def seesPlain (x : Scan) : Bool :=
  let p := x.cursor
  (!p.isGapAt 0 && !p.seesOneOf 0 "-?:,[]\x7b\x7d#&*!|>'\"%@`".toList) ||
    (p.sees '-' && !((p.at? 1).any isSpace)) ||
    (!x.inFlow && p.seesOneOf 0 ['?', ':'] && !p.isGapAt 1)

/-- The token at the cursor, which is not at the end of the text. -/
def readToken (x : Scan) : Option Scan :=
  let p := x.cursor
  if p.column = 0 ∧ p.sees '%' then x.readDirective
  else if p.seesMark '-' then x.readMark .documentStart
  else if p.seesMark '.' then x.readMark .documentEnd
  else if p.sees '[' then x.readOpening .openSequence
  else if p.sees '\x7b' then x.readOpening .openMapping
  else if p.sees ']' then x.readClosing .closeSequence
  else if p.sees '\x7d' then x.readClosing .closeMapping
  else if p.sees ',' then x.readComma
  else if p.sees '-' ∧ p.isGapAt 1 then x.readDash
  else if p.sees '?' ∧ (x.inFlow ∨ p.isGapAt 1) then x.readKey
  else if p.sees ':' ∧ (x.inFlow ∨ p.isGapAt 1) then x.readValue
  else if p.sees '*' then
    x.readNode fun p => (anchorName? p.advance).map fun (n, p) => (.reference n, p)
  else if p.sees '&' then
    x.readNode fun p => (anchorName? p.advance).map fun (n, p) => (.anchor n, p)
  else if p.sees '!' then x.readTag
  else if p.sees '|' ∧ !x.inFlow then x.readBlock .literal
  else if p.sees '>' ∧ !x.inFlow then x.readBlock .folded
  else if p.sees '\'' then x.readQuoted '\''
  else if p.sees '"' then x.readQuoted '"'
  else if x.seesPlain then x.readPlain
  else none

/-- All tokens to the end of the text. `bound` is more than the length of the text. -/
def readAll (bound : Nat) (x : Scan) : Option (List Token) :=
  match bound with
  | 0 => none
  | bound + 1 => do
    let x ← (x.skipGap (x.cursor.rest.length + 1)).dropStale
    let x := x.closeBlocks (x.cursor.column < ·)
    if x.cursor.rest.isEmpty then return (← x.settle).tokens
    (← x.readToken).readAll bound

end Scan

/-- The tokens of a text. -/
def Token.ofText? (s : Text) : Option (List Token) :=
  if s.all isAllowed then ({ cursor := { rest := s } } : Scan).readAll (s.length + 1) else none

end Declutter.Yaml
