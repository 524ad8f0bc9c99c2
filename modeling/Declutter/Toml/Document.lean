import Declutter.Toml.Scalar

/-!
# TOML documents

A document is a sequence of lines: headers that open tables, and fields of the table that was opened
last. `Document.table?` gives the table that a text writes.
-/

namespace Declutter.Toml

/-! ## Gaps -/

/-- Whether a character is a blank within a line. -/
def isSpace (c : Char) : Bool := c == ' ' || c == '\t'

/-- A text without the blanks at its front. -/
def skipSpace (s : Text) : Text := s.dropWhile isSpace

/-- What follows blanks, comments and line ends; `none` if a comment has a control character. -/
def skipGap (inComment : Bool) : Text → Option Text
  | [] => some []
  | '\r' :: '\n' :: s => skipGap false s
  | c :: s =>
    if c == '\n' then skipGap false s
    else if inComment then if isPrintable c then skipGap true s else none
    else if isSpace c then skipGap false s
    else if c == '#' then skipGap true s
    else some (c :: s)

/-- What follows the end of the line: nothing but blanks and a comment may stand before it. -/
def endLine? (s : Text) : Option Text :=
  let s := skipSpace s
  let s := if s.head? = some '#' then s.dropWhile isPrintable else s
  match s with
  | [] => some []
  | '\n' :: s => some s
  | '\r' :: '\n' :: s => some s
  | _ => none

/-! ## Keys -/

/-- Whether a character may stand in a bare key. -/
def isKeyChar (c : Char) : Bool := c.isAlphanum || c == '_' || c == '-'

/-- One part of a key. -/
def keyPart? (s : Text) : Option (Text × Text) :=
  match s with
  | '"' :: s => basic s
  | '\'' :: s => literal s
  | s =>
    let (run, rest) := s.span isKeyChar
    if run = [] then none else some (run, rest)

/-- A dotted key: the parts before the last one, the last one, and what follows. `bound` is at least
the number of parts. -/
def key? (bound : Nat) (s : Text) : Option (List Text × Text × Text) :=
  match bound with
  | 0 => none
  | bound + 1 => do
    let (part, rest) ← keyPart? (skipSpace s)
    match skipSpace rest with
    | '.' :: rest =>
      let (path, last, rest) ← key? bound rest
      return (part :: path, last, rest)
    | rest => return ([], part, rest)

/-! ## Values -/

/-- How deep lists and inline tables may stand in each other. -/
def depthLimit : Nat := 80

mutual

/-- A value, `depth` levels down. `bound` is at least the length of the text, here and below. -/
def value? (bound depth : Nat) (s : Text) : Option (Value × Text) :=
  match bound with
  | 0 => none
  | bound + 1 =>
    match s with
    | [] => none
    | '[' :: s =>
      if depth < depthLimit then do
        let (items, rest) ← items? bound (depth + 1) (← skipGap false s)
        return (.array items, rest)
      else none
    | '\x7b' :: s =>
      if depth < depthLimit then do
        let (fields, rest) ← fields? bound (depth + 1) [] (← skipGap false s)
        return (.table .inline fields, rest)
      else none
    | c :: s =>
      if c == '"' || c == '\'' then (string? (c :: s)).map fun (t, rest) => (.text t, rest)
      else
        let (run, rest) := bareRun (c :: s)
        (scalar? run).map fun v => (v, rest)

/-- The items of a list up to its bracket. -/
def items? (bound depth : Nat) (s : Text) : Option (List Value × Text) :=
  match bound with
  | 0 => none
  | bound + 1 =>
    match s with
    | ']' :: rest => some ([], rest)
    | s => do
      let (v, rest) ← value? bound depth s
      match ← skipGap false rest with
      | ']' :: rest => return ([v], rest)
      | ',' :: rest =>
        let (vs, rest) ← items? bound depth (← skipGap false rest)
        return (v :: vs, rest)
      | _ => none

/-- The fields of an inline table up to its brace, put into the table so far. -/
def fields? (bound depth : Nat) (t : Table) (s : Text) : Option (Table × Text) :=
  match bound with
  | 0 => none
  | bound + 1 =>
    match s with
    | '\x7d' :: rest => some (t, rest)
    | s => do
      let (path, key, rest) ← key? bound s
      let rest ← mark? '=' rest
      let (v, rest) ← value? bound depth (skipSpace rest)
      let t ← t.addField path key v .header
      match ← skipGap false rest with
      | '\x7d' :: rest => return (t, rest)
      | ',' :: rest => fields? bound depth t (← skipGap false rest)
      | _ => none

end

/-! ## Lines -/

/-- A document as far as it was read: its table, and the header that fields go under. -/
structure Document where
  table : Table := []
  header : List Text := []

namespace Document

/-- Adds a field to the table that was opened last. -/
def addField (d : Document) (path : List Text) (key : Text) (v : Value) : Option Document :=
  (d.table.update false (Table.addField path key v) d.header .header).map fun t =>
    { d with table := t }

/-- One line that is not empty: a header or a field. Gives what follows it. -/
def line? (d : Document) (s : Text) : Option (Document × Text) :=
  match s with
  | '[' :: '[' :: s => do
    let (path, key, rest) ← key? (s.length + 1) s
    let rest ← endLine? (← mark? ']' (← mark? ']' rest))
    return ({ table := ← d.table.openElement path key, header := path ++ [key] }, rest)
  | '[' :: s => do
    let (path, key, rest) ← key? (s.length + 1) s
    let rest ← endLine? (← mark? ']' rest)
    return ({ table := ← d.table.openTable path key, header := path ++ [key] }, rest)
  | s => do
    let (path, key, rest) ← key? (s.length + 1) s
    let rest := skipSpace (← mark? '=' rest)
    let (v, rest) ← value? (2 * rest.length + 2) 0 rest
    return (← d.addField path key v, ← endLine? rest)

/-- All lines. `bound` is more than the length of the text. -/
def lines? (d : Document) (bound : Nat) (s : Text) : Option Document :=
  match bound with
  | 0 => none
  | bound + 1 => do
    match ← skipGap false s with
    | [] => return d
    | s =>
      let (d, rest) ← d.line? s
      d.lines? bound rest

/-- The table that a text writes. A byte order mark at its front does not count. -/
def table? (s : Text) : Option Table :=
  let s := if s.head? = some '\uFEFF' then s.tail else s
  (lines? {} (s.length + 1) s).map (·.table)

end Document

end Declutter.Toml
