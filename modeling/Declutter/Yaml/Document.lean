import Declutter.Setting
import Declutter.Text.Numeral
import Declutter.Yaml.Node

/-!
# YAML documents

A settings file is a stream with one document at most. A scalar has no type of its own: it is read
as what is asked for, if its text and its style allow it.
-/

namespace Declutter.Yaml

/-- A document: its node, and the anchored nodes within it. -/
structure Document where
  root : Node
  anchored : List Anchored

namespace Document

/-- What handles stand for unless a document says otherwise. -/
def standardHandles : List (Text × Text) :=
  [(['!'], ['!']), (['!', '!'], "tag:yaml.org,2002:".toList)]

/-- The directives before a document: one version at most, and each handle once. -/
def directives? (versioned : Bool) (handles : List (Text × Text)) :
    List Token → Option (List (Text × Text) × List Token)
  | .version major minor :: ts =>
    if versioned ∨ major ≠ 1 ∨ (minor ≠ 1 ∧ minor ≠ 2) then none else directives? true handles ts
  | .handle name base :: ts =>
    if (handles.lookup name).isSome then none
    else directives? versioned (handles ++ [(name, base)]) ts
  | ts => some (handles, ts)

/-- Whether a token stands between documents. -/
def isBoundary : Token → Bool
  | .version .. | .handle .. | .documentStart | .documentEnd => true
  | _ => false

/-- The document that tokens write. Without any token it is empty. -/
def ofTokens? (ts : List Token) : Option Document := do
  let explicit := ts.head?.any fun t => isBoundary t && t != .documentEnd
  let (handles, rest) ← directives? false [] ts
  let rest ←
    match explicit, rest with
    | true, .documentStart :: rest => some rest
    | true, _ => none
    | false, rest => some rest
  let r : Reading := { rest, handles := handles ++ standardHandles }
  let isEmpty := if explicit then rest.head?.all isBoundary else rest.isEmpty
  let (root, r) ←
    if isEmpty then some (.empty, r) else node? (4 * rest.length + 4) true false r
  if r.rest.all (· == .documentEnd) then return ⟨root, r.anchored⟩ else failure

/-- The document that a text writes. -/
def ofText? (s : Text) : Option Document := (Token.ofText? s).bind ofTokens?

/-- What an anchor stands for: of the nodes with its number, the one that began last. -/
def anchor? (d : Document) (number : Nat) : Option Node :=
  let candidates := d.anchored.filter (·.number == number)
  (candidates.foldl (fun best a =>
    if best.all (·.place < a.place) then some a else best) (none : Option Anchored)).map (·.node)

/-- A node as it stands, or as its anchor says. -/
def follow (d : Document) : Node → Node
  | .reference number => (d.anchor? number).getD .empty
  | n => n

end Document

/-- A node within its document. -/
structure Value where
  document : Document
  node : Node

namespace Value

/-- Whether a scalar may be read as something else than text: if it is plain, or if it is a literal
block whose tag says so. -/
def isTyped (name : Text) (style : Style) (tag : Option Text) : Bool :=
  style == .plain ||
    style == .literal && tag == some ("tag:yaml.org,2002:".toList ++ name)

/-- A count: digits after an optional plus sign, with no zero in front, or with the sign of another
base. -/
def count? (s : Text) : Option Nat :=
  let s := if s.head? = some '+' then s.tail else s
  match s with
  | '0' :: 'x' :: digits => Text.word? 16 digits
  | '0' :: 'o' :: digits => Text.word? 8 digits
  | '0' :: 'b' :: digits => Text.word? 2 digits
  | '0' :: _ :: _ => none
  | digits => Text.word? 10 digits

/-- A truth value. -/
def flag? (s : Text) : Option Bool :=
  if ["true".toList, "True".toList, "TRUE".toList].contains s then some true
  else if ["false".toList, "False".toList, "FALSE".toList].contains s then some false
  else none

/-- The scalar of a value. -/
def scalar? (v : Value) : Option Text :=
  match v.document.follow v.node with
  | .scalar _ _ s => some s
  | _ => none

/-- A scalar that may be read as something else than text. -/
def typed? (name : Text) (v : Value) : Option Text :=
  match v.document.follow v.node with
  | .scalar style tag s => if isTyped name style tag then some s else none
  | _ => none

/-- The items of a sequence; nothing is a sequence without items. -/
def items? (v : Value) : Option (List Value) :=
  match v.document.follow v.node with
  | .sequence ns => some (ns.map (⟨v.document, ·⟩))
  | .scalar .plain _ [] => some []
  | _ => none

/-- A field whose key is a scalar. -/
def field? (d : Document) (field : Node × Node) : Option (Text × Value) :=
  (scalar? ⟨d, field.1⟩).map fun s => (s, ⟨d, field.2⟩)

/-- The fields of a mapping; nothing is a mapping without fields. -/
def fields? (v : Value) : Option (List (Text × Value)) :=
  match v.document.follow v.node with
  | .mapping fs => fs.mapM (field? v.document)
  | .scalar .plain _ [] => some []
  | _ => none

instance : Setting Value where
  text? := scalar?
  count? v := (typed? "int".toList v).bind count?
  flag? v := (typed? "bool".toList v).bind flag?
  items? := items?
  fields? v := (fields? v).map .named
  isHarmless _ := true

end Value

end Declutter.Yaml
