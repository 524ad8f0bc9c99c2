import Declutter.Yaml.Token

/-!
# YAML nodes

The nodes that tokens write. A reference stays a reference in the tree, and is looked up in the
anchors of the document when it is asked for. Every reader has a `bound` on the number of its steps,
which is more than four times the number of tokens.
-/

namespace Declutter.Yaml

/-- A node. A reference has the number that its anchor had where the reference stands. -/
inductive Node where
  | scalar (style : Style) (tag : Option Text) (text : Text)
  | sequence (items : List Node)
  | mapping (fields : List (Node × Node))
  | reference (anchor : Nat)
  deriving Repr

/-- The node of nothing. -/
def Node.empty : Node := .scalar .plain none []

/-- A node with an anchor. -/
structure Anchored where
  /-- How many anchored nodes began before it. -/
  place : Nat
  /-- The number of its anchor. -/
  number : Nat
  node : Node

/-- What is known while tokens are read. -/
structure Reading where
  /-- The tokens that are left. -/
  rest : List Token
  /-- What tag handles stand for. -/
  handles : List (Text × Text) := []
  /-- The numbers of anchor names. -/
  names : List (Text × Nat) := []
  /-- How many anchored nodes have begun. -/
  begun : Nat := 0
  /-- Those that were read to their ends. -/
  anchored : List Anchored := []

namespace Reading

/-- The next token. -/
def peek? (r : Reading) : Option Token := r.rest.head?

/-- Past the next token. -/
def skip (r : Reading) : Reading := { r with rest := r.rest.tail }

/-- Whether the next token is one of a few. -/
def sees (r : Reading) (ts : List Token) : Bool := r.peek?.any (· ∈ ts)

/-- The full name of a tag. -/
def tagName? (r : Reading) (handle suffix : Text) : Option Text :=
  if handle = [] then some suffix else (r.handles.lookup handle).map (· ++ suffix)

/-- What stands before a node. -/
structure Properties where
  anchor : Option Text := none
  tag : Option Text := none

/-- Reads the anchor and the tag before a node, in either order. -/
def properties? (r : Reading) : Option (Properties × Reading) :=
  match r.rest with
  | .anchor a :: .tag h s :: rest => do return (⟨a, ← r.tagName? h s⟩, { r with rest })
  | .anchor a :: rest => some (⟨a, none⟩, { r with rest })
  | .tag h s :: .anchor a :: rest => do return (⟨a, ← r.tagName? h s⟩, { r with rest })
  | .tag h s :: rest => do return (⟨none, ← r.tagName? h s⟩, { r with rest })
  | _ => some ({}, r)

/-- Begins an anchored node. The number of an anchor is how many names were known before, so a name
that is given again shares its number with the next new one. -/
def beginAnchor (r : Reading) (name : Text) : Reading :=
  { r with
    names := (name, r.names.length) :: r.names.filter (·.1 != name)
    begun := r.begun + 1 }

/-- Ends a node that began under an anchor after the reading `start`. -/
def endAnchor (r start : Reading) (n : Node) : Reading :=
  { r with anchored := ⟨start.begun, start.names.length, n⟩ :: r.anchored }

end Reading

mutual

/-- A node. In a block it may be a block itself, and in a field a sequence that is not indented. -/
def node? (bound : Nat) (inBlock inField : Bool) (r : Reading) : Option (Node × Reading) :=
  match bound with
  | 0 => none
  | bound + 1 =>
    match r.rest with
    | .reference name :: rest =>
      (r.names.lookup name).map fun n => (.reference n, { r with rest })
    | _ => do
      let (props, r) ← r.properties?
      match props.anchor with
      | none => content? bound inBlock inField props r
      | some name =>
        let (n, last) ← content? bound inBlock inField props (r.beginAnchor name)
        return (n, last.endAnchor r n)

/-- A node after its properties. With properties, it may be nothing. -/
def content? (bound : Nat) (inBlock inField : Bool) (props : Reading.Properties) (r : Reading) :
    Option (Node × Reading) :=
  match bound with
  | 0 => none
  | bound + 1 =>
    if inField ∧ r.sees [.dash] then
      (looseItems? bound r).map fun (ns, r) => (.sequence ns, r)
    else
      match r.peek? with
      | some (.scalar style s) => some (.scalar style props.tag s, r.skip)
      | some .openSequence =>
        (flowItems? bound true r.skip).map fun (ns, r) => (.sequence ns, r)
      | some .openMapping => (flowFields? bound true r.skip).map fun (fs, r) => (.mapping fs, r)
      | t =>
        if inBlock ∧ t = some .sequenceStart then
          (items? bound r.skip).map fun (ns, r) => (.sequence ns, r)
        else if inBlock ∧ t = some .mappingStart then
          (fields? bound r.skip).map fun (fs, r) => (.mapping fs, r)
        else if props.anchor.isSome ∨ props.tag.isSome then some (.scalar .plain props.tag [], r)
        else none

/-- A node, or nothing if one of some tokens stands there. -/
def nodeUnless? (bound : Nat) (ends : List Token) (inBlock inField : Bool) (r : Reading) :
    Option (Node × Reading) :=
  match bound with
  | 0 => none
  | bound + 1 => if r.sees ends then some (.empty, r) else node? bound inBlock inField r

/-- The value after a colon; without a colon, nothing. -/
def value? (bound : Nat) (ends : List Token) (inBlock : Bool) (r : Reading) :
    Option (Node × Reading) :=
  match bound with
  | 0 => none
  | bound + 1 =>
    if r.sees [.value] then nodeUnless? bound ends inBlock inBlock r.skip else some (.empty, r)

/-- The items of a block sequence. -/
def items? (bound : Nat) (r : Reading) : Option (List Node × Reading) :=
  match bound with
  | 0 => none
  | bound + 1 =>
    match r.peek? with
    | some .blockEnd => some ([], r.skip)
    | some .dash => do
      let (n, r) ← nodeUnless? bound [.dash, .blockEnd] true false r.skip
      let (ns, r) ← items? bound r
      return (n :: ns, r)
    | _ => none

/-- The items of a block sequence that is not indented. -/
def looseItems? (bound : Nat) (r : Reading) : Option (List Node × Reading) :=
  match bound with
  | 0 => none
  | bound + 1 =>
    if r.sees [.dash] then do
      let (n, r) ← nodeUnless? bound [.dash, .key, .value, .blockEnd] true false r.skip
      let (ns, r) ← looseItems? bound r
      return (n :: ns, r)
    else some ([], r)

/-- The fields of a block mapping. -/
def fields? (bound : Nat) (r : Reading) : Option (List (Node × Node) × Reading) :=
  match bound with
  | 0 => none
  | bound + 1 =>
    match r.peek? with
    | some .blockEnd => some ([], r.skip)
    | some .key => do
      let ends := [.key, .value, .blockEnd]
      let (k, r) ← nodeUnless? bound ends true true r.skip
      let (v, r) ← value? bound ends true r
      let (fs, r) ← fields? bound r
      return ((k, v) :: fs, r)
    | _ => none

/-- The items of a flow sequence. A key among them begins a mapping with one field. -/
def flowItems? (bound : Nat) (first : Bool) (r : Reading) : Option (List Node × Reading) :=
  match bound with
  | 0 => none
  | bound + 1 => do
    if r.sees [.closeSequence] then return ([], r.skip)
    let r ← if first then some r else if r.sees [.comma] then some r.skip else none
    if r.sees [.closeSequence] then return ([], r.skip)
    let (n, r) ← if r.sees [.key] then pair? bound r.skip else node? bound false false r
    let (ns, r) ← flowItems? bound false r
    return (n :: ns, r)

/-- A mapping with one field, among the items of a flow sequence. A colon, a comma or a bracket in
the place of its key is passed over. -/
def pair? (bound : Nat) (r : Reading) : Option (Node × Reading) :=
  match bound with
  | 0 => none
  | bound + 1 => do
    let (k, r) ←
      if r.sees [.value, .comma, .closeSequence] then some (.empty, r.skip)
      else node? bound false false r
    let (v, r) ← value? bound [.comma, .closeSequence] false r
    return (.mapping [(k, v)], r)

/-- The fields of a flow mapping. A node without the sign of a key is a key without a value. -/
def flowFields? (bound : Nat) (first : Bool) (r : Reading) :
    Option (List (Node × Node) × Reading) :=
  match bound with
  | 0 => none
  | bound + 1 => do
    if r.sees [.closeMapping] then return ([], r.skip)
    let r ← if first then some r else if r.sees [.comma] then some r.skip else none
    if r.sees [.closeMapping] then return ([], r.skip)
    let (k, v, r) ←
      if r.sees [.key] then do
        let (k, r) ← nodeUnless? bound [.value, .comma, .closeMapping] false false r.skip
        let (v, r) ← value? bound [.comma, .closeMapping] false r
        pure (k, v, r)
      else do
        let (k, r) ← node? bound false false r
        pure (k, .empty, r)
    let (fs, r) ← flowFields? bound false r
    return ((k, v) :: fs, r)

end

end Declutter.Yaml
