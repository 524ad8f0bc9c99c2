import Declutter.Text.Blank

/-!
# Marker lines

A marker line is a comment put above a line of the text, indented like that line and ending like it.
Several markers for one line keep their order. Markers for lines that the text does not have go to
its end, lower line numbers first.
-/

namespace Declutter.Marker

/-- Where a marker goes, and the name it speaks of. -/
structure Anchor where
  line : Nat
  name : Text
  deriving DecidableEq, Repr

/-- The marker for `name`, in a comment that opens with `comment`. -/
def wording (comment name : Text) : Text :=
  comment ++ " Core logic for ".toList ++ name ++
    ". Involves multiple steps and state changes.".toList

/-- The marker, dressed like the line it goes above. -/
def lineAbove (comment below name : Text) : Text :=
  below.takeWhile isIndent ++ wording comment name ++
    (if below.getLast? = some '\r' then ['\r'] else [])

/-- The lines of a text with the marker lines put in. -/
def insertLines (comment : Text) (ls : List Text) (anchors : List Anchor) : List Text :=
  let above := ls.zipIdx.flatMap fun (l, i) =>
    (anchors.filter (·.line == i)).map (lineAbove comment l ·.name) ++ [l]
  let late := (anchors.filter (ls.length ≤ ·.line)).mergeSort (·.line ≤ ·.line)
  above ++ late.map (lineAbove comment [] ·.name)

/-- The text with the marker lines put in. -/
def annotate (comment s : Text) (anchors : List Anchor) : Text :=
  if anchors.isEmpty then s else Text.unlines (insertLines comment s.lines anchors)

end Declutter.Marker
