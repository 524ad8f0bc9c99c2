import Declutter.Lexicon
import Declutter.Text.Blank

/-!
# Comments

`strip` takes the comments out of a text and leaves its lines where they are. Three passes follow
one another, and each is off when its marker is empty:

* `stripBlocks`: of a block comment only the line feeds stay. The first close after an open ends it,
  and an open without a close is no comment.
* `stripDocs`: a comment that has its line to itself goes, with its indentation; the line end stays.
* `stripLine`: what follows the first marker of a line goes, and the blanks before it.

String literals are not known, so a marker inside one counts.
-/

namespace Declutter.Comment

/-- Takes out block comments, except for their line feeds. -/
def stripBlocks (opener closer s : Text) : Text :=
  if _h : opener = [] ∨ closer = [] then s
  else
    match _ho : Text.cut? opener s with
    | none => s
    | some (before, rest) =>
      match _hc : Text.cut? closer rest with
      | none => s
      | some (inside, after) =>
        before ++ (opener ++ inside ++ closer).filter (· == '\n') ++ stripBlocks opener closer after
termination_by s.length
decreasing_by
  simp only [not_or] at _h
  exact Nat.lt_trans (Text.length_lt_of_cut? _h.2 _hc) (Text.length_lt_of_cut? _h.1 _ho)

/-- Whether a character belongs to its line and not to the line's end. -/
def isInLine (c : Char) : Bool := c != '\r' && c != '\n'

/-- Splits a doc comment off the front of a line: indentation, the marker and the rest of the line.
If the marker itself begins with indentation, the comment starts as far right as possible. -/
def docLine? (marker : Text) : Text → Option (Text × Text)
  | [] => none
  | c :: s =>
    let indented :=
      if isIndent c then (docLine? marker s).map fun (doc, rest) => (c :: doc, rest) else none
    let here := (marker.isPrefixOf? (c :: s)).map fun rest =>
      (marker ++ rest.takeWhile isInLine, rest.dropWhile isInLine)
    indented.or here

theorem docLine?_eq_some {marker s doc rest : Text} (h : docLine? marker s = some (doc, rest)) :
    s = doc ++ rest ∧ marker.length ≤ doc.length := by
  induction s generalizing doc with
  | nil => simp [docLine?] at h
  | cons c s ih =>
    simp only [docLine?, Option.or_eq_some_iff] at h
    rcases h with h | ⟨-, h⟩
    · split at h
      · obtain ⟨⟨d, r⟩, hd, heq⟩ := Option.map_eq_some_iff.1 h
        obtain ⟨rfl, rfl⟩ : c :: d = doc ∧ r = rest := by simpa using heq
        obtain ⟨hs, hl⟩ := ih hd
        exact ⟨by simp [hs], by simp; omega⟩
      · simp at h
    · obtain ⟨r, hr, heq⟩ := Option.map_eq_some_iff.1 h
      obtain ⟨rfl, rfl⟩ :
          marker ++ r.takeWhile isInLine = doc ∧ r.dropWhile isInLine = rest := by simpa using heq
      exact ⟨by rw [Text.eq_append_of_isPrefixOf? hr]; simp [List.takeWhile_append_dropWhile],
        by simp⟩

/-- Takes out doc comments. `fresh` says that a line begins here. -/
def stripDocs (marker : Text) (hm : marker ≠ []) (fresh : Bool) : Text → Text
  | [] => []
  | c :: s =>
    match _hd : if fresh then docLine? marker (c :: s) else none with
    | some (doc, rest) => stripDocs marker hm (doc.getLast? == some '\n') rest
    | none => c :: stripDocs marker hm (c == '\n') s
termination_by s => s.length
decreasing_by
  · have hd' : docLine? marker (c :: s) = some (doc, rest) := by
      split at _hd
      · exact _hd
      · simp at _hd
    obtain ⟨hs, hl⟩ := docLine?_eq_some hd'
    have := List.length_pos_iff.2 hm
    rw [hs, List.length_append]
    omega
  · simp

/-- Cuts a line at the first marker, and takes the blanks before it away. A carriage return at the
end of the line stays. -/
def stripLine (marker line : Text) : Text :=
  let ending : Text := if line.getLast? = some '\r' then ['\r'] else []
  let body := line.take (line.length - ending.length)
  match Text.cut? marker body with
  | some (before, _) => Text.trimEnd before ++ ending
  | none => line

/-- The text without its comments, line for line. -/
def strip (x : Lexicon) (s : Text) : Text :=
  let noBlocks := stripBlocks x.blockOpen x.blockClose s
  let noDocs := if h : x.docLine = [] then noBlocks else stripDocs x.docLine h true noBlocks
  if x.lineComment = [] then noDocs
  else Text.unlines (noDocs.lines.map (stripLine x.lineComment))

end Declutter.Comment
