import Declutter.Lexicon
import Declutter.Text.Blank
import Declutter.Text.Word

/-!
# Definitions

A type is defined where a keyword stands at the edge of a word and blanks and a name follow it.
Comments and strings are not told apart from code.
-/

namespace Declutter.Symbol

/-- The name that the keyword `k` introduces at the front of a text, and what follows the name. -/
def introduced? (s k : Text) : Option (Text × Text) :=
  match k.isPrefixOf? s with
  | none => none
  | some rest =>
    if rest.head?.any isBlank then
      match rest.dropWhile isBlank with
      | [] => none
      | c :: t =>
        if isNameStart c then some (c :: t.takeWhile isNameChar, t.dropWhile isNameChar) else none
    else none

theorem length_lt_of_introduced? {s k name after : Text}
    (h : introduced? s k = some (name, after)) :
    after.length < s.length := by
  simp only [introduced?] at h
  split at h
  · simp at h
  next rest hr =>
  split at h
  case isFalse => simp at h
  split at h
  · simp at h
  next c t ht =>
  split at h
  case isFalse => simp at h
  obtain ⟨-, rfl⟩ : c :: t.takeWhile isNameChar = name ∧ t.dropWhile isNameChar = after := by
    simpa using h
  have h1 := (List.dropWhile_sublist isNameChar (l := t)).length_le
  have h2 := (List.dropWhile_sublist isBlank (l := rest)).length_le
  rw [ht, List.length_cons] at h2
  rw [Text.eq_append_of_isPrefixOf? hr, List.length_append]
  omega

/-- The definition at the front of a text whose left neighbour is `left`: its name, and what follows.
The first keyword that fits counts. -/
def definitionAt? (keywords : List Text) (left : Option Char) (s : Text) : Option (Text × Text) :=
  if isWordEdge left s.head? then keywords.findSome? (introduced? s) else none

theorem length_lt_of_definitionAt? {keywords : List Text} {left : Option Char}
    {s name after : Text} (h : definitionAt? keywords left s = some (name, after)) :
    after.length < s.length := by
  rw [definitionAt?] at h
  split at h
  · obtain ⟨k, -, hk⟩ := List.exists_of_findSome?_eq_some h
    exact length_lt_of_introduced? hk
  · simp at h

/-- The names defined in a text whose left neighbour is `left`. -/
def definitionsFrom (keywords : List Text) (left : Option Char) : Text → List Text
  | [] => []
  | c :: s =>
    match _h : definitionAt? keywords left (c :: s) with
    | some (name, after) => name :: definitionsFrom keywords name.getLast? after
    | none => definitionsFrom keywords (some c) s
termination_by s => s.length
decreasing_by
  · exact length_lt_of_definitionAt? _h
  · simp

/-- The names defined in a text, in order; a name defined twice is there twice. -/
def definitions (x : Lexicon) (s : Text) : List Text :=
  definitionsFrom (x.keywords.filter (· ≠ [])) none s

end Declutter.Symbol
