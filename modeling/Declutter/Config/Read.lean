import Declutter.Config.Basic
import Declutter.Setting

/-!
# Configurations from settings

A configuration is a record of settings, and so is a lexicon. Each field has a name and a position;
a field that is missing keeps its standard value.
-/

namespace Declutter

variable {ν : Type} [Setting ν]

/-- The names of the fields of a lexicon, in their order. -/
def Lexicon.fieldNames : List Text :=
  ["block_comment_open".toList, "block_comment_close".toList, "doc_comment".toList,
    "line_comment".toList, "modifiers".toList, "definition_keywords".toList]

/-- The lexicon that a setting writes. -/
def Lexicon.read? (v : ν) : Option Lexicon := do
  let fs ← Setting.fields? v
  let standard := Lexicon.csharp
  if !fs.othersHarmless fieldNames then failure
  return {
    blockOpen := ← fs.get? 0 "block_comment_open".toList Setting.text? standard.blockOpen
    blockClose := ← fs.get? 1 "block_comment_close".toList Setting.text? standard.blockClose
    docLine := ← fs.get? 2 "doc_comment".toList Setting.text? standard.docLine
    lineComment := ← fs.get? 3 "line_comment".toList Setting.text? standard.lineComment
    modifiers := ← fs.get? 4 "modifiers".toList Setting.texts? standard.modifiers
    keywords := ← fs.get? 5 "definition_keywords".toList Setting.texts? standard.keywords }

/-- A path in a setting is its text. -/
def Path.read? (v : ν) : Option Path := (Setting.text? v).map (⟨·⟩)

/-- The names of the fields of a configuration, in their order. -/
def Config.fieldNames : List Text :=
  ["input".toList, "output".toList, "report".toList, "line_threshold".toList,
    "extensions".toList, "parallel".toList, "syntax".toList]

/-- The configuration that a setting writes. -/
def Config.read? (v : ν) : Option Config := do
  let fs ← Setting.fields? v
  let standard := Config.standard
  if !fs.othersHarmless fieldNames then failure
  return {
    input := ← fs.get? 0 "input".toList Path.read? standard.input
    output := ← fs.get? 1 "output".toList Path.read? standard.output
    report := ← fs.get? 2 "report".toList Path.read? standard.report
    lineThreshold := ← fs.get? 3 "line_threshold".toList Setting.count? standard.lineThreshold
    extensions := ← fs.get? 4 "extensions".toList Setting.texts? standard.extensions
    parallel := ← fs.get? 5 "parallel".toList Setting.flag? standard.parallel
    lexicon := ← fs.get? 6 "syntax".toList Lexicon.read? standard.lexicon }

end Declutter
