import Declutter.Text.Basic

/-!
# Lexicons

What the scans know of a language: how comments are marked, which words may open a method and which
words introduce a type. Nothing else of its grammar is known.
-/

namespace Declutter

/-- The markers and words of a language. An empty marker, like an empty word, stands for nothing. -/
structure Lexicon where
  /-- Opens a comment that runs to `blockClose`, over line ends. -/
  blockOpen : Text
  blockClose : Text
  /-- Opens a comment that has its line to itself. -/
  docLine : Text
  /-- Opens a comment that runs to the end of its line. -/
  lineComment : Text
  /-- The words a method signature may begin with. -/
  modifiers : List Text
  /-- The words that introduce the name of a type. -/
  keywords : List Text
  deriving DecidableEq, Repr

namespace Lexicon

/-- The words of C#. -/
def csharp : Lexicon where
  blockOpen := ['/', '*']
  blockClose := ['*', '/']
  docLine := ['/', '/', '/']
  lineComment := ['/', '/']
  modifiers := ["public".toList, "private".toList, "protected".toList, "internal".toList,
    "static".toList, "virtual".toList, "override".toList, "async".toList, "sealed".toList,
    "extern".toList, "new".toList, "partial".toList]
  keywords := ["class".toList, "struct".toList]

instance : Inhabited Lexicon := ⟨csharp⟩

end Lexicon

end Declutter
