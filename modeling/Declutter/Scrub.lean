import Declutter.Comment
import Declutter.Config.Basic
import Declutter.Marker
import Declutter.Method.Scan

/-!
# Scrubbing a text

One file at a time: comments out, then the long methods of what is left are found, then each gets
its marker line.
-/

namespace Declutter

/-- A text without comments and with markers, and the methods that were marked. -/
structure Scrubbed where
  text : Text
  annotated : List Method.Span
  deriving DecidableEq, Repr

/-- Where the marker of a method goes. -/
def Method.Span.anchor (m : Method.Span) : Marker.Anchor := ⟨m.startLine, m.name⟩

/-- Takes the comments out of a text and marks its long methods. -/
def Config.scrub (c : Config) (source : Text) : Scrubbed :=
  let stripped := Comment.strip c.lexicon source
  let annotated := Method.flagged c.lexicon c.lineThreshold stripped
  { text := Marker.annotate c.lexicon.lineComment stripped (annotated.map (·.anchor))
    annotated }

end Declutter
