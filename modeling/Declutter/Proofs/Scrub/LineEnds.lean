import Mathlib
import Declutter.Proofs.Comment.LineEnds
import Declutter.Proofs.Method.Padding
import Declutter.Proofs.Scrub.Lines

/-!
# Scrubbing and line ends

A marker line ends like the line below it, and no marker is above the last line. So every line feed
of a scrubbed text has a carriage return before it exactly if this is so without the markers
(`crlf_scrub_text`), and that is a matter of the block comments (`crlf_scrub_iff`): one that runs
over lines takes their carriage returns along (`not_crlf_scrub_block`).

Which methods are long does not depend on the line ends (`annotated_withReturns`).
-/

namespace Declutter

open Text

theorem Lexicon.plainWords_csharp :
    Method.PlainWords (Lexicon.csharp.modifiers.filter (· ≠ [])) := by
  simp [Method.PlainWords, Lexicon.csharp, isBlank]

variable {c : Config} {source : Text}

/-- Markers make no difference to whether the lines end in carriage returns. -/
theorem crlf_scrub_text (hcomment : '\n' ∉ c.lexicon.lineComment)
    (hfeed : ∀ m ∈ c.lexicon.modifiers, '\n' ∉ m)
    (hm : Method.PlainWords (c.lexicon.modifiers.filter (· ≠ []))) (source : Text) :
    Crlf (c.scrub source).text ↔ Crlf (Comment.strip c.lexicon source) := by
  rw [crlf_iff_lines, crlf_iff_lines]
  apply (woven_scrub hcomment hfeed source).forall_mem_dropLast
  · intro a ha
    obtain ⟨m, hmem, rfl⟩ := List.mem_map.1 ha
    rw [Nat.zero_add]
    exact Method.startLine_lt_of_flagged hm hmem
  · intro l a _
    exact Marker.getLast?_lineAbove c.lexicon.lineComment l a.name

/-- **When the lines of a scrubbed text end in carriage returns.** If every line feed of a source has
a carriage return before it, then this is so for the scrubbed text exactly if every block comment
has no line feed, or a single one and a carriage return is left right before the comment. -/
theorem crlf_scrub_iff (hc : c.lexicon = .csharp) (hs : Crlf source) :
    Crlf (c.scrub source).text ↔
      ∀ b ∈ Comment.blocksFrom ['/', '*'] ['*', '/'] [] source, Comment.KeepsReturn b.1 b.2 := by
  have hblocks : Crlf (Comment.stripBlocks ['/', '*'] ['*', '/'] source) ↔ _ :=
    Comment.crlf_append_stripBlocks (by decide) [] hs
  rw [crlf_scrub_text (by rw [hc]; decide) (by rw [hc]; decide)
    (by rw [hc]; exact Lexicon.plainWords_csharp), hc, Comment.crlf_strip_iff (by decide)]
  exact hblocks.trans (and_iff_right (crlf_of_not_mem (by simp)))

/-- A comment within a line, and one over a line end with a carriage return before it. -/
theorem crlf_scrub_iff_kept :
    Crlf "/*a*/b\r/*\r\n*/c//\r\n".toList ∧
      Crlf (Config.standard.scrub "/*a*/b\r/*\r\n*/c//\r\n".toList).text := by
  have hs : Crlf "/*a*/b\r/*\r\n*/c//\r\n".toList := by
    rw [crlf_iff_lines]
    decide
  have hblocks : Comment.blocksFrom ['/', '*'] ['*', '/'] [] "/*a*/b\r/*\r\n*/c//\r\n".toList =
      [([], "/*a*/".toList), ("b\r".toList, "/*\r\n*/".toList)] := by cbv
  refine ⟨hs, (crlf_scrub_iff rfl hs).2 ?_⟩
  rw [hblocks]
  unfold Comment.KeepsReturn
  decide

/-- Of a comment over two lines the line feed is left, without its carriage return. -/
theorem not_crlf_scrub_block :
    Crlf "int a; /* x\r\n y */ int b;\r\n".toList ∧
      ¬ Crlf (Config.standard.scrub "int a; /* x\r\n y */ int b;\r\n".toList).text := by
  have htext : (Config.standard.scrub "int a; /* x\r\n y */ int b;\r\n".toList).text =
      "int a; \n int b;\r\n".toList := by cbv
  rw [htext, crlf_iff_lines, crlf_iff_lines]
  decide

/-- **Line ends do not change the analysis.** The methods found long are the same, with their lines,
signatures and names, if every line feed gets a carriage return. -/
theorem annotated_withReturns (hc : c.lexicon = .csharp) (source : Text) :
    (c.scrub source.withReturns).annotated = (c.scrub source).annotated := by
  have hstrip : Returned (Comment.strip .csharp source) (Comment.strip .csharp source.withReturns) :=
    Comment.returned_strip (by decide) (by decide) (by decide) (by decide)
      (returned_withReturns source)
  show Method.flagged c.lexicon c.lineThreshold (Comment.strip c.lexicon source.withReturns) =
    Method.flagged c.lexicon c.lineThreshold (Comment.strip c.lexicon source)
  rw [hc, Method.flagged, Method.flagged,
    Method.scan_of_returned Lexicon.plainWords_csharp hstrip]

/-- The carriage returns are within a block comment, in a line comment, in the gap and in the body. -/
theorem annotated_withReturns_commented :
    withReturns "/*\n*/new F()//\n\x7b\n\x7d".toList =
        "/*\r\n*/new F()//\r\n\x7b\r\n\x7d".toList ∧
      (({ Config.standard with lineThreshold := 1 } : Config).scrub
        "/*\r\n*/new F()//\r\n\x7b\r\n\x7d".toList).annotated =
          [⟨1, 3, "new F()".toList, "F".toList⟩] := by
  have hreturns : withReturns "/*\n*/new F()//\n\x7b\n\x7d".toList =
      "/*\r\n*/new F()//\r\n\x7b\r\n\x7d".toList := by decide
  refine ⟨hreturns, ?_⟩
  rw [← hreturns, annotated_withReturns rfl]
  cbv

end Declutter
