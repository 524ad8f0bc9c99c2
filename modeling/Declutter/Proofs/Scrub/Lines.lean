import Mathlib
import Declutter.Proofs.Marker.Insert
import Declutter.Proofs.Method.Lines
import Declutter.Scrub

/-!
# The lines of a scrubbed text

`scrub_lines`: a scrubbed text is the text without its comments, line for line, with a marker line
right above the signature of each long method. The lines of the methods increase
(`Method.flagged_pairwise`), so that the marker of the method number `k` is shifted by the `k`
markers above it.
-/

namespace Declutter

open Text

/-- The numbers of the marker lines in a scrubbed text. -/
def Scrubbed.markerLines (x : Scrubbed) : List Nat :=
  x.annotated.zipIdx.map fun (m, k) => m.startLine + k

theorem Scrubbed.markerLines_eq (x : Scrubbed) :
    x.markerLines = Marker.numbersFrom 0 (x.annotated.map (·.anchor)) := by
  rw [markerLines, Marker.numbersFrom, List.zipIdx_map, List.map_map]
  rfl

variable {c : Config}

/-- The marker lines are woven into the lines of the text without comments. -/
theorem woven_scrub (hcomment : '\n' ∉ c.lexicon.lineComment)
    (hm : ∀ m ∈ c.lexicon.modifiers, '\n' ∉ m) (source : Text) :
    Marker.Woven c.lexicon.lineComment 0 (Comment.strip c.lexicon source).lines
      ((c.scrub source).annotated.map (·.anchor)) (c.scrub source).text.lines := by
  refine Marker.woven_annotate hcomment ?_ ?_ ?_
  · intro a ha
    obtain ⟨m, hmem, rfl⟩ := List.mem_map.1 ha
    exact Method.not_mem_name_of_flagged hmem
  · exact List.pairwise_map.2 (Method.flagged_pairwise c.lexicon c.lineThreshold _)
  · intro a ha
    obtain ⟨m, hmem, rfl⟩ := List.mem_map.1 ha
    obtain ⟨l, hl, -⟩ := Method.flagged_lines hm hmem
    exact (List.getElem?_eq_some_iff.1 hl).1

/-- **Markers stand above their signatures.** The scrubbed text has a line more for each long
method. The marker line is indented and ends like the line below it, which is the method's line of
the text without comments and has its signature. Without the marker lines, that text is left. -/
theorem scrub_lines (hcomment : '\n' ∉ c.lexicon.lineComment)
    (hm : ∀ m ∈ c.lexicon.modifiers, '\n' ∉ m) (source : Text) :
    (c.scrub source).text.lines.length =
      (Comment.strip c.lexicon source).lines.length + (c.scrub source).annotated.length ∧
    (∀ (k : Nat) (m : Method.Span), (c.scrub source).annotated[k]? = some m →
      ∃ l : Text, (Comment.strip c.lexicon source).lines[m.startLine]? = some l ∧
        (c.scrub source).text.lines[m.startLine + k]? =
          some (l.takeWhile isIndent ++ Marker.wording c.lexicon.lineComment m.name ++
            (if l.getLast? = some '\r' then ['\r'] else [])) ∧
        (c.scrub source).text.lines[m.startLine + k + 1]? = some l ∧ m.signature <:+: l) ∧
    ((c.scrub source).text.lines.zipIdx.filter (·.2 ∉ (c.scrub source).markerLines)).map (·.1) =
      (Comment.strip c.lexicon source).lines := by
  have hw := woven_scrub hcomment hm source
  refine ⟨by simpa using hw.length, fun k m hk => ?_, ?_⟩
  · obtain ⟨j, l, h1, h2, h3, h4⟩ := hw.getElem?_marker (k := k) (a := m.anchor) (by simp [hk])
    obtain ⟨l', hl', hsig⟩ := Method.flagged_lines hm (List.mem_of_getElem? hk)
    rw [Nat.zero_add] at h1
    obtain rfl : m.startLine = j := h1
    rw [h2] at hl'
    cases hl'
    exact ⟨l, h2, h3, h4, hsig⟩
  · rw [Scrubbed.markerLines_eq]
    exact hw.without 0

/-- Settings that know one modifier, one kind of comment, and mark methods of two lines or more. -/
def terseConfig : Config :=
  { Config.standard with
    lineThreshold := 0
    lexicon := { blockOpen := [], blockClose := [], docLine := [], lineComment := ['#'],
                 modifiers := [['p']], keywords := [] } }

/-- One method within another, whose line ends in a carriage return: its marker is the second. -/
theorem scrub_lines_nested :
    (terseConfig.scrub "p f()\x7b#\n\tp g()\x7b\r\n\x7d\n\x7d".toList).text.lines.length = 6 ∧
      (terseConfig.scrub "p f()\x7b#\n\tp g()\x7b\r\n\x7d\n\x7d".toList).text.lines[2]? =
        some "\t# Core logic for g. Involves multiple steps and state changes.\r".toList ∧
      (terseConfig.scrub "p f()\x7b#\n\tp g()\x7b\r\n\x7d\n\x7d".toList).text.lines[3]? =
        some "\tp g()\x7b\r".toList := by
  have hstrip :
      (Comment.strip terseConfig.lexicon "p f()\x7b#\n\tp g()\x7b\r\n\x7d\n\x7d".toList).lines =
      ["p f()\x7b".toList, "\tp g()\x7b\r".toList, "\x7d".toList, "\x7d".toList] := by cbv
  have hspans : (terseConfig.scrub "p f()\x7b#\n\tp g()\x7b\r\n\x7d\n\x7d".toList).annotated =
      [⟨0, 3, "p f()".toList, "f".toList⟩, ⟨1, 2, "p g()".toList, "g".toList⟩] := by cbv
  obtain ⟨hlen, hmarker, -⟩ :=
    scrub_lines (c := terseConfig) (by decide) (by decide)
      "p f()\x7b#\n\tp g()\x7b\r\n\x7d\n\x7d".toList
  obtain ⟨l, hl, habove, hbelow, -⟩ :=
    hmarker 1 ⟨1, 2, "p g()".toList, "g".toList⟩ (by rw [hspans]; rfl)
  rw [hstrip] at hl hlen
  rw [hspans] at hlen
  cases hl
  exact ⟨hlen, habove, hbelow⟩

end Declutter
