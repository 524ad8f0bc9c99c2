import Mathlib
import Declutter.Proofs.Method.Balance
import Declutter.Proofs.Method.Lines
import Declutter.Scrub

/-!
# The lines of spans

`Span.Covers m s start close`: a line of the text begins at position `start`, a closing brace stands
at position `close`, and these are the lines of the method `m`, whose signature is between them.
Every method that `scan` finds covers such a part of the text (`exists_covers`). So it does not end
on a line before its first one, nor beyond the last line of the text, and since methods begin on
different lines (`scanFrom_pairwise`), no two markers go to the same line (`scan_wellFormed`).

Nothing is asked of the modifiers: they may have blanks, braces and line feeds in them.
-/

namespace Declutter.Method

open Text

variable {s : Text} {m : Span} {start close : Nat}

/-- Where a method stands in a text, and that its lines are counted from there. -/
structure Span.Covers (m : Span) (s : Text) (start close : Nat) : Prop where
  begins : startsLine (s.take start)
  lt_close : start < close
  closing : s[close]? = some '}'
  signature : m.signature <:+: (s.take close).drop start
  startLine : m.startLine = feeds (s.take start)
  endLine : m.endLine = feeds (s.take close)

namespace Span.Covers

theorem startLine_le (h : m.Covers s start close) : m.startLine ≤ m.endLine := by
  rw [h.startLine, h.endLine]
  exact (List.take_prefix_take_left (Nat.le_of_lt h.lt_close)).sublist.count_le _

theorem endLine_le (h : m.Covers s start close) : m.endLine ≤ feeds s := by
  rw [h.endLine]
  exact (List.take_sublist close s).count_le _

end Span.Covers

/-! ## Closing braces -/

theorem eq_of_ofChar_closing {c : Char} (h : Brace.ofChar c = some .closing) : c = '}' := by
  unfold Brace.ofChar at h
  split at h
  · cases h
  split at h
  · next hc => exact eq_of_beq hc
  · cases h

theorem getElem?_of_close? {level : Int} {n : Nat}
    (h : Brace.close? Brace.ofChar level s = some n) : s[n]? = some '}' := by
  obtain ⟨c, hc, hbrace⟩ := Option.bind_eq_some_iff.1 (Brace.close?_eq_some_iff.1 h).1.1
  rw [hc, eq_of_ofChar_closing hbrace]

/-! ## One method -/

/-- A method whose opening stands where a line begins covers the text up to its closing brace. -/
theorem covers_of_span? {before : Text} {o : Opening} (hstart : startsLine before)
    (hspan : o.span? (feeds before) = some m) :
    ∃ close, m.Covers (before ++ (o.front ++ '{' :: o.body)) before.length close := by
  obtain ⟨n, hn, rfl⟩ := Option.map_eq_some_iff.1 hspan
  have hclosing := getElem?_of_close? hn
  -- the brace that opens the body is not the one that closes it
  have hpos : n ≠ 0 := by
    rintro rfl
    exact absurd (Option.some.inj hclosing) (by decide)
  have htake : ((before ++ o.front) ++ '{' :: o.body).take ((before ++ o.front).length + n) =
      before ++ (o.front ++ ('{' :: o.body).take n) := by
    rw [List.take_length_add_append, List.append_assoc]
  rw [← List.append_assoc]
  refine ⟨(before ++ o.front).length + n, ?_⟩
  constructor
  case begins => rwa [List.append_assoc, List.take_left]
  case lt_close =>
    rw [List.length_append]
    omega
  case closing => rwa [List.getElem?_append_right (Nat.le_add_right ..), Nat.add_sub_cancel_left]
  case signature =>
    rw [htake, List.drop_left, Opening.front, List.append_assoc]
    exact (trim_isInfix _).trans (List.prefix_append ..).isInfix
  case startLine => rw [List.append_assoc, List.take_left]
  case endLine =>
    show feeds before + feeds o.front + feeds (('{' :: o.body).take n) = _
    rw [htake, feeds_append before, feeds_append o.front, Nat.add_assoc]

theorem exists_covers {x : Lexicon} (h : m ∈ scan x s) : ∃ start close, m.Covers s start close := by
  obtain ⟨before, t, o, rfl, hstart, hopen, hspan⟩ := scanFrom_opening h
  rw [Nat.zero_add] at hspan
  rw [opening?_front hopen]
  exact ⟨before.length, covers_of_span? hstart hspan⟩

/-! ## All methods -/

/-- **Spans are well formed**, whatever the modifiers are. The lines of a method are that of a place
where a line begins and that of a closing brace behind it, so the last is not before the first, and
the text has it. No two methods begin on the same line. The markers of the long ones go to lines
that the text has, each to another. -/
theorem scan_wellFormed (x : Lexicon) (threshold : Nat) (s : Text) :
    (∀ m ∈ scan x s, (∃ start close, m.Covers s start close) ∧
      m.startLine ≤ m.endLine ∧ m.endLine ≤ feeds s ∧ m.startLine + m.lineSpan = m.endLine) ∧
    (scan x s).Pairwise (·.startLine < ·.startLine) ∧
    (∀ a ∈ (flagged x threshold s).map (·.anchor), a.line < s.lines.length) ∧
    ((flagged x threshold s).map (·.anchor)).Pairwise (·.line < ·.line) := by
  refine ⟨fun m hm => ?_, scanFrom_pairwise .., fun a ha => ?_, ?_⟩
  · obtain ⟨start, close, hcovers⟩ := exists_covers hm
    have hle := hcovers.startLine_le
    exact ⟨⟨start, close, hcovers⟩, hle, hcovers.endLine_le, Nat.add_sub_of_le hle⟩
  · obtain ⟨m, hm, rfl⟩ := List.mem_map.1 ha
    obtain ⟨start, close, hcovers⟩ := exists_covers (List.mem_of_mem_filter hm)
    rw [length_lines]
    exact Nat.lt_succ_of_le (hcovers.startLine_le.trans hcovers.endLine_le)
  · exact List.pairwise_map.2 (flagged_pairwise x threshold s)

/-- A lexicon with a modifier over a line end, and one that begins with a blank and a brace. -/
def feedLexicon : Lexicon :=
  { blockOpen := [], blockClose := [], docLine := [], lineComment := [],
    modifiers := [['a', '\n', 'b'], [' ', '{', 'c']], keywords := [] }

/-- A method whose signature takes two lines, and another within it. -/
def feedText : Text := "a\nb f()\x7b\n \x7bc g()\x7b\n\x7d\x7d\n\x7d".toList

/-- The first method ends on the last line. -/
def feedOuter : Span := ⟨0, 4, "a\nb f()".toList, "f".toList⟩

/-- The second begins on the line after the signature of the first. -/
def feedInner : Span := ⟨2, 3, "\x7bc g()".toList, "g".toList⟩

theorem scan_wellFormed_feedText :
    scan feedLexicon feedText = [feedOuter, feedInner] ∧
    flagged feedLexicon 0 feedText = [feedOuter, feedInner] ∧
    (∃ start close, feedOuter.Covers feedText start close) ∧
    feedOuter.startLine ≤ feedOuter.endLine ∧ feedOuter.endLine ≤ feeds feedText ∧
    feedOuter.startLine + feedOuter.lineSpan = feedOuter.endLine ∧
    feedOuter.startLine < feedInner.startLine ∧
    feedInner.anchor.line < feedText.lines.length ∧
    feedOuter.anchor.line < feedInner.anchor.line := by
  have hscan : scan feedLexicon feedText = [feedOuter, feedInner] := by cbv
  have hflagged : flagged feedLexicon 0 feedText = [feedOuter, feedInner] := by
    rw [flagged, hscan]
    decide
  obtain ⟨hspans, hlines, hrange, hanchors⟩ := scan_wellFormed feedLexicon 0 feedText
  rw [hscan] at hspans hlines
  rw [hflagged] at hrange hanchors
  obtain ⟨hcovers, hle, hend, hspan⟩ := hspans feedOuter (by simp)
  have hlt : feedOuter.startLine < feedInner.startLine :=
    List.rel_of_pairwise_cons hlines (by simp)
  have hanchor : feedOuter.anchor.line < feedInner.anchor.line :=
    List.rel_of_pairwise_cons hanchors (by simp)
  have hin : feedInner.anchor.line < feedText.lines.length := hrange _ (by simp)
  exact ⟨hscan, hflagged, hcovers, hle, hend, hspan, hlt, hin, hanchor⟩

end Declutter.Method
