import Mathlib
import Declutter.Proofs.Comment.LineEnds

/-!
# Doc comments as line comments

If doc comments begin with what begins a line comment, the pass that takes out doc comments makes no
difference (`strip_without_docs`): it leaves the end of the line, and so does the pass over line
comments (`stripLine_of_docLine?`), since only indentation comes before the marker.

The two passes see the end of a line differently. A doc comment ends at any carriage return, and a
line comment at the last one of its line. So carriage returns have to be at the ends of lines
(`EndReturns`), and they still are when the block comments are out (`endReturns_stripBlocks`).
-/

namespace Declutter

namespace Text

variable {l s t : Text} {ls : List Text}

/-- Behind a carriage return there is a line feed, or nothing. -/
def EndReturns (s : Text) : Prop := s.IsChain fun c d => c = '\r' → d = '\n'

theorem endReturns_append : EndReturns (s ++ t) ↔
    EndReturns s ∧ EndReturns t ∧ (s.getLast? = some '\r' → ∀ c ∈ t.head?, c = '\n') := by
  unfold EndReturns
  rw [List.isChain_append]
  refine and_congr_right fun _ => and_congr_right fun _ => ?_
  constructor
  · intro h hs c hc
    exact h _ hs c hc rfl
  · intro h c hc d hd heq
    subst heq
    exact h hc d hd

theorem endReturns_cons_feed : EndReturns ('\n' :: s) ↔ EndReturns s := by
  unfold EndReturns
  rw [List.isChain_cons]
  simp

theorem endReturns_append_feed : EndReturns (s ++ '\n' :: t) ↔ EndReturns s ∧ EndReturns t := by
  rw [endReturns_append, endReturns_cons_feed]
  simp

theorem endReturns_replicate (n : Nat) : EndReturns (List.replicate n '\n') := by
  induction n with
  | zero => exact .nil
  | succ n ih => exact endReturns_cons_feed.2 ih

theorem endReturns_of_line (h : '\n' ∉ l) : EndReturns l ↔ '\r' ∉ l.dropLast := by
  induction l with
  | nil => simp [EndReturns]
  | cons c l ih =>
    cases l with
    | nil => simp [EndReturns]
    | cons d l =>
      simp only [List.mem_cons, not_or] at h
      have ih := ih (by simpa using h.2)
      unfold EndReturns at ih ⊢
      rw [List.isChain_cons_cons, ih, List.dropLast_cons_cons, List.mem_cons, not_or]
      simp [Ne.symm h.2.1, eq_comm]

theorem endReturns_unlines (hls : ls ≠ []) :
    EndReturns (unlines ls) ↔ ∀ l ∈ ls, EndReturns l := by
  induction ls, hls using List.recNeNil with
  | singleton l => simp [unlines]
  | cons l ls hls ih => rw [unlines_cons l hls, endReturns_append_feed, ih, List.forall_mem_cons]

/-- Every carriage return is the last character of its line. -/
theorem endReturns_iff_lines : EndReturns s ↔ ∀ l ∈ s.lines, '\r' ∉ l.dropLast := by
  conv_lhs => rw [← unlines_lines s, endReturns_unlines (lines_ne_nil s)]
  exact forall₂_congr fun l hl => endReturns_of_line (not_mem_of_mem_lines hl)

end Text

namespace Comment

open Text

variable {x : Lexicon} {marker docMarker opener closer doc rest l s : Text}

/-- Block comments leave a line feed behind every carriage return that has one. -/
theorem endReturns_stripBlocks (opener closer : Text) (h : EndReturns s) :
    EndReturns (stripBlocks opener closer s) := by
  fun_induction stripBlocks opener closer s with
  | case1 => exact h
  | case2 => exact h
  | case3 => exact h
  | case4 s hon before rest ho inside after hc ih =>
    have hs : s = before ++ (opener ++ inside ++ closer ++ after) := by
      rw [cut?_eq_some ho, cut?_eq_some hc]
      simp
    obtain ⟨hbefore, hcomment, hseam⟩ := endReturns_append.1 (hs ▸ h)
    have hafter := (endReturns_append.1 hcomment).2.1
    rw [List.append_assoc]
    refine endReturns_append.2 ⟨hbefore, ?_, ?_⟩
    · rw [List.filter_beq]
      refine endReturns_append.2 ⟨endReturns_replicate _, ih hafter, fun hlast => ?_⟩
      have hmem := List.mem_of_getLast? hlast
      exact absurd (List.eq_of_mem_replicate hmem) (by decide)
    · -- a comment right behind a carriage return begins with a line feed, which is left
      intro hlast c hc
      obtain ⟨d, opener', rfl⟩ := List.exists_cons_of_ne_nil fun hnil => hon (.inl hnil)
      obtain rfl : d = '\n' := hseam hlast d rfl
      simpa [eq_comm] using hc

/-- Of a line that is a doc comment, the pass over line comments leaves its end too. -/
theorem stripLine_of_docLine? (hpre : marker <+: docMarker)
    (h : docLine? docMarker l = some (doc, rest)) (hrest : rest = lineEnd l) :
    stripLine marker l = lineEnd l := by
  obtain ⟨indent, line, rfl, hl, hindent, -, -⟩ := docLine?_parts h
  obtain ⟨more, rfl⟩ := hpre
  obtain ⟨body, hbody, hstrip⟩ := stripLine_cases marker l
  have hsame : body ++ lineEnd l = indent ++ (marker ++ more) ++ line ++ lineEnd l := by
    rw [← hbody, ← hrest]
    exact hl
  obtain rfl := List.append_cancel_right hsame
  have hat : indent ++ (marker ++ more) ++ line = indent ++ marker ++ (more ++ line) := by simp
  rw [hstrip]
  split
  · next before after hcut =>
    -- the first marker is no later than the one that the doc comment begins with
    have hle := length_le_of_cut? hcut hat
    have hcode : before <+: indent ++ (marker ++ more) ++ line :=
      ⟨marker ++ after, by rw [cut?_eq_some hcut]; simp⟩
    have hbefore : before <+: indent :=
      List.prefix_of_prefix_length_le hcode ⟨marker ++ more ++ line, by simp⟩ hle
    rw [trimEnd_of_indent fun c hc => hindent c (hbefore.subset hc), List.nil_append]
  · next hcut => exact absurd ⟨indent, more ++ line, hat.symm⟩ (cut?_eq_none_iff.1 hcut)

theorem stripLine_lineEnd (hm : marker ≠ []) (hr : '\r' ∉ marker) (l : Text) :
    stripLine marker (lineEnd l) = lineEnd l := by
  apply stripLine_of_not_isInfix
  intro hin
  obtain ⟨c, hc⟩ := List.exists_mem_of_ne_nil marker hm
  have hmem := hin.subset hc
  unfold lineEnd at hmem
  split at hmem
  · exact hr (List.mem_singleton.1 hmem ▸ hc)
  · cases hmem

/-- What a doc comment leaves of its line is the end of the line. -/
theorem eq_lineEnd_of_docLine? (hm : '\r' ∉ marker ∧ '\n' ∉ marker) (hl : '\n' ∉ l)
    (hr : '\r' ∉ l.dropLast) (h : docLine? marker l = some (doc, rest)) : rest = lineEnd l := by
  obtain ⟨indent, line, rfl, rfl, hindent, hline, hrest⟩ := docLine?_parts h
  refine eq_lineEnd ?_ hrest hl hr
  intro c hc
  rcases List.mem_append.1 hc with hc | hc
  · rcases List.mem_append.1 hc with hc | hc
    · rcases Bool.or_eq_true_iff.1 (hindent c hc) with hc | hc <;> (rw [eq_of_beq hc]; decide)
    · have hne : c ≠ '\r' ∧ c ≠ '\n' := ⟨fun h => hm.1 (h ▸ hc), fun h => hm.2 (h ▸ hc)⟩
      simp [isInLine, hne]
  · exact hline c hc

section
variable (hline : x.lineComment ≠ []) (hpre : x.lineComment <+: x.docLine)
  (hdoc : '\r' ∉ x.docLine ∧ '\n' ∉ x.docLine)
include hline hpre hdoc

theorem lineRest_without_docs (hl : '\n' ∉ l) (hr : '\r' ∉ l.dropLast) :
    lineRest { x with docLine := [] } l = lineRest x l := by
  have hmarker : x.docLine ≠ [] := by
    intro hnil
    rw [hnil] at hpre
    exact hline (List.prefix_nil.1 hpre)
  have hreturn : '\r' ∉ x.lineComment := fun hmem => hdoc.1 (hpre.subset hmem)
  rw [lineRest, lineRest, if_neg hline, if_neg hline, lineNoDoc, dif_pos rfl, lineNoDoc,
    dif_neg hmarker, stripDocs_of_line hmarker hdoc.2 hl]
  cases hd : docLine? x.docLine l with
  | none => rfl
  | some y =>
    obtain ⟨doc, rest⟩ := y
    have hrest := eq_lineEnd_of_docLine? hdoc hl hr hd
    simp only
    rw [stripLine_of_docLine? hpre hd hrest, hrest, stripLine_lineEnd hline hreturn]

/-- **The pass over doc comments makes no difference**, if they begin as line comments do and every
carriage return is at the end of its line. -/
theorem strip_without_docs (hs : ∀ l ∈ s.lines, '\r' ∉ l.dropLast) :
    strip x s = strip { x with docLine := [] } s := by
  have hlines : ∀ l ∈ (stripBlocks x.blockOpen x.blockClose s).lines, '\r' ∉ l.dropLast :=
    endReturns_iff_lines.1 (endReturns_stripBlocks _ _ (endReturns_iff_lines.2 hs))
  rw [strip_eq_map_lineRest hdoc.2, strip_eq_map_lineRest (by simp)]
  congr 1
  refine List.map_congr_left fun l hl => ?_
  exact (lineRest_without_docs hline hpre hdoc (not_mem_of_mem_lines hl) (hlines l hl)).symm

end

/-- Markers that begin with indentation, and a block comment that begins with a line feed. -/
def insetLexicon : Lexicon :=
  { blockOpen := ['\n', '('], blockClose := [')'], docLine := [' ', '#', '!'],
    lineComment := [' ', '#'], modifiers := [], keywords := [] }

/-- A block comment right behind a carriage return, and a doc comment that is first on its line when
the block comment is out. -/
def insetText : Text := "a\r\n(b)\t  #!c\r\nd #".toList

theorem strip_without_docs_inset :
    (insetLexicon.lineComment ≠ [] ∧ insetLexicon.lineComment <+: insetLexicon.docLine ∧
      '\r' ∉ insetLexicon.docLine ∧ '\n' ∉ insetLexicon.docLine ∧
      ∀ l ∈ insetText.lines, '\r' ∉ l.dropLast) ∧
    strip insetLexicon insetText = strip { insetLexicon with docLine := [] } insetText ∧
    strip insetLexicon insetText = "a\r\n\r\nd".toList := by
  have hline : insetLexicon.lineComment ≠ [] := by decide
  have hpre : insetLexicon.lineComment <+: insetLexicon.docLine := by decide
  have hdoc : '\r' ∉ insetLexicon.docLine ∧ '\n' ∉ insetLexicon.docLine := by decide
  have hs : ∀ l ∈ insetText.lines, '\r' ∉ l.dropLast := by decide
  exact ⟨⟨hline, hpre, hdoc.1, hdoc.2, hs⟩, strip_without_docs hline hpre hdoc hs, by cbv⟩

end Comment

end Declutter
