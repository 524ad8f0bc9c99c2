import Mathlib
import Declutter.Proofs.Comment.Lines
import Declutter.Proofs.Text.Occurrence

/-!
# Texts that stripping leaves alone

After `strip`, no line has a line comment (`not_isInfix_of_mem_lines_strip`), and then no line is a
doc comment either. What `strip` may leave is a block comment (`HasBlock`): taking a comment out
brings together what stood on either side of it, and the two may form a marker. So stripping again
changes the text exactly if it has a block comment (`strip_eq_self_iff`, `strip_strip_iff`), and it
is not idempotent (`strip_spliced_csharp`).
-/

namespace Declutter.Comment

open Text

variable {marker opener closer s doc rest line : Text}

/-! ## Block comments -/

/-- The text has a block comment: an opener and, after it, a closer. -/
def HasBlock (opener closer s : Text) : Prop :=
  ∃ before inside after, s = before ++ opener ++ (inside ++ closer ++ after)

theorem hasBlock_of_cut? {before inside after : Text} (ho : cut? opener s = some (before, rest))
    (hc : cut? closer rest = some (inside, after)) : HasBlock opener closer s :=
  ⟨before, inside, after, by rw [cut?_eq_some ho, cut?_eq_some hc]⟩

theorem stripBlocks_of_off (h : opener = [] ∨ closer = []) (s : Text) :
    stripBlocks opener closer s = s := by
  rw [stripBlocks, dif_pos h]

theorem stripBlocks_of_not_hasBlock (h : ¬ HasBlock opener closer s) :
    stripBlocks opener closer s = s := by
  rw [stripBlocks]
  split
  · rfl
  split
  · rfl
  split
  · rfl
  next ho _ _ hc => exact absurd (hasBlock_of_cut? ho hc) h

/-- A block comment is longer than its line feeds. -/
theorem length_stripBlocks_lt (ho : opener ≠ []) (hc : closer ≠ []) (hf : '\n' ∉ opener)
    (h : HasBlock opener closer s) : (stripBlocks opener closer s).length < s.length := by
  obtain ⟨a, b, e, hs⟩ := h
  rw [stripBlocks, dif_neg (by simp [ho, hc])]
  split
  · next hnone => exact absurd ⟨a, b ++ closer ++ e, hs.symm⟩ (cut?_eq_none_iff.1 hnone)
  next before rest hopen =>
  split
  · next hnone =>
    have hin : closer <:+: rest := isInfix_of_cut? hopen hs ⟨b, e, rfl⟩
    exact absurd hin (cut?_eq_none_iff.1 hnone)
  next inside after hclose =>
  have hfeeds : (opener ++ inside ++ closer).filter (· == '\n') =
      (inside ++ closer).filter (· == '\n') := by
    have hopener : opener.filter (· == '\n') = [] := by
      rw [List.filter_eq_nil_iff]
      intro c hmem hfeed
      exact hf (eq_of_beq hfeed ▸ hmem)
    rw [List.append_assoc, List.filter_append, hopener, List.nil_append]
  have hin := List.length_filter_le (· == '\n') (inside ++ closer)
  have hafter := (stripBlocks_pares opener closer after).sublist.length_le
  have hpos := List.length_pos_iff.2 ho
  rw [hfeeds, cut?_eq_some hopen, cut?_eq_some hclose]
  simp only [List.length_append] at hin ⊢
  omega

/-! ## Doc comments and line comments -/

theorem isInfix_of_docLine? (h : docLine? marker s = some (doc, rest)) : marker <:+: doc := by
  obtain ⟨indent, line, rfl, -⟩ := docLine?_parts h
  exact ⟨indent, line, rfl⟩

theorem stripDocs_of_not_isInfix (hm : marker ≠ []) (fresh : Bool) (h : ¬ marker <:+: s) :
    stripDocs marker hm fresh s = s := by
  fun_induction stripDocs marker hm fresh s with
  | case1 => rfl
  | case2 fresh c s doc rest hd ih =>
    have hd' : docLine? marker (c :: s) = some (doc, rest) := by
      split at hd
      · exact hd
      · cases hd
    have hdoc : doc <:+: c :: s := by
      rw [(docLine?_eq_some hd').1]
      exact (List.prefix_append ..).isInfix
    exact absurd ((isInfix_of_docLine? hd').trans hdoc) h
  | case3 fresh c s _ ih =>
    rw [ih fun hs => h (hs.trans (List.suffix_cons c s).isInfix)]

theorem stripLine_of_not_isInfix (h : ¬ marker <:+: line) : stripLine marker line = line := by
  obtain ⟨body, hline, hstrip⟩ := stripLine_cases marker line
  have hbody : ¬ marker <:+: body := fun hb =>
    h (hline ▸ hb.trans (List.prefix_append ..).isInfix)
  rw [hstrip, cut?_eq_none_iff.2 hbody]

/-- What is left of a line has no line comment; a carriage return is no part of a marker. -/
theorem not_isInfix_stripLine (hm : marker ≠ []) (hr : '\r' ∉ marker) (line : Text) :
    ¬ marker <:+: stripLine marker line := by
  obtain ⟨body, hline, hstrip⟩ := stripLine_cases marker line
  have hending : ∀ c ∈ lineEnd line, c ∉ marker := by
    unfold lineEnd
    split
    · simpa using hr
    · simp
  rw [hstrip]
  split
  · next before _ hcut =>
    intro hin
    have hbefore := (isInfix_of_append hm hending hin).trans (trimEnd_isPrefix before).isInfix
    exact not_isInfix_of_cut? hm hcut hbefore
  · next hcut =>
    rw [hline]
    exact fun hin => cut?_eq_none_iff.1 hcut (isInfix_of_append hm hending hin)

/-! ## All passes -/

section
variable {x : Lexicon} (hline : x.lineComment ≠ [])
include hline

theorem strip_eq_unlines (s : Text) : ∃ noDocs : Text,
    strip x s = unlines (noDocs.lines.map (stripLine x.lineComment)) ∧
      noDocs = if h : x.docLine = [] then stripBlocks x.blockOpen x.blockClose s
        else stripDocs x.docLine h true (stripBlocks x.blockOpen x.blockClose s) := by
  refine ⟨_, ?_, rfl⟩
  rw [strip]
  simp only [hline, if_false]

theorem not_isInfix_of_mem_lines_strip (hr : '\r' ∉ x.lineComment) {l : Text}
    (hl : l ∈ (strip x s).lines) : ¬ x.lineComment <:+: l := by
  obtain ⟨noDocs, hstrip, -⟩ := strip_eq_unlines hline s
  rw [hstrip, lines_unlines_stripLine] at hl
  obtain ⟨l', -, rfl⟩ := List.mem_map.1 hl
  exact not_isInfix_stripLine hline hr l'

theorem strip_sublist_stripBlocks (hdoc : '\n' ∉ x.docLine) (s : Text) :
    (strip x s).Sublist (stripBlocks x.blockOpen x.blockClose s) := by
  obtain ⟨noDocs, hstrip, hdocs⟩ := strip_eq_unlines hline s
  have hsub : noDocs.Sublist (stripBlocks x.blockOpen x.blockClose s) := by
    rw [hdocs]
    split
    · exact .refl _
    · next hm => exact (stripDocs_pares hm hdoc true _).sublist
  rw [hstrip]
  exact (unlines_stripLine_thins _ _).sublist.trans hsub

/-- Without line comments, there is nothing for the later passes. -/
theorem strip_of_stripBlocks (hfeed : '\n' ∉ x.lineComment)
    (hdoc : x.docLine = [] ∨ x.lineComment <:+: x.docLine)
    (hs : ∀ l ∈ s.lines, ¬ x.lineComment <:+: l)
    (hblocks : stripBlocks x.blockOpen x.blockClose s = s) : strip x s = s := by
  have hnone : ¬ x.lineComment <:+: s := by
    intro hin
    obtain ⟨l, hl, hin⟩ := exists_line_of_isInfix hfeed hin
    exact hs l hl hin
  obtain ⟨noDocs, hstrip, hdocs⟩ := strip_eq_unlines hline s
  have hsame : noDocs = s := by
    rw [hdocs, hblocks]
    split
    · rfl
    · next hm =>
      apply stripDocs_of_not_isInfix
      exact fun hin => hnone ((hdoc.resolve_left hm).trans hin)
  have hmap : s.lines.map (stripLine x.lineComment) = s.lines :=
    (List.map_congr_left fun l hl => stripLine_of_not_isInfix (hs l hl)).trans (List.map_id' _)
  rw [hstrip, hsame, hmap]
  exact List.intercalate_splitOn _

/-- **What stripping leaves alone**: a text without line comments stays as it is exactly if it has
no block comment, or these are off. -/
theorem strip_eq_self_iff (hfeed : '\n' ∉ x.lineComment)
    (hdoc : x.docLine = [] ∨ '\n' ∉ x.docLine ∧ x.lineComment <:+: x.docLine)
    (hopen : '\n' ∉ x.blockOpen) (hs : ∀ l ∈ s.lines, ¬ x.lineComment <:+: l) :
    strip x s = s ↔
      x.blockOpen = [] ∨ x.blockClose = [] ∨ ¬ HasBlock x.blockOpen x.blockClose s := by
  have hdocfeed : '\n' ∉ x.docLine := by
    rcases hdoc with hdoc | hdoc
    · simp [hdoc]
    · exact hdoc.1
  constructor
  · intro hsame
    by_contra hcon
    simp only [not_or, not_not] at hcon
    obtain ⟨ho, hc, hblock⟩ := hcon
    have hle := (strip_sublist_stripBlocks hline hdocfeed s).length_le
    have hlt := length_stripBlocks_lt ho hc hopen hblock
    rw [hsame] at hle
    omega
  · intro hoff
    refine strip_of_stripBlocks hline hfeed (hdoc.imp_right And.right) hs ?_
    rcases hoff with ho | hc | hblock
    · exact stripBlocks_of_off (.inl ho) s
    · exact stripBlocks_of_off (.inr hc) s
    · exact stripBlocks_of_not_hasBlock hblock

end

/-- **Stripping again, with any markers**: no line comment is left, and nothing changes exactly if
block comments are off or none is left. -/
theorem strip_strip_iff {x : Lexicon} (hline : x.lineComment ≠ []) (hreturn : '\r' ∉ x.lineComment)
    (hfeed : '\n' ∉ x.lineComment)
    (hdoc : x.docLine = [] ∨ '\n' ∉ x.docLine ∧ x.lineComment <:+: x.docLine)
    (hopen : '\n' ∉ x.blockOpen) (s : Text) :
    (∀ l ∈ (strip x s).lines, ¬ x.lineComment <:+: l) ∧
      (strip x (strip x s) = strip x s ↔
        x.blockOpen = [] ∨ x.blockClose = [] ∨
          ¬ HasBlock x.blockOpen x.blockClose (strip x s)) := by
  have hclean : ∀ l ∈ (strip x s).lines, ¬ x.lineComment <:+: l :=
    fun l hl => not_isInfix_of_mem_lines_strip hline hreturn hl
  exact ⟨hclean, strip_eq_self_iff hline hfeed hdoc hopen hclean⟩

/-- Markers that overlap: what closes a block comment is the end of what opens it. -/
def overlapLexicon : Lexicon :=
  { blockOpen := ['a', 'b'], blockClose := ['b'], docLine := ['-', '#', '#'], lineComment := ['#'],
    modifiers := [], keywords := [] }

theorem strip_strip_iff_overlap :
    (overlapLexicon.lineComment ≠ [] ∧ '\r' ∉ overlapLexicon.lineComment ∧
      '\n' ∉ overlapLexicon.lineComment ∧ '\n' ∉ overlapLexicon.docLine ∧
      overlapLexicon.lineComment <:+: overlapLexicon.docLine ∧ '\n' ∉ overlapLexicon.blockOpen) ∧
    strip overlapLexicon "aabbbb#c\n -##".toList = "abb\n".toList ∧
    strip overlapLexicon "abb\n".toList ≠ "abb\n".toList := by
  have hline : overlapLexicon.lineComment ≠ [] := by decide
  have hreturn : '\r' ∉ overlapLexicon.lineComment := by decide
  have hfeed : '\n' ∉ overlapLexicon.lineComment := by decide
  have hdoc : '\n' ∉ overlapLexicon.docLine ∧
      overlapLexicon.lineComment <:+: overlapLexicon.docLine := by decide
  have hopen : '\n' ∉ overlapLexicon.blockOpen := by decide
  have honce : strip overlapLexicon "aabbbb#c\n -##".toList = "abb\n".toList := by cbv
  have hblock : HasBlock ['a', 'b'] ['b'] "abb\n".toList := ⟨[], [], ['\n'], rfl⟩
  have htwice := (strip_strip_iff hline hreturn hfeed (.inr hdoc) hopen "aabbbb#c\n -##".toList).2
  rw [honce] at htwice
  refine ⟨⟨hline, hreturn, hfeed, hdoc.1, hdoc.2, hopen⟩, honce, fun hsame => ?_⟩
  rcases htwice.1 hsame with hoff | hoff | hnone
  · cases hoff
  · cases hoff
  · exact hnone hblock

/-- **Stripping twice** is stripping once exactly if no block comment was put together where
comments were taken out. -/
theorem strip_strip_csharp (s : Text) :
    strip .csharp (strip .csharp s) = strip .csharp s ↔
      ¬ HasBlock ['/', '*'] ['*', '/'] (strip .csharp s) := by
  have hclean : ∀ l ∈ (strip .csharp s).lines, ¬ Lexicon.csharp.lineComment <:+: l :=
    fun l hl => not_isInfix_of_mem_lines_strip (by decide) (by decide) hl
  rw [strip_eq_self_iff (by decide) (by decide) (.inr (by decide)) (by decide) hclean]
  simp [Lexicon.csharp]

/-- The block comment is taken out, and the slash before it opens another with the star after it. -/
theorem strip_spliced_csharp : strip .csharp (strip .csharp "//**/* b */".toList) ≠
    strip .csharp "//**/* b */".toList := by
  have honce : strip .csharp "//**/* b */".toList = "/* b */".toList := by cbv
  have htwice : strip .csharp "/* b */".toList = [] := by cbv
  rw [honce, htwice]
  decide

end Declutter.Comment
