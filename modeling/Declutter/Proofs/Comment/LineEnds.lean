import Mathlib
import Declutter.Proofs.Comment.LineComment
import Declutter.Proofs.Text.LineEnds

/-!
# Comments and line ends

Once the block comments are out, every line is stripped by itself (`strip_eq_map_lineRest`), and it
keeps the carriage return at its end, if it has one (`lineEnd_lineRest`). Only block comments take
carriage returns away: of a comment that runs over lines the line feeds are left, and nothing before
them (`crlf_append_stripBlocks`).

Carriage returns that are put into a text before its line feeds change nothing else. They are in the
text without its comments too, or have gone with a comment (`returned_strip`).
-/

namespace Declutter.Comment

open Text

variable {x : Lexicon} {marker opener closer l s s' t : Text}

/-! ## Line by line -/

/-- A line without its doc comment. -/
def lineNoDoc (x : Lexicon) (l : Text) : Text :=
  if h : x.docLine = [] then l else stripDocs x.docLine h true l

/-- A line without its comments, block comments apart. -/
def lineRest (x : Lexicon) (l : Text) : Text :=
  if x.lineComment = [] then lineNoDoc x l else stripLine x.lineComment (lineNoDoc x l)

theorem stripDocs_unlines (hm : marker ≠ []) (hf : '\n' ∉ marker) {ls : List Text} (hls : ls ≠ []) :
    stripDocs marker hm true (unlines ls) = unlines (ls.map (stripDocs marker hm true)) := by
  induction ls, hls using List.recNeNil with
  | singleton l => simp [unlines]
  | cons l ls hls ih =>
    rw [unlines_cons l hls, stripDocs_append_feed hm hf, ih, List.map_cons,
      unlines_cons _ (by simpa using hls)]

theorem lines_stripDocs (hm : marker ≠ []) (hf : '\n' ∉ marker) (s : Text) :
    (stripDocs marker hm true s).lines = s.lines.map (stripDocs marker hm true) := by
  have hlines : unlines (s.lines.map (stripDocs marker hm true)) = stripDocs marker hm true s := by
    rw [← stripDocs_unlines hm hf (lines_ne_nil s), unlines_lines]
  rw [← hlines]
  apply lines_unlines
  · intro l hl hmem
    obtain ⟨l, hmem', rfl⟩ := List.mem_map.1 hl
    exact not_mem_of_mem_lines hmem' ((stripDocs_pares hm hf true l).sublist.subset hmem)
  · simp [lines_ne_nil]

/-- Doc comments and line comments are taken out of each line by itself. -/
theorem strip_eq_map_lineRest (hdoc : '\n' ∉ x.docLine) (s : Text) :
    strip x s = unlines ((stripBlocks x.blockOpen x.blockClose s).lines.map (lineRest x)) := by
  have hdocs : (if h : x.docLine = [] then stripBlocks x.blockOpen x.blockClose s
      else stripDocs x.docLine h true (stripBlocks x.blockOpen x.blockClose s)).lines =
        (stripBlocks x.blockOpen x.blockClose s).lines.map (lineNoDoc x) := by
    by_cases h : x.docLine = []
    · simp [h, show lineNoDoc x = id from funext fun l => dif_pos h]
    · rw [dif_neg h, lines_stripDocs h hdoc]
      exact List.map_congr_left fun l _ => by rw [lineNoDoc, dif_neg h]
  by_cases hc : x.lineComment = []
  · rw [show lineRest x = lineNoDoc x from funext fun l => if_pos hc, ← hdocs, unlines_lines]
    exact if_pos hc
  · rw [show lineRest x = stripLine x.lineComment ∘ lineNoDoc x from funext fun l => if_neg hc,
      ← List.map_map, ← hdocs]
    exact if_neg hc

/-! ## Carriage returns at the end of a line -/

theorem stripDocs_append_return (hm : marker ≠ []) (hf : '\n' ∉ marker) (hr : '\r' ∉ marker)
    (hl : '\n' ∉ l) :
    stripDocs marker hm true (l ++ ['\r']) = stripDocs marker hm true l ++ ['\r'] := by
  have hlr : '\n' ∉ l ++ ['\r'] := by simp [hl]
  rw [stripDocs_of_line hm hf hlr, stripDocs_of_line hm hf hl, docLine?_append_cons rfl hm hr]
  cases docLine? marker l <;> rfl

/-- A carriage return more at the end of a line is one more at the end of what is left of it, unless
there is one already and a comment before it. -/
theorem stripLine_append_return (hm : marker ≠ []) (hr : '\r' ∉ marker) (l : Text) :
    ReturnedLine (stripLine marker l) (stripLine marker (l ++ ['\r'])) := by
  obtain ⟨body, hbody, hstrip⟩ := stripLine_cases marker l
  obtain ⟨body', hbody', hstrip'⟩ := stripLine_cases marker (l ++ ['\r'])
  rw [show lineEnd (l ++ ['\r']) = ['\r'] from if_pos (by simp)] at hbody' hstrip'
  obtain rfl : l = body' := List.append_cancel_right hbody'
  rw [hstrip, hstrip']
  cases hcut : cut? marker body with
  | none =>
    have hnone : cut? marker l = none := by
      rw [cut?_eq_none_iff] at hcut ⊢
      rw [hbody]
      refine fun hin => hcut (isInfix_of_append hm ?_ hin)
      intro c hc
      unfold lineEnd at hc
      split at hc
      · rwa [List.mem_singleton.1 hc]
      · cases hc
    rw [hnone]
    exact .inr rfl
  | some y =>
    obtain ⟨before, rest⟩ := y
    have hsome : cut? marker l = some (before, rest ++ lineEnd l) := by
      have := cut?_append hcut (lineEnd l)
      rwa [← hbody] at this
    rw [hsome]
    simp only
    by_cases hl : l.getLast? = some '\r'
    · exact .inl (by rw [lineEnd, if_pos hl])
    · exact .inr (by rw [lineEnd, if_neg hl, List.append_nil])

theorem lineRest_append_return (hdoc : '\n' ∉ x.docLine ∧ '\r' ∉ x.docLine)
    (hline : '\r' ∉ x.lineComment) (hl : '\n' ∉ l) :
    ReturnedLine (lineRest x l) (lineRest x (l ++ ['\r'])) := by
  have hnoDoc : lineNoDoc x (l ++ ['\r']) = lineNoDoc x l ++ ['\r'] := by
    unfold lineNoDoc
    split
    · rfl
    · next h => exact stripDocs_append_return h hdoc.1 hdoc.2 hl
  unfold lineRest
  rw [hnoDoc]
  split
  · exact .inr rfl
  · next h => exact stripLine_append_return h hline _

theorem lineEnd_stripDocs (hm : marker ≠ []) (hf : '\n' ∉ marker) (hr : '\r' ∉ marker)
    (hl : '\n' ∉ l) : lineEnd (stripDocs marker hm true l) = lineEnd l := by
  rw [stripDocs_of_line hm hf hl]
  cases hd : docLine? marker l with
  | none => rfl
  | some y =>
    obtain ⟨doc, rest⟩ := y
    obtain ⟨indent, line, rfl, hs, hindent, hinline, -⟩ := docLine?_parts hd
    -- the comment has no carriage return, so the last one of the line is in the rest
    have hdoc : '\r' ∉ indent ++ marker ++ line := by
      have h1 : '\r' ∉ indent := fun hc => absurd (hindent _ hc) (by decide)
      have h2 : '\r' ∉ line := fun hc => absurd (hinline _ hc) (by decide)
      simp [h1, h2, hr]
    rw [lineEnd_eq_iff, hs]
    by_cases hrest : rest = []
    · subst hrest
      have hlast : (indent ++ marker ++ line).getLast? ≠ some '\r' :=
        fun hc => hdoc (List.mem_of_getLast? hc)
      simpa using hlast
    · rw [List.getLast?_append_of_ne_nil _ hrest]

theorem lineEnd_stripLine (marker l : Text) : lineEnd (stripLine marker l) = lineEnd l := by
  obtain ⟨body, -, hstrip⟩ := stripLine_cases marker l
  rw [hstrip]
  split
  · next before _ _ =>
    have htrim : (trimEnd before).getLast? ≠ some '\r' := by
      intro hc
      have hhead := List.head?_dropWhile_not isBlank before.reverse
      rw [trimEnd, List.getLast?_reverse] at hc
      rw [hc] at hhead
      exact absurd hhead (by decide)
    rw [lineEnd_eq_iff]
    by_cases hl : l.getLast? = some '\r'
    · simp [lineEnd, hl]
    · simpa [lineEnd, hl] using htrim
  · rfl

/-- A line keeps its carriage return, and gets none. -/
theorem lineEnd_lineRest (hdoc : '\n' ∉ x.docLine ∧ '\r' ∉ x.docLine) (hl : '\n' ∉ l) :
    lineEnd (lineRest x l) = lineEnd l := by
  have hnoDoc : lineEnd (lineNoDoc x l) = lineEnd l := by
    unfold lineNoDoc
    split
    · rfl
    · next h => exact lineEnd_stripDocs h hdoc.1 hdoc.2 hl
  unfold lineRest
  split
  · exact hnoDoc
  · rw [lineEnd_stripLine, hnoDoc]

theorem not_mem_lineRest (hdoc : '\n' ∉ x.docLine) (hl : '\n' ∉ l) : '\n' ∉ lineRest x l := by
  have hnoDoc : '\n' ∉ lineNoDoc x l := by
    unfold lineNoDoc
    split
    · exact hl
    · next h => exact fun hc => hl ((stripDocs_pares h hdoc true l).sublist.subset hc)
  unfold lineRest
  split
  · exact hnoDoc
  · exact fun hc => hnoDoc ((stripLine_sublist _ _).subset hc)

/-- The lines that are left end in carriage returns if they did before. -/
theorem crlf_strip_iff (hdoc : '\n' ∉ x.docLine ∧ '\r' ∉ x.docLine) (s : Text) :
    Crlf (strip x s) ↔ Crlf (stripBlocks x.blockOpen x.blockClose s) := by
  have hfeed : ∀ l ∈ (stripBlocks x.blockOpen x.blockClose s).lines, '\n' ∉ l :=
    fun l hl => not_mem_of_mem_lines hl
  rw [strip_eq_map_lineRest hdoc.1, crlf_unlines, crlf_iff_lines, ← List.map_dropLast]
  · simp only [List.forall_mem_map]
    refine forall₂_congr fun l hl => ?_
    exact lineEnd_eq_iff.1 (lineEnd_lineRest hdoc (hfeed l (List.dropLast_subset _ hl)))
  · intro l hl
    obtain ⟨l, hmem, rfl⟩ := List.mem_map.1 hl
    exact not_mem_lineRest hdoc.1 (hfeed l hmem)

/-! ## Carriage returns in block comments -/

/-- The block comments of a text, each with what is left of the text before it, if `kept` is left
of what was read already. -/
def blocksFrom (opener closer kept s : Text) : List (Text × Text) :=
  if _h : opener = [] ∨ closer = [] then []
  else
    match _ho : cut? opener s with
    | none => []
    | some (before, rest) =>
      match _hc : cut? closer rest with
      | none => []
      | some (inside, after) =>
        let comment := opener ++ inside ++ closer
        (kept ++ before, comment) ::
          blocksFrom opener closer (kept ++ before ++ List.replicate (feeds comment) '\n') after
termination_by s.length
decreasing_by
  simp only [not_or] at _h
  exact Nat.lt_trans (length_lt_of_cut? _h.2 _hc) (length_lt_of_cut? _h.1 _ho)

/-- A comment without a line feed, or one with a single line feed for which a carriage return is
left right before the comment. -/
def KeepsReturn (kept comment : Text) : Prop :=
  feeds comment = 0 ∨ feeds comment = 1 ∧ kept.getLast? = some '\r'

theorem crlf_of_append (hs : s.getLast? ≠ some '\r') (h : Crlf (s ++ t)) : Crlf t := by
  intro before after ht
  have hlast := (crlf_append.1 h).2 before after ht
  cases before with
  | nil => exact absurd (by simpa using hlast) hs
  | cons c before =>
    rwa [List.getLast?_append_of_ne_nil _ (by simp)] at hlast

/-- **Block comments take carriage returns along.** If every line feed had one before it, it still
has exactly if no comment takes one away. -/
theorem crlf_append_stripBlocks (hclose : '\r' ∉ closer) (kept : Text) (hs : Crlf s) :
    Crlf (kept ++ stripBlocks opener closer s) ↔
      Crlf kept ∧ ∀ b ∈ blocksFrom opener closer kept s, KeepsReturn b.1 b.2 := by
  fun_induction blocksFrom opener closer kept s with
  | case1 kept s hoff => simp [stripBlocks_of_off hoff, hs.append_iff]
  | case2 kept s hon hnone => simp [stripBlocks_of_none hnone, hs.append_iff]
  | case3 kept s hon before rest ho hnone => simp [stripBlocks_of_unclosed ho hnone, hs.append_iff]
  | case4 kept s hon before rest ho inside after hc comment ih =>
    have hsplit : s = before ++ comment ++ after := by
      rw [cut?_eq_some ho, cut?_eq_some hc]
      simp [comment]
    have hbefore : Crlf before := by
      rw [hsplit, List.append_assoc] at hs
      exact (crlf_append.1 hs).1
    have hafter : Crlf after := by
      rw [hsplit] at hs
      refine crlf_of_append (fun hlast => hclose ?_) hs
      have hne : closer ≠ [] := fun h => hon (.inr h)
      have hend : before ++ comment = before ++ (opener ++ inside) ++ closer := by simp [comment]
      rw [hend, List.getLast?_append_of_ne_nil _ hne] at hlast
      exact List.mem_of_getLast? hlast
    have hfeeds : (opener ++ inside ++ closer).filter (· == '\n') =
        List.replicate (feeds comment) '\n' := List.filter_beq ..
    rw [stripBlocks_of_block hon ho hc, hfeeds, ← List.append_assoc, ← List.append_assoc, ih hafter,
      crlf_append_replicate, hbefore.append_iff, List.forall_mem_cons, and_assoc]
    rfl

/-! ## Texts with more carriage returns -/

section
variable (hopen : '\r' ∉ opener ∧ '\n' ∉ opener) (hclose : '\r' ∉ closer ∧ '\n' ∉ closer)
include hopen hclose

theorem returned_stripBlocks (h : Returned s s') :
    Returned (stripBlocks opener closer s) (stripBlocks opener closer s') := by
  fun_induction stripBlocks opener closer s generalizing s' with
  | case1 s hoff =>
    rw [stripBlocks_of_off hoff]
    exact h
  | case2 s hon hnone =>
    rw [stripBlocks_of_none (h.cut?_eq_none hopen.1 hopen.2 (fun hc => hon (.inl hc)) hnone)]
    exact h
  | case3 s hon before rest ho hnone =>
    obtain ⟨before', rest', ho', -, hrest⟩ :=
      h.cut?_eq_some hopen.1 hopen.2 (fun hc => hon (.inl hc)) ho
    have hc' := hrest.cut?_eq_none hclose.1 hclose.2 (fun hc => hon (.inr hc)) hnone
    rw [stripBlocks_of_unclosed ho' hc']
    exact h
  | case4 s hon before rest ho inside after hc ih =>
    obtain ⟨before', rest', ho', hbefore, hrest⟩ :=
      h.cut?_eq_some hopen.1 hopen.2 (fun hc => hon (.inl hc)) ho
    obtain ⟨inside', after', hc', hinside, hafter⟩ :=
      hrest.cut?_eq_some hclose.1 hclose.2 (fun hc => hon (.inr hc)) hc
    have hfeeds : (opener ++ inside' ++ closer).filter (· == '\n') =
        (opener ++ inside ++ closer).filter (· == '\n') := by
      simp only [List.filter_append, hinside.filter_feed]
    rw [stripBlocks_of_block hon ho' hc', hfeeds]
    exact (hbefore.append (.refl _)).append (ih hafter)

end

/-- **Carriage returns before line feeds** make no difference to what is stripped. -/
theorem returned_strip (hopen : '\r' ∉ x.blockOpen ∧ '\n' ∉ x.blockOpen)
    (hclose : '\r' ∉ x.blockClose ∧ '\n' ∉ x.blockClose)
    (hdoc : '\n' ∉ x.docLine ∧ '\r' ∉ x.docLine) (hline : '\r' ∉ x.lineComment)
    (h : Returned s s') : Returned (strip x s) (strip x s') := by
  rw [strip_eq_map_lineRest hdoc.1, strip_eq_map_lineRest hdoc.1]
  apply ReturnedLines.unlines
  apply (returned_stripBlocks hopen hclose h).lines.map
  intro l hl
  exact lineRest_append_return hdoc hline (not_mem_of_mem_lines hl)

end Declutter.Comment
