import Mathlib
import Declutter.Proofs.Scrub.LineEnds

/-!
# Scrubbing again

The marker lines of a scrubbed text are comments, so scrubbing it again makes them blank lines. They
stand above long methods, and there they change nothing: the same methods are long
(`annotated_scrub_again`).

The text without comments must be one that stripping leaves alone. It then has no block comment, and
the marker lines bring none (`not_hasBlock_of_woven`). The signatures of the long methods must be
without closing braces, since one that has some need not end within the method around it.
-/

namespace Declutter

open Text Comment

variable {c : Config} {source l name : Text} {ls out : List Text} {anchors : List Marker.Anchor}
  {i : Nat}

/-! ## Marker lines without comments -/

theorem Marker.lineAbove_slashes (l name : Text) : ∃ ending,
    lineAbove ['/', '/'] l name =
      l.takeWhile isIndent ++ '/' :: '/' :: (wording [] name ++ ending) := by
  refine ⟨if l.getLast? = some '\r' then ['\r'] else [], ?_⟩
  rw [lineAbove, List.append_assoc]
  rfl

theorem Marker.isIndent_of_mem {e : Char} (he : e ∈ l.takeWhile isIndent) : isIndent e :=
  List.all_eq_true.1 List.all_takeWhile _ he

theorem not_mem_marker {e : Char} (he : e ∉ '/' :: '\r' :: Marker.wording [] [])
    (hindent : isIndent e = false) (hword : isNameChar e = false)
    (hname : ∀ e ∈ name, isNameChar e) (l : Text) :
    e ∉ Marker.lineAbove ['/', '/'] l name := by
  simp only [List.mem_cons, not_or] at he
  apply Marker.not_mem_lineAbove
  · simp only [List.mem_cons, not_or]
    exact he.2
  · simp [he.1]
  · intro hmem
    rw [Marker.isIndent_of_mem hmem] at hindent
    cases hindent
  · intro hmem
    rw [hname e hmem] at hword
    cases hword

/-- Of a marker line, only its carriage return is left. -/
theorem isBlank_of_mem_lineRest {e : Char} (hname : ∀ e ∈ name, isNameChar e)
    (he : e ∈ lineRest .csharp (Marker.lineAbove ['/', '/'] l name)) : isBlank e := by
  have hfeed := not_mem_marker (e := '\n') (by decide) (by decide) (by decide) hname l
  have hstar := not_mem_marker (e := '*') (by decide) (by decide) (by decide) hname l
  have hstrip : strip .csharp (Marker.lineAbove ['/', '/'] l name) =
      lineRest .csharp (Marker.lineAbove ['/', '/'] l name) := by
    have hblocks := stripBlocks_of_not_hasBlock (not_hasBlock_of_not_mem hstar)
    rw [strip_eq_map_lineRest (by decide)]
    show unlines ((stripBlocks ['/', '*'] ['*', '/'] _).lines.map _) = _
    rw [hblocks, lines_of_not_mem hfeed]
    exact List.intercalate_singleton
  rw [← hstrip] at he
  obtain ⟨ending, hline⟩ := Marker.lineAbove_slashes l name
  rw [hline] at he hfeed hstar
  simp only [List.mem_append, List.mem_cons, not_or] at hfeed hstar
  have hcomment : IsLineComment (l.takeWhile isIndent) (Marker.wording [] name ++ ending) [] :=
    isLineComment_of_not_mem (by simp [hfeed]) (by simp [hstar]) (by simp [Marker.wording]) _ []
  have hslash : '/' ∉ l.takeWhile isIndent := fun h =>
    absurd (Marker.isIndent_of_mem h) (by decide)
  rw [strip_line_comment hfeed.1 (fun h => hslash (h.subset (by decide)))
    (fun h => hslash (h.subset (by decide))) (fun h => hslash (List.mem_of_getLast? h)) hcomment,
    trimEnd_of_indent fun e h => Marker.isIndent_of_mem h, List.nil_append, lineEnd] at he
  split at he
  · rw [List.mem_singleton.1 he]
    decide
  · cases he

/-! ## Stripping a scrubbed text -/

theorem lineRest_of_mem_lines (hl : l ∈ (strip .csharp source).lines) :
    lineRest .csharp l = l := by
  have hline : ¬ ['/', '/'] <:+: l := not_isInfix_of_mem_lines_strip (by decide) (by decide) hl
  have hdoc : ¬ ['/', '/', '/'] <:+: l := fun h =>
    hline ((show ['/', '/'] <:+: ['/', '/', '/'] by decide).trans h)
  have hnoDoc : lineNoDoc .csharp l = l := stripDocs_of_not_isInfix _ true hdoc
  show stripLine ['/', '/'] (lineNoDoc .csharp l) = l
  rw [hnoDoc, stripLine_of_not_isInfix hline]

/-- Marker lines open no block comments and close none. -/
theorem not_hasBlock_of_woven (h : Marker.Woven ['/', '/'] i ls anchors out)
    (hname : ∀ a ∈ anchors, ∀ e ∈ a.name, isNameChar e) (hls : ls ≠ [])
    (hblock : ¬ HasBlock ['/', '*'] ['*', '/'] (unlines ls)) :
    ¬ HasBlock ['/', '*'] ['*', '/'] (unlines out) := by
  have hstar : ∀ l, ∀ a ∈ anchors, '*' ∉ Marker.lineAbove ['/', '/'] l a.name := fun l a ha =>
    not_mem_marker (by decide) (by decide) (by decide) (hname a ha) l
  rw [not_hasBlock_unlines (by decide) (by decide) hls] at hblock
  rw [not_hasBlock_unlines (by decide) (by decide) (h.ne_nil hls)]
  constructor
  · apply h.forall_mem hblock.1
    intro l _ a ha
    exact not_hasBlock_of_not_mem (hstar l a ha)
  · apply h.pairwise hblock.2
    intro l a ha k
    constructor
    · intro hopen
      exact absurd (hopen.subset (by decide)) (hstar l a ha)
    · intro _ hclose
      exact absurd (hclose.subset (by decide)) (hstar l a ha)

theorem drop_cons_sub {α : Type} {n : Nat} (h : i < n) (x : α) (xs : List α) :
    (x :: xs).drop (n - i) = xs.drop (n - (i + 1)) := by
  rw [show n - i = n - (i + 1) + 1 by omega, List.drop_succ_cons]

/-- **Blank lines in place of markers.** If `f` leaves the lines alone and makes the markers blank,
what it makes of the lines with their markers is the lines with blanks above those that have one. -/
theorem padded_of_woven {P : Text → Text → Prop} {f : Text → Text}
    (h : Marker.Woven ['/', '/'] i ls anchors out) (hf : ∀ l ∈ ls, f l = l)
    (hblank : ∀ l, ∀ a ∈ anchors, ∀ e ∈ f (Marker.lineAbove ['/', '/'] l a.name), isBlank e)
    (hP : ∀ a ∈ anchors, ∀ w, P w (unlines (ls.drop (a.line - i)))) :
    Method.Padded P (ls.flatMap ('\n' :: ·)) ((out.map f).flatMap ('\n' :: ·)) := by
  induction h with
  | done => exact .nil
  | @line i l ls anchors out hgt h ih =>
    obtain ⟨hl, hls⟩ := List.forall_mem_cons.1 hf
    rw [List.map_cons, List.flatMap_cons, List.flatMap_cons, hl]
    apply Method.Padded.append_left
    apply ih hls hblank
    intro a ha w
    rw [← drop_cons_sub (hgt a ha) l ls]
    exact hP a ha w
  | @marker i l ls a anchors out ha hgt h ih =>
    obtain ⟨hl, hls⟩ := List.forall_mem_cons.1 hf
    have hrest : Method.Padded P (ls.flatMap ('\n' :: ·)) ((out.map f).flatMap ('\n' :: ·)) := by
      apply ih hls fun l b hb => hblank l b (List.mem_cons_of_mem _ hb)
      intro b hb w
      rw [← drop_cons_sub (hgt b hb) l ls]
      exact hP b (List.mem_cons_of_mem _ hb) w
    have hlines : unlines (l :: ls) = l ++ ls.flatMap ('\n' :: ·) :=
      List.cons.inj (cons_unlines (List.cons_ne_nil l ls)) |>.2
    -- a line feed and the blanks of the marker are put in before the line feed of its line
    have hmarker := hP a (List.mem_cons_self ..) ('\n' :: f (Marker.lineAbove ['/', '/'] l a.name))
    rw [ha, Nat.sub_self, List.drop_zero, hlines] at hmarker
    rw [List.map_cons, List.map_cons, List.flatMap_cons, List.flatMap_cons, List.flatMap_cons, hl]
    refine .feed (List.forall_mem_cons.2 ⟨by decide, ?_⟩) hmarker (.append_left l hrest)
    exact hblank l a (List.mem_cons_self ..)

/-! ## The same methods -/

theorem not_hasBlock_of_strip_eq (h : strip .csharp (strip .csharp source) = strip .csharp source) :
    ¬ HasBlock ['/', '*'] ['*', '/'] (strip .csharp source) := by
  have hlines : ∀ l ∈ (strip .csharp source).lines, ¬ Lexicon.csharp.lineComment <:+: l :=
    fun l hl => not_isInfix_of_mem_lines_strip (by decide) (by decide) hl
  rw [strip_eq_self_iff (by decide) (by decide) (.inr (by decide)) (by decide) hlines] at h
  simpa [Lexicon.csharp] using h

theorem isNameChar_of_mem_anchor {a : Marker.Anchor} {e : Char}
    (ha : a ∈ (c.scrub source).annotated.map (·.anchor)) (he : e ∈ a.name) : isNameChar e := by
  obtain ⟨m, hmem, rfl⟩ := List.mem_map.1 ha
  have hname : m.name = Method.shownName m.signature :=
    Method.scanFrom_name (List.mem_of_mem_filter hmem)
  have he : e ∈ m.name := he
  exact Method.isNameChar_of_mem_shownName (hname ▸ he)

section
variable (hc : c.lexicon = .csharp)
include hc

theorem annotated_eq_flagged (s : Text) :
    (c.scrub s).annotated = Method.flagged .csharp c.lineThreshold (strip .csharp s) := by
  rw [← hc]
  rfl

theorem woven_scrub_csharp (source : Text) :
    Marker.Woven ['/', '/'] 0 (strip .csharp source).lines
      ((c.scrub source).annotated.map (·.anchor)) (c.scrub source).text.lines := by
  have hw := woven_scrub (c := c) (by rw [hc]; decide) (by rw [hc]; decide) source
  rw [hc] at hw
  exact hw

/-- Stripping a scrubbed text again makes blank lines of its markers. -/
theorem strip_scrub_text (hfix : strip .csharp (strip .csharp source) = strip .csharp source) :
    strip .csharp (c.scrub source).text =
      unlines ((c.scrub source).text.lines.map (lineRest .csharp)) := by
  have hblock : ¬ HasBlock ['/', '*'] ['*', '/'] (unlines (c.scrub source).text.lines) := by
    apply not_hasBlock_of_woven (woven_scrub_csharp hc source) _ (lines_ne_nil _)
    · rw [unlines_lines]
      exact not_hasBlock_of_strip_eq hfix
    · exact fun a ha e he => isNameChar_of_mem_anchor ha he
  rw [unlines_lines] at hblock
  rw [strip_eq_map_lineRest (by decide)]
  exact congrArg (fun s : Text => unlines (s.lines.map (lineRest .csharp)))
    (stripBlocks_of_not_hasBlock hblock)

/-- **Scrubbing again marks the same methods**: those with the same signatures and names, in the
same order. -/
theorem annotated_scrub_again
    (hfix : strip .csharp (strip .csharp source) = strip .csharp source)
    (hsig : ∀ m ∈ (c.scrub source).annotated, '}' ∉ m.signature) :
    (c.scrub (c.scrub source).text).annotated.map (fun m => (m.signature, m.name)) =
      (c.scrub source).annotated.map (fun m => (m.signature, m.name)) := by
  have hpadded : Method.Padded
      (fun _ t => Method.IsLong (Lexicon.csharp.modifiers.filter (· ≠ [])) c.lineThreshold t)
      ('\n' :: strip .csharp source) ('\n' :: strip .csharp (c.scrub source).text) := by
    rw [strip_scrub_text hc hfix, cons_unlines (by simp [lines_ne_nil]),
      ← unlines_lines (strip .csharp source), cons_unlines (lines_ne_nil _)]
    apply padded_of_woven (woven_scrub_csharp hc source) fun l hl => lineRest_of_mem_lines hl
    · intro l a ha e he
      exact isBlank_of_mem_lineRest (fun e he => isNameChar_of_mem_anchor ha he) he
    · intro a ha _
      obtain ⟨m, hmem, rfl⟩ := List.mem_map.1 ha
      have hbrace := hsig m hmem
      rw [annotated_eq_flagged hc] at hmem
      exact Method.isLong_of_flagged Lexicon.plainWords_csharp hmem hbrace
  rw [annotated_eq_flagged hc, annotated_eq_flagged hc]
  exact Method.flagged_of_padded Lexicon.plainWords_csharp (fun _ _ h => h) hpadded

end

/-- Settings that mark methods of three lines or more. -/
def briefConfig : Config := { Config.standard with lineThreshold := 1 }

/-- Two methods within another, one of them a line too short. -/
def innerText : Text :=
  "new F()\x7b\n new G()\x7b//a\n\n\x7d\n new H()\x7b\n\x7d\x7d".toList

theorem annotated_scrub_again_innerText :
    (briefConfig.scrub (briefConfig.scrub innerText).text).annotated.map
        (fun m => (m.signature, m.name)) =
      [("new F()".toList, "F".toList), ("new G()".toList, "G".toList)] := by
  have hstrip : strip .csharp innerText =
      "new F()\x7b\n new G()\x7b\n\n\x7d\n new H()\x7b\n\x7d\x7d".toList := by cbv
  have hannotated : (briefConfig.scrub innerText).annotated =
      [⟨0, 5, "new F()".toList, "F".toList⟩, ⟨1, 3, "new G()".toList, "G".toList⟩] := by cbv
  rw [annotated_scrub_again rfl (by rw [hstrip]; cbv) (by rw [hannotated]; decide), hannotated]
  rfl

end Declutter
