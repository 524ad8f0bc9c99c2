import Declutter.Proofs.Comment.FixedPoint

/-!
# Stripping on either side of a line feed

`strip_append_feed`: a text can be cut at a line feed and its parts stripped apart, unless a block
comment runs over the line feed. None does if every block comment that is opened before it is closed
there (`BlocksClosed`), or if nothing behind it closes one. Doc comments and line comments end with
their lines.

A text has no block comment if none of its lines has one, and no line opens one that a later line
closes (`not_hasBlock_unlines`).
-/

namespace Declutter.Comment

open Text

variable {marker opener closer s t before rest inside after : Text}

/-! ## Block comments -/

/-- Every block comment that is opened in a text is closed there. -/
inductive BlocksClosed (opener closer : Text) : Text → Prop
  | none {s : Text} : cut? opener s = none → BlocksClosed opener closer s
  | block {s before rest inside after : Text} : cut? opener s = some (before, rest) →
      cut? closer rest = some (inside, after) → BlocksClosed opener closer after →
      BlocksClosed opener closer s

theorem blocksClosed_iff (ho : cut? opener s = some (before, rest)) :
    BlocksClosed opener closer s ↔
      ∃ inside after, cut? closer rest = some (inside, after) ∧
        BlocksClosed opener closer after := by
  constructor
  · intro h
    cases h with
    | none hnone =>
      rw [ho] at hnone
      cases hnone
    | block ho' hc hafter =>
      rw [ho] at ho'
      cases ho'
      exact ⟨_, _, hc, hafter⟩
  · rintro ⟨inside, after, hc, hafter⟩
    exact .block ho hc hafter

theorem stripBlocks_of_none (h : cut? opener s = none) : stripBlocks opener closer s = s := by
  rw [stripBlocks]
  split
  · rfl
  split
  · rfl
  · next ho =>
    rw [h] at ho
    cases ho

theorem stripBlocks_of_unclosed (ho : cut? opener s = some (before, rest))
    (hc : cut? closer rest = none) : stripBlocks opener closer s = s := by
  rw [stripBlocks]
  split
  · rfl
  split
  · rfl
  next ho' =>
  rw [ho] at ho'
  cases ho'
  split
  · rfl
  · next hc' =>
    rw [hc] at hc'
    cases hc'

theorem stripBlocks_of_block (hon : ¬ (opener = [] ∨ closer = []))
    (ho : cut? opener s = some (before, rest)) (hc : cut? closer rest = some (inside, after)) :
    stripBlocks opener closer s = before ++ (opener ++ inside ++ closer).filter (· == '\n') ++
      stripBlocks opener closer after := by
  rw [stripBlocks, dif_neg hon]
  split
  · next ho' =>
    rw [ho] at ho'
    cases ho'
  next ho' =>
  rw [ho] at ho'
  cases ho'
  split
  · next hc' =>
    rw [hc] at hc'
    cases hc'
  · next hc' =>
    rw [hc] at hc'
    cases hc'
    rfl

/-- What comes before the first opener stays as it is. -/
theorem stripBlocks_append_of_cut? {front : Text}
    (h : cut? opener (front ++ s) = (cut? opener s).map fun x => (front ++ x.1, x.2)) :
    stripBlocks opener closer (front ++ s) = front ++ stripBlocks opener closer s := by
  by_cases hoff : opener = [] ∨ closer = []
  · rw [stripBlocks_of_off hoff, stripBlocks_of_off hoff]
  cases ho : cut? opener s with
  | none =>
    rw [ho] at h
    rw [stripBlocks_of_none ho, stripBlocks_of_none h]
  | some x =>
    obtain ⟨before, rest⟩ := x
    rw [ho] at h
    cases hc : cut? closer rest with
    | none => rw [stripBlocks_of_unclosed ho hc, stripBlocks_of_unclosed h hc]
    | some y =>
      rw [stripBlocks_of_block hoff ho hc, stripBlocks_of_block hoff h hc]
      simp

/-- **Block comments on either side of a line feed** are taken out apart, unless one of them runs
over it. -/
theorem stripBlocks_append_feed (hopen : '\n' ∉ opener) (hclose : '\n' ∉ closer)
    (h : BlocksClosed opener closer s ∨ ¬ closer <:+: t) :
    stripBlocks opener closer (s ++ '\n' :: t) =
      stripBlocks opener closer s ++ '\n' :: stripBlocks opener closer t := by
  fun_induction stripBlocks opener closer s with
  | case1 s hoff => rw [stripBlocks_of_off hoff, stripBlocks_of_off hoff]
  | case2 s hon hnone =>
    have hcut := cut?_append_feed hopen hnone t
    rw [List.append_cons] at hcut ⊢
    rw [stripBlocks_append_of_cut? (by simpa using hcut), List.append_assoc, List.singleton_append]
  | case3 s hon before rest ho hnone =>
    -- The comment that is open here would end behind the line feed, if it did at all.
    have hunclosed : ¬ BlocksClosed opener closer s := by
      rw [blocksClosed_iff ho, hnone]
      simp
    have hout : cut? closer t = none := cut?_eq_none_iff.2 (h.resolve_left hunclosed)
    have hc : cut? closer (rest ++ '\n' :: t) = none := by
      rw [cut?_append_feed hclose hnone, hout]
      rfl
    have hblock : ¬ HasBlock opener closer t := by
      rintro ⟨a, b, e, heq⟩
      refine cut?_eq_none_iff.1 hout ⟨a ++ opener ++ b, e, ?_⟩
      rw [heq]
      simp
    rw [stripBlocks_of_unclosed (cut?_append ho _) hc, stripBlocks_of_not_hasBlock hblock]
  | case4 s hon before rest ho inside after hc ih =>
    have hafter : BlocksClosed opener closer after ∨ ¬ closer <:+: t := by
      rw [blocksClosed_iff ho, hc] at h
      simpa using h
    rw [stripBlocks_of_block hon (cut?_append ho _) (cut?_append hc _), ih hafter]
    simp

theorem hasBlock_append_feed (hopen : '\n' ∉ opener) (hclose : '\n' ∉ closer) :
    HasBlock opener closer (s ++ '\n' :: t) ↔
      HasBlock opener closer s ∨ HasBlock opener closer t ∨ opener <:+: s ∧ closer <:+: t := by
  constructor
  · intro ⟨a, b, e, h⟩
    -- the line feed is before, between or behind the markers
    rw [List.append_assoc, List.append_assoc] at h
    rcases append_feed_eq_append h with ⟨k, rfl, hk⟩ | ⟨k, -, rfl⟩
    · obtain ⟨i, rfl, hi⟩ := append_feed_eq_marker hopen hk.symm
      rcases append_feed_eq_append hi.symm with ⟨j, rfl, hj⟩ | ⟨j, rfl, rfl⟩
      · obtain ⟨f, rfl, -⟩ := append_feed_eq_marker hclose hj.symm
        exact .inl ⟨a, b, f, by simp⟩
      · exact .inr (.inr ⟨⟨a, i, by rw [List.append_assoc]⟩, ⟨j, e, by simp⟩⟩)
    · exact .inr (.inl ⟨k, b, e, by simp⟩)
  · rintro (⟨a, b, e, rfl⟩ | ⟨a, b, e, rfl⟩ | ⟨⟨a, b, rfl⟩, d, e, rfl⟩)
    · exact ⟨a, b, e ++ '\n' :: t, by simp⟩
    · exact ⟨s ++ '\n' :: a, b, e, by simp⟩
    · exact ⟨a, b ++ '\n' :: d, e, by simp⟩

/-- **Block comments line by line.** -/
theorem not_hasBlock_unlines (hopen : '\n' ∉ opener) (hclose : '\n' ∉ closer) {ls : List Text}
    (hls : ls ≠ []) :
    ¬ HasBlock opener closer (unlines ls) ↔ (∀ l ∈ ls, ¬ HasBlock opener closer l) ∧
      ls.Pairwise fun l l' => opener <:+: l → ¬ closer <:+: l' := by
  induction ls, hls using List.recNeNil with
  | singleton l => simp [unlines]
  | cons l ls hne ih =>
    rw [unlines_cons l hne, hasBlock_append_feed hopen hclose, not_or, not_or, ih,
      isInfix_unlines hclose hne, List.forall_mem_cons, List.pairwise_cons]
    simp only [not_and, not_exists]
    constructor
    · intro h
      obtain ⟨hl, ⟨hls, hpairs⟩, hcross⟩ := h
      exact ⟨⟨hl, hls⟩, fun k hk ho => hcross ho k hk, hpairs⟩
    · intro h
      obtain ⟨⟨hl, hls⟩, hcross, hpairs⟩ := h
      exact ⟨hl, ⟨hls, hpairs⟩, fun ho k hk => hcross k hk ho⟩

/-! ## Doc comments -/

section
variable {e : Char} (he : isInLine e = false)
include he

theorem takeWhile_append_cons (s t : Text) :
    (s ++ e :: t).takeWhile isInLine = s.takeWhile isInLine ∧
      (s ++ e :: t).dropWhile isInLine = s.dropWhile isInLine ++ e :: t := by
  induction s with
  | nil => simp [he]
  | cons c s ih =>
    rw [List.cons_append, List.takeWhile_cons, List.takeWhile_cons, List.dropWhile_cons,
      List.dropWhile_cons, ih.1, ih.2]
    exact ⟨rfl, by split <;> rfl⟩

/-- A doc comment ends where its line does. -/
theorem docLine?_append_cons (hm : marker ≠ []) (hf : e ∉ marker) (s t : Text) :
    docLine? marker (s ++ e :: t) = (docLine? marker s).map fun x => (x.1, x.2 ++ e :: t) := by
  induction s with
  | nil =>
    have hpre : marker.isPrefixOf? (e :: t) = none := by
      rw [isPrefixOf?_eq_none_iff]
      exact fun hpre => hm (List.prefix_nil.1 (isPrefix_of_append_cons (s := []) hf hpre))
    have hindent : isIndent e = false := by
      rcases Bool.and_eq_false_iff.1 he with h | h <;> simp_all [isIndent]
    simp [docLine?, hpre, hindent]
  | cons c s ih =>
    have hpre := isPrefixOf?_append_cons hf (c :: s) t
    rw [List.cons_append] at hpre ⊢
    rw [docLine?, docLine?, hpre, ih]
    cases docLine? marker s <;> cases marker.isPrefixOf? (c :: s) <;> cases isIndent c <;>
      simp [takeWhile_append_cons he]

end

/-- Doc comments on either side of a line feed are taken out apart. -/
theorem stripDocs_append_feed (hm : marker ≠ []) (hf : '\n' ∉ marker) (fresh : Bool) (s t : Text) :
    stripDocs marker hm fresh (s ++ '\n' :: t) =
      stripDocs marker hm fresh s ++ '\n' :: stripDocs marker hm true t := by
  fun_induction stripDocs marker hm fresh s with
  | case1 fresh =>
    have hnone : (if fresh then docLine? marker ('\n' :: t) else none) = none := by
      have hdoc := docLine?_append_cons (e := '\n') rfl hm hf [] t
      rw [List.nil_append] at hdoc
      rw [hdoc]
      simp [docLine?]
    rw [List.nil_append, stripDocs]
    split
    · next hd =>
      rw [hnone] at hd
      cases hd
    · rfl
  | case2 fresh c s doc rest hd ih =>
    have hmore : (if fresh then docLine? marker (c :: (s ++ '\n' :: t)) else none) =
        some (doc, rest ++ '\n' :: t) := by
      split at hd
      · next hfresh =>
        rw [if_pos hfresh, ← List.cons_append, docLine?_append_cons rfl hm hf, hd]
        rfl
      · cases hd
    rw [List.cons_append, stripDocs]
    split
    · next hd' =>
      rw [hmore] at hd'
      cases hd'
      exact ih
    · next hd' =>
      rw [hmore] at hd'
      cases hd'
  | case3 fresh c s hd ih =>
    have hmore : (if fresh then docLine? marker (c :: (s ++ '\n' :: t)) else none) = none := by
      split at hd
      · next hfresh =>
        rw [if_pos hfresh, ← List.cons_append, docLine?_append_cons rfl hm hf, hd]
        rfl
      · next hfresh => rw [if_neg hfresh]
    rw [List.cons_append, stripDocs]
    split
    · next hd' =>
      rw [hmore] at hd'
      cases hd'
    · rw [ih]
      rfl

/-- Doc comments and line comments end with their lines, so that block comments decide. -/
theorem strip_append_of_stripBlocks {x : Lexicon} (hdoc : '\n' ∉ x.docLine)
    (h : stripBlocks x.blockOpen x.blockClose (s ++ '\n' :: t) =
      stripBlocks x.blockOpen x.blockClose s ++ '\n' :: stripBlocks x.blockOpen x.blockClose t) :
    strip x (s ++ '\n' :: t) = strip x s ++ '\n' :: strip x t := by
  have hlines : ∀ s t : Text, unlines ((s ++ '\n' :: t).lines.map (stripLine x.lineComment)) =
      unlines (s.lines.map (stripLine x.lineComment)) ++
        '\n' :: unlines (t.lines.map (stripLine x.lineComment)) := by
    intro s t
    rw [lines_append_feed, List.map_append]
    exact unlines_append (by simp [lines_ne_nil]) (by simp [lines_ne_nil])
  by_cases hmarker : x.docLine = []
  · simp only [strip, dif_pos hmarker, h, hlines]
    split <;> rfl
  · simp only [strip, dif_neg hmarker, h, stripDocs_append_feed hmarker hdoc, hlines]
    split <;> rfl

/-- **The lines on either side of a line feed** are stripped apart, unless a block comment runs over
it. -/
theorem strip_append_feed {x : Lexicon} (hdoc : '\n' ∉ x.docLine) (hopen : '\n' ∉ x.blockOpen)
    (hclose : '\n' ∉ x.blockClose)
    (h : BlocksClosed x.blockOpen x.blockClose s ∨ ¬ x.blockClose <:+: t) :
    strip x (s ++ '\n' :: t) = strip x s ++ '\n' :: strip x t :=
  strip_append_of_stripBlocks hdoc (stripBlocks_append_feed hopen hclose h)

end Declutter.Comment
