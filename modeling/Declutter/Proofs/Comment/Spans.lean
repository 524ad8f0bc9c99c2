import Mathlib
import Declutter.Proofs.Comment.Seam

/-!
# Where block comments are

`blockSpans` has the block comments of a text by their positions. What is left of the text is every
character that is in none of them, and every line feed (`stripBlocks_eq_filter`).

A text can be cut at a line feed, and its parts stripped apart, if the line feed is in no block
comment (`strip_append_of_outside`). For a comment that is opened before the line feed and not closed
there would end at the first closer behind it, and have it inside (`blocksClosed_or_not_isInfix`).
-/

namespace Declutter.Comment

open Text

variable {opener closer s t : Text} {start k : Nat}

/-- The block comments of a text by their positions, from the first character of each to the one
after its last. The text begins at the position `start`. -/
def blockSpans (opener closer : Text) (start : Nat) (s : Text) : List (Nat × Nat) :=
  if _h : opener = [] ∨ closer = [] then []
  else
    match _ho : cut? opener s with
    | none => []
    | some (before, rest) =>
      match _hc : cut? closer rest with
      | none => []
      | some (inside, after) =>
        let comment := opener ++ inside ++ closer
        let first := start + before.length
        let next := first + comment.length
        (first, next) :: blockSpans opener closer next after
termination_by s.length
decreasing_by
  simp only [not_or] at _h
  exact Nat.lt_trans (length_lt_of_cut? _h.2 _hc) (length_lt_of_cut? _h.1 _ho)

/-- Whether a position is within one of the spans. -/
def covers (spans : List (Nat × Nat)) (k : Nat) : Bool :=
  spans.any fun span => span.1 ≤ k && k < span.2

theorem covers_cons (span : Nat × Nat) (spans : List (Nat × Nat)) (k : Nat) :
    covers (span :: spans) k = (span.1 ≤ k && k < span.2 || covers spans k) := rfl

theorem covers_cons_outside {first next : Nat} {spans : List (Nat × Nat)}
    (h : k < first ∨ next ≤ k) : covers ((first, next) :: spans) k = covers spans k := by
  have hout : (decide (first ≤ k) && decide (k < next)) = false := by
    rw [Bool.and_eq_false_iff, decide_eq_false_iff_not, decide_eq_false_iff_not]
    omega
  rw [covers_cons, hout, Bool.false_or]

theorem covers_cons_inside {first next : Nat} {spans : List (Nat × Nat)} (hle : first ≤ k)
    (hlt : k < next) : covers ((first, next) :: spans) k = true := by
  simp [covers_cons, hle, hlt]

theorem blockSpans_of_block {before rest inside after : Text} (hon : ¬ (opener = [] ∨ closer = []))
    (ho : cut? opener s = some (before, rest)) (hc : cut? closer rest = some (inside, after)) :
    blockSpans opener closer start s =
      (start + before.length, start + before.length + (opener ++ inside ++ closer).length) ::
        blockSpans opener closer
          (start + before.length + (opener ++ inside ++ closer).length) after := by
  rw [blockSpans, dif_neg hon]
  grind

/-- No position before a text is in its comments. -/
theorem covers_blockSpans_of_lt (h : k < start) :
    covers (blockSpans opener closer start s) k = false := by
  fun_induction blockSpans opener closer start s with
  | case1 => rfl
  | case2 => rfl
  | case3 => rfl
  | case4 start s hon before rest ho inside after hc comment first next ih =>
    rw [covers_cons_outside (.inl (by omega)), ih (by omega)]

/-! ## What is left -/

/-- Whether a character, with its position, is left: it is outside of the spans, or a line feed. -/
def isLeft (spans : List (Nat × Nat)) (y : Char × Nat) : Bool := y.1 == '\n' || !covers spans y.2

theorem map_filter_zipIdx {p : Char × Nat → Bool} {q : Char → Bool}
    (h : ∀ y ∈ s.zipIdx start, p y = q y.1) :
    ((s.zipIdx start).filter p).map (·.1) = s.filter q := by
  rw [List.filter_congr (q := q ∘ Prod.fst) h, ← List.filter_map, List.zipIdx_map_fst]

/-- A text is left as it is, if no span has a position of it. -/
theorem map_filter_isLeft {spans : List (Nat × Nat)}
    (h : ∀ y ∈ s.zipIdx start, covers spans y.2 = false) :
    ((s.zipIdx start).filter (isLeft spans)).map (·.1) = s := by
  rw [map_filter_zipIdx (q := fun _ => true), List.filter_true]
  intro y hy
  rw [isLeft, h y hy]
  exact Bool.or_true _

/-- **What block comments leave**: every character outside of them, and the line feeds. -/
theorem stripBlocks_eq_filter (opener closer : Text) (start : Nat) (s : Text) :
    stripBlocks opener closer s =
      ((s.zipIdx start).filter (isLeft (blockSpans opener closer start s))).map (·.1) := by
  fun_induction blockSpans opener closer start s with
  | case1 start s hoff => rw [map_filter_isLeft fun _ _ => rfl, stripBlocks_of_off hoff]
  | case2 start s hon hnone => rw [map_filter_isLeft fun _ _ => rfl, stripBlocks_of_none hnone]
  | case3 start s hon before rest ho hnone =>
    rw [map_filter_isLeft fun _ _ => rfl, stripBlocks_of_unclosed ho hnone]
  | case4 start s hon before rest ho inside after hc comment first next ih =>
    -- positions are before the comment, in it, or behind it
    have hs : s = before ++ (comment ++ after) := by
      rw [cut?_eq_some ho, cut?_eq_some hc]
      simp [comment]
    have hbefore : ((before.zipIdx start).filter
        (isLeft ((first, next) :: blockSpans opener closer next after))).map (·.1) = before := by
      refine map_filter_isLeft fun y hy => ?_
      have hlt := List.snd_lt_of_mem_zipIdx hy
      rw [covers_cons_outside (.inl (by omega)), covers_blockSpans_of_lt (by omega)]
    have hcomment : ((comment.zipIdx first).filter
        (isLeft ((first, next) :: blockSpans opener closer next after))).map (·.1) =
          comment.filter (· == '\n') := by
      refine map_filter_zipIdx fun y hy => ?_
      have hle := List.le_snd_of_mem_zipIdx hy
      have hlt := List.snd_lt_of_mem_zipIdx hy
      rw [isLeft, covers_cons_inside hle (by omega)]
      exact Bool.or_false _
    have hafter : (after.zipIdx next).filter
        (isLeft ((first, next) :: blockSpans opener closer next after)) =
          (after.zipIdx next).filter (isLeft (blockSpans opener closer next after)) := by
      refine List.filter_congr fun y hy => ?_
      rw [isLeft, covers_cons_outside (.inr (List.le_snd_of_mem_zipIdx hy)), isLeft]
    have hleft : ((s.zipIdx start).filter
        (isLeft ((first, next) :: blockSpans opener closer next after))).map (·.1) =
          before ++ (comment.filter (· == '\n') ++ stripBlocks opener closer after) := by
      rw [hs, List.zipIdx_append, List.zipIdx_append, List.filter_append, List.filter_append,
        List.map_append, List.map_append, hbefore, hcomment, hafter, ih]
    rw [hleft, stripBlocks_of_block hon ho hc, List.append_assoc]

/-! ## Line feeds outside of block comments -/

/-- A comment that is open at a line feed has it inside, if it ends behind it. -/
theorem blocksClosed_or_not_isInfix (hon : ¬ (opener = [] ∨ closer = [])) (hclose : '\n' ∉ closer)
    (h : covers (blockSpans opener closer start (s ++ '\n' :: t)) (start + s.length) = false) :
    BlocksClosed opener closer s ∨ ¬ closer <:+: t := by
  fun_induction blockSpans opener closer start s with
  | case1 start s hoff => exact absurd hoff hon
  | case2 start s hon hnone => exact .inl (.none hnone)
  | case3 start s hon before rest ho hnone =>
    refine .inr (cut?_eq_none_iff.1 ?_)
    by_contra hsome
    obtain ⟨⟨inside, after⟩, hc⟩ := Option.ne_none_iff_exists'.1 hsome
    have hc' : cut? closer (rest ++ '\n' :: t) = some (rest ++ '\n' :: inside, after) := by
      rw [cut?_append_feed hclose hnone, hc]
      rfl
    have hlen := congrArg List.length (cut?_eq_some ho)
    simp only [List.length_append] at hlen
    rw [blockSpans_of_block hon (cut?_append ho _) hc', covers_cons_inside] at h
    · cases h
    · omega
    · simp only [List.length_append, List.length_cons]
      omega
  | case4 start s hon before rest ho inside after hc comment first next ih =>
    have hlen : start + s.length = next + after.length := by
      have hlen := congrArg List.length (cut?_eq_some ho)
      have hlen' := congrArg List.length (cut?_eq_some hc)
      simp only [List.length_append] at hlen hlen'
      simp only [next, first, comment, List.length_append]
      omega
    rw [blockSpans_of_block hon (cut?_append ho _) (cut?_append hc _), hlen,
      covers_cons_outside (.inr (Nat.le_add_right _ _))] at h
    rw [blocksClosed_iff ho, hc]
    simpa using ih h

/-- **Stripping is done line by line**: the parts of a text on either side of a line feed are
stripped apart, if the line feed is in no block comment. -/
theorem strip_append_of_outside {x : Lexicon} (hdoc : '\n' ∉ x.docLine) (hopen : '\n' ∉ x.blockOpen)
    (hclose : '\n' ∉ x.blockClose)
    (h : covers (blockSpans x.blockOpen x.blockClose 0 (s ++ '\n' :: t)) s.length = false) :
    strip x (s ++ '\n' :: t) = strip x s ++ '\n' :: strip x t := by
  by_cases hoff : x.blockOpen = [] ∨ x.blockClose = []
  · apply strip_append_of_stripBlocks hdoc
    simp only [stripBlocks_of_off hoff]
  · rw [← Nat.zero_add s.length] at h
    exact strip_append_feed hdoc hopen hclose (blocksClosed_or_not_isInfix hoff hclose h)

/-- A comment is open and closed before the line feed. Behind it, a closer stands alone, and another
comment runs over a line feed of its own. -/
theorem strip_append_of_outside_stray :
    ('\n' ∉ Lexicon.csharp.docLine ∧ '\n' ∉ Lexicon.csharp.blockOpen ∧
      '\n' ∉ Lexicon.csharp.blockClose) ∧
    blockSpans ['/', '*'] ['*', '/'] 0 "a /* b */ // c\nd */ /* e\n*/".toList = [(2, 9), (20, 27)] ∧
    strip .csharp "a /* b */ // c\nd */ /* e\n*/".toList =
      strip .csharp "a /* b */ // c".toList ++ '\n' :: strip .csharp "d */ /* e\n*/".toList := by
  have hspans : blockSpans ['/', '*'] ['*', '/'] 0 "a /* b */ // c\nd */ /* e\n*/".toList =
      [(2, 9), (20, 27)] := by cbv
  have hout : covers (blockSpans ['/', '*'] ['*', '/'] 0
      ("a /* b */ // c".toList ++ '\n' :: "d */ /* e\n*/".toList)) 14 = false := by
    rw [show "a /* b */ // c".toList ++ '\n' :: "d */ /* e\n*/".toList =
      "a /* b */ // c\nd */ /* e\n*/".toList from rfl, hspans]
    rfl
  exact ⟨by decide, hspans,
    strip_append_of_outside (x := .csharp) (by decide) (by decide) (by decide) hout⟩

end Declutter.Comment
