import Mathlib
import Declutter.Proofs.Comment.Seam

/-!
# What is written in a line comment

A line comment leaves nothing of itself but the carriage return of its line, so that one comment can
be put in place of another (`strip_comment_eq_iff`). The pass over block comments comes first and
does not know of line comments. A comment must therefore be one to that pass too (`IsLineComment`):
a block comment that is opened in it and closed behind it takes the code in between along
(`strip_comment_over_lines`).
-/

namespace Declutter.Comment

open Text

variable {a b p u v : Text}

theorem BlocksClosed.append_pair {x y : Char} {closer s : Text} (h : ¬ [x, y] <:+: a)
    (hlast : a.getLast? ≠ some x) (hs : BlocksClosed [x, y] closer s) :
    BlocksClosed [x, y] closer (a ++ s) := by
  have hcut := cut?_append_pair h hlast s
  cases hs with
  | none hnone =>
    rw [hnone] at hcut
    exact .none hcut
  | block ho hc hafter =>
    rw [ho] at hcut
    exact .block hcut hc hafter

/-- What is left of the line comment `//u` without its block comments. -/
def commentRest (u : Text) : Text := stripBlocks ['/', '*'] ['*', '/'] ('/' :: '/' :: u)

/-- The last line of a text is indentation, or empty. -/
def EndsInIndent (a : Text) : Prop :=
  ∃ indent, (∀ c ∈ indent, isIndent c) ∧ (a = indent ∨ ∃ front, a = front ++ '\n' :: indent)

theorem endsInIndent_of_isIndent (h : ∀ c ∈ p, isIndent c) : EndsInIndent p := ⟨p, h, .inl rfl⟩

theorem EndsInIndent.append_feed (h : EndsInIndent p) (front : Text) :
    EndsInIndent (front ++ '\n' :: p) := by
  obtain ⟨indent, hindent, rfl | ⟨more, rfl⟩⟩ := h
  · exact ⟨p, hindent, .inr ⟨front, rfl⟩⟩
  · exact ⟨indent, hindent, .inr ⟨front ++ '\n' :: more, by simp⟩⟩

/-- The text `//u` is a line comment between `a` and `b`. It has no line feed, no block comment that
is opened in it is closed in `b`, and without its own block comments it still begins with `//`. If
it begins with `///` then, and only indentation is before it on its line, only its last character
may be a carriage return. -/
structure IsLineComment (a u b : Text) : Prop where
  feed : '\n' ∉ u
  closed : BlocksClosed ['/', '*'] ['*', '/'] ('/' :: '/' :: u) ∨ ¬ ['*', '/'] <:+: b
  marker : ['/', '/'] <+: commentRest u
  doc : EndsInIndent a → ['/', '/', '/'] <+: commentRest u → '\r' ∉ (commentRest u).dropLast

/-- A comment is one within its line. -/
theorem IsLineComment.of_append_feed {front : Text} (h : IsLineComment (front ++ '\n' :: p) u b) :
    IsLineComment p u b where
  feed := h.feed
  closed := h.closed
  marker := h.marker
  doc hindent := h.doc (hindent.append_feed front)

theorem cut?_comment (hline : ¬ ['/', '/'] <:+: p) (hlast : p.getLast? ≠ some '/') (r : Text) :
    cut? ['/', '/'] (p ++ '/' :: '/' :: r) = some (p, r) := by
  have hpre : ['/', '/'].isPrefixOf? ('/' :: '/' :: r) = some r := rfl
  rw [cut?_append_pair hline hlast, cut?, hpre, Option.map_some, List.append_nil]

/-- A line is cut at the comment that it ends with. -/
theorem stripLine_comment {w : Text} (hline : ¬ ['/', '/'] <:+: p) (hlast : p.getLast? ≠ some '/')
    (hw : ['/', '/'] <+: w) : stripLine ['/', '/'] (p ++ w) = trimEnd p ++ lineEnd w := by
  obtain ⟨r, rfl⟩ := hw
  obtain ⟨body, hbody, hstrip⟩ := stripLine_cases ['/', '/'] (p ++ (['/', '/'] ++ r))
  have hend : lineEnd (p ++ (['/', '/'] ++ r)) = lineEnd (['/', '/'] ++ r) := by
    unfold lineEnd
    rw [List.getLast?_append_of_ne_nil _ (by simp)]
  rw [hend] at hbody hstrip
  obtain ⟨r', rfl⟩ : ∃ r', body = p ++ '/' :: '/' :: r' := by
    unfold lineEnd at hbody
    split at hbody
    · next hr =>
      have hne : r ≠ [] := by
        rintro rfl
        exact absurd hr (by decide)
      rw [List.getLast?_append_of_ne_nil _ hne] at hr
      obtain ⟨r', rfl⟩ := List.getLast?_eq_some_iff.1 hr
      have hcancel : body ++ ['\r'] = p ++ '/' :: '/' :: r' ++ ['\r'] := by
        rw [← hbody]
        simp
      exact ⟨r', List.append_cancel_right hcancel⟩
    · exact ⟨r, by simpa using hbody.symm⟩
  rw [hstrip, cut?_comment hline hlast]

theorem trimEnd_of_indent (h : ∀ c ∈ p, isIndent c) : trimEnd p = [] := by
  rw [trimEnd, List.reverse_eq_nil_iff, List.dropWhile_eq_nil_iff]
  exact fun c hc => isBlank_of_isIndent (h c (List.mem_reverse.1 hc))

theorem stripDocs_of_not_fresh {marker s : Text} (hm : marker ≠ []) (hs : '\n' ∉ s) :
    stripDocs marker hm false s = s := by
  induction s with
  | nil => rw [stripDocs]
  | cons c s ih =>
    simp only [List.mem_cons, not_or] at hs
    have hc : (c == '\n') = false := by simpa using Ne.symm hs.1
    rw [stripDocs, hc, ih hs.2]
    split
    · next hd => simp at hd
    · rfl

/-- On a single line there is one doc comment at most. -/
theorem stripDocs_of_line {marker s : Text} (hm : marker ≠ []) (hf : '\n' ∉ marker)
    (hs : '\n' ∉ s) :
    stripDocs marker hm true s =
      match docLine? marker s with
      | some (_, rest) => rest
      | none => s := by
  cases s with
  | nil => rw [stripDocs]; rfl
  | cons c s =>
    have hc : (c == '\n') = false := by
      simp only [List.mem_cons, not_or] at hs
      simpa using Ne.symm hs.1
    rw [stripDocs]
    split
    · next doc rest hd =>
      rw [if_pos rfl] at hd
      have hrest : '\n' ∉ rest := fun hmem => hs (by rw [(docLine?_eq_some hd).1]; simp [hmem])
      have hlast : (doc.getLast? == some '\n') = false := by
        rw [beq_eq_false_iff_ne]
        exact fun hc => not_mem_docLine? hf hd (List.mem_of_getLast? hc)
      rw [hd, hlast]
      exact stripDocs_of_not_fresh hm hrest
    · next hd =>
      rw [if_pos rfl] at hd
      rw [hd, hc, stripDocs_of_not_fresh hm fun hmem => hs (List.mem_cons_of_mem _ hmem)]

/-- Indentation before the first comment marker of a line is all that comes before it. -/
theorem eq_of_isIndent {w indent t : Text} (hline : ¬ ['/', '/'] <:+: p)
    (hlast : p.getLast? ≠ some '/') (hw : ['/', '/'] <+: w) (hindent : ∀ c ∈ indent, isIndent c)
    (hs : p ++ w = indent ++ ['/', '/'] ++ t) : indent = p := by
  obtain ⟨r, rfl⟩ := hw
  have hle : p.length ≤ indent.length := length_le_of_cut? (cut?_comment hline hlast r) hs
  have hpre : indent <+: p ++ (['/', '/'] ++ r) := ⟨['/', '/'] ++ t, by rw [hs]; simp⟩
  obtain ⟨more, rfl⟩ := List.prefix_of_prefix_length_le (List.prefix_append p _) hpre hle
  cases more with
  | nil => simp
  | cons c more =>
    have hc : c = '/' := by
      rw [List.append_assoc, List.append_assoc, List.append_cancel_left_eq] at hs
      injection hs with hc
      exact hc.symm
    exact absurd (hindent c (by simp)) (by rw [hc]; decide)

/-- What comes behind the last character within a line is its carriage return. -/
theorem eq_lineEnd {line rest : Text} (hline : ∀ c ∈ line, isInLine c)
    (hrest : ∀ c ∈ rest.head?, ¬ isInLine c) (hfeed : '\n' ∉ line ++ rest)
    (hcr : '\r' ∉ (line ++ rest).dropLast) : rest = lineEnd (line ++ rest) := by
  cases rest with
  | nil =>
    have hlast : line.getLast? ≠ some '\r' := by
      intro hc
      exact absurd (hline _ (List.mem_of_getLast? hc)) (by decide)
    rw [List.append_nil, lineEnd, if_neg hlast]
  | cons c rest =>
    have hne : c ≠ '\n' := by
      rintro rfl
      exact hfeed (by simp)
    obtain rfl : c = '\r' := by
      by_contra hcon
      exact hrest c rfl (by simp [isInLine, hne, hcon])
    obtain rfl : rest = [] := by
      by_contra hcon
      apply hcr
      rw [List.dropLast_append_of_ne_nil (by simp), List.dropLast_cons_of_ne_nil hcon]
      simp
    rw [lineEnd, if_pos (by simp)]

/-- A comment that is a doc comment has only indentation before it, and leaves its line end. -/
theorem docLine?_comment {w doc rest : Text} (hline : ¬ ['/', '/'] <:+: p)
    (hlast : p.getLast? ≠ some '/') (hw : ['/', '/'] <+: w) (hfeed : '\n' ∉ w)
    (hcr : EndsInIndent p → ['/', '/', '/'] <+: w → '\r' ∉ w.dropLast)
    (h : docLine? ['/', '/', '/'] (p ++ w) = some (doc, rest)) :
    (∀ c ∈ p, isIndent c) ∧ rest = lineEnd w := by
  obtain ⟨indent, line, rfl, hs, hindent, hinline, hhead⟩ := docLine?_parts h
  obtain rfl : indent = p := by
    apply eq_of_isIndent hline hlast hw hindent (t := '/' :: (line ++ rest))
    simpa using hs
  obtain rfl : w = ['/', '/', '/'] ++ line ++ rest := by simpa using hs
  have hmarked : ∀ c ∈ ['/', '/', '/'] ++ line, isInLine c := by
    have hmarker : ∀ c ∈ ['/', '/', '/'], isInLine c := by simp [isInLine]
    intro c hc
    exact (List.mem_append.1 hc).elim (hmarker c) (hinline c)
  refine ⟨hindent, eq_lineEnd hmarked hhead hfeed (hcr (endsInIndent_of_isIndent hindent) ?_)⟩
  rw [List.append_assoc]
  exact List.prefix_append ..

theorem strip_csharp (s : Text) : strip .csharp s =
    unlines ((stripDocs ['/', '/', '/'] (by simp) true
      (stripBlocks ['/', '*'] ['*', '/'] s)).lines.map (stripLine ['/', '/'])) := rfl

/-- Of a line with a comment, the code before the comment is left. -/
theorem strip_line_comment (hp : '\n' ∉ p) (hopen : ¬ ['/', '*'] <:+: p)
    (hline : ¬ ['/', '/'] <:+: p) (hlast : p.getLast? ≠ some '/') (hu : IsLineComment p u b) :
    strip .csharp (p ++ '/' :: '/' :: u) = trimEnd p ++ lineEnd (commentRest u) := by
  have hblocks : stripBlocks ['/', '*'] ['*', '/'] (p ++ '/' :: '/' :: u) = p ++ commentRest u :=
    stripBlocks_append_of_cut? (cut?_append_pair hopen hlast _)
  have hrest : '\n' ∉ commentRest u := by
    have hsub := (stripBlocks_pares ['/', '*'] ['*', '/'] ('/' :: '/' :: u)).sublist
    intro hc
    have hmem := hsub.subset hc
    simp [hu.feed] at hmem
  have hfeed : '\n' ∉ p ++ commentRest u := by simp [hp, hrest]
  rw [strip_csharp, hblocks, stripDocs_of_line _ (by decide) hfeed]
  cases hdoc : docLine? ['/', '/', '/'] (p ++ commentRest u) with
  | none =>
    simp only [lines_of_not_mem hfeed, List.map_singleton]
    rw [stripLine_comment hline hlast hu.marker]
    exact List.intercalate_singleton
  | some x =>
    obtain ⟨doc, rest⟩ := x
    obtain ⟨hindent, rfl⟩ := docLine?_comment hline hlast hu.marker hrest hu.doc hdoc
    rw [trimEnd_of_indent hindent, List.nil_append]
    simp only
    unfold lineEnd
    split <;> rfl

theorem not_hasBlock_of_not_mem {s : Text} (h : '*' ∉ s) : ¬ HasBlock ['/', '*'] ['*', '/'] s := by
  intro hblock
  obtain ⟨before, inside, after, hs⟩ := hblock
  exact h (by rw [hs]; simp)

theorem commentRest_of_not_mem (h : '*' ∉ u) : commentRest u = '/' :: '/' :: u :=
  stripBlocks_of_not_hasBlock (not_hasBlock_of_not_mem (by simpa using h))

/-- A comment without stars, which is no doc comment. -/
theorem isLineComment_of_not_mem (hfeed : '\n' ∉ u) (hstar : '*' ∉ u)
    (hslash : u.head? ≠ some '/') (a b : Text) : IsLineComment a u b where
  feed := hfeed
  closed := by
    refine .inl (.none (cut?_eq_none_iff.2 fun hopen => ?_))
    have hmem := hopen.subset (a := '*') (by decide)
    simp [hstar] at hmem
  marker := by
    rw [commentRest_of_not_mem hstar]
    exact ⟨u, rfl⟩
  doc := by
    rw [commentRest_of_not_mem hstar, List.cons_prefix_cons, List.cons_prefix_cons]
    intro _ hdoc
    obtain ⟨r, rfl⟩ := hdoc.2.2
    exact absurd rfl hslash

theorem isLineComment_nil (a b : Text) : IsLineComment a [] b :=
  isLineComment_of_not_mem (by simp) (by simp) (by simp) a b

/-- **A line comment** leaves its carriage return, and the text around it is what it would be if
the comment were empty. -/
theorem strip_append_comment (hopen : ¬ ['/', '*'] <:+: a) (hline : ¬ ['/', '/'] <:+: a)
    (hlast : a.getLast? ≠ some '/') (hu : IsLineComment a u b) :
    strip .csharp (a ++ '/' :: '/' :: u ++ '\n' :: b) =
      strip .csharp (a ++ ['/', '/']) ++ lineEnd (commentRest u) ++ '\n' :: strip .csharp b := by
  have hempty : lineEnd (commentRest []) = [] := by
    rw [commentRest_of_not_mem (by simp)]
    rfl
  have hclosed := hu.closed.imp_left (BlocksClosed.append_pair hopen hlast)
  rw [strip_append_feed (by decide) (by decide) (by decide) hclosed]
  rcases exists_last_line a with ha | ⟨front, p, rfl, hp⟩
  · rw [strip_line_comment ha hopen hline hlast hu,
      strip_line_comment ha hopen hline hlast (isLineComment_nil a b), hempty, List.append_nil]
  · -- Neither marker is in the last line, and no block comment is open where it begins.
    have hin : p <:+: front ++ '\n' :: p := ⟨front ++ ['\n'], [], by simp⟩
    have hlast' : p.getLast? ≠ some '/' := by
      intro hc
      exact hlast (by simp [List.getLast?_append, List.getLast?_cons, hc])
    have hfront : cut? ['/', '*'] front = none :=
      cut?_eq_none_iff.2 fun h => hopen (h.trans (List.prefix_append ..).isInfix)
    have hseam : ∀ w : Text, strip .csharp (front ++ '\n' :: p ++ w) =
        strip .csharp front ++ '\n' :: strip .csharp (p ++ w) := by
      intro w
      rw [List.append_assoc, List.cons_append]
      exact strip_append_feed (by decide) (by decide) (by decide) (.inl (.none hfront))
    have hcode : ∀ {u}, IsLineComment p u b →
        strip .csharp (p ++ '/' :: '/' :: u) = trimEnd p ++ lineEnd (commentRest u) :=
      strip_line_comment hp (fun h => hopen (h.trans hin)) (fun h => hline (h.trans hin)) hlast'
    rw [hseam, hseam, hcode hu.of_append_feed, hcode (isLineComment_nil p b), hempty]
    simp

theorem lineEnd_eq_iff : lineEnd u = lineEnd v ↔
    (u.getLast? = some '\r' ↔ v.getLast? = some '\r') := by
  unfold lineEnd
  split <;> split <;> simp_all

/-- **Two comments in one place** leave the same text exactly if both end in a carriage return, or
neither does. -/
theorem strip_comment_eq_iff (hopen : ¬ ['/', '*'] <:+: a) (hline : ¬ ['/', '/'] <:+: a)
    (hlast : a.getLast? ≠ some '/') (hu : IsLineComment a u b) (hv : IsLineComment a v b) :
    strip .csharp (a ++ '/' :: '/' :: u ++ '\n' :: b) =
        strip .csharp (a ++ '/' :: '/' :: v ++ '\n' :: b) ↔
      ((commentRest u).getLast? = some '\r' ↔ (commentRest v).getLast? = some '\r') := by
  rw [strip_append_comment hopen hline hlast hu, strip_append_comment hopen hline hlast hv,
    List.append_cancel_right_eq, List.append_cancel_left_eq, lineEnd_eq_iff]

/-- A block comment within a comment, and a doc comment, before a line that could end a block
comment. Behind code, a doc comment may have a carriage return in it. -/
theorem strip_comment_eq_iff_doc :
    IsLineComment "int x;\n  ".toList " a /* b */ c\r".toList "z */".toList ∧
      IsLineComment "int x;\n  ".toList "/ d\r".toList "z */".toList ∧
      strip .csharp "int x;\n  // a /* b */ c\r\nz */".toList =
        strip .csharp "int x;\n  /// d\r\nz */".toList ∧
      IsLineComment "x ".toList "/ d\re".toList [] ∧
      strip .csharp "x /// d\re\n".toList = strip .csharp "x //\n".toList := by
  have hrest : commentRest " a /* b */ c\r".toList = "// a  c\r".toList := by cbv
  have hrest' : commentRest "/ d\r".toList = "/// d\r".toList := by cbv
  have hrest'' : commentRest "/ d\re".toList = "/// d\re".toList := by cbv
  have hu : IsLineComment "int x;\n  ".toList " a /* b */ c\r".toList "z */".toList := by
    refine ⟨by decide, .inl (.block rfl rfl (.none rfl)), ?_, fun _ => ?_⟩ <;> rw [hrest] <;> decide
  have hv : IsLineComment "int x;\n  ".toList "/ d\r".toList "z */".toList := by
    refine ⟨by decide, .inl (.none rfl), ?_, fun _ => ?_⟩ <;> rw [hrest'] <;> decide
  have hcode : ¬ EndsInIndent "x ".toList := by
    rintro ⟨indent, hindent, rfl | ⟨front, hfront⟩⟩
    · exact absurd (hindent 'x' (by decide)) (by decide)
    · have hfeed : '\n' ∈ "x ".toList := by
        rw [hfront]
        simp
      exact absurd hfeed (by decide)
  have hbehind : IsLineComment "x ".toList "/ d\re".toList [] :=
    ⟨by decide, .inl (.none rfl), by rw [hrest'']; decide, fun h => absurd h hcode⟩
  refine ⟨hu, hv, ?_, hbehind, ?_⟩
  · refine (strip_comment_eq_iff (a := "int x;\n  ".toList) ?_ ?_ ?_ hu hv).2 ?_
    · decide
    · decide
    · decide
    · rw [hrest, hrest']
      decide
  · refine (strip_comment_eq_iff (a := "x ".toList) ?_ ?_ ?_ hbehind (isLineComment_nil _ _)).2 ?_
    · decide
    · decide
    · decide
    · rw [hrest'', commentRest_of_not_mem (by simp)]
      decide

/-- The second line is gone with a comment that opens a block comment on the first. -/
theorem strip_comment_over_lines :
    strip .csharp "x// /*\ncode\n*/ rest".toList ≠ strip .csharp "x// \ncode\n*/ rest".toList := by
  have hopened : strip .csharp "x// /*\ncode\n*/ rest".toList = "x\n\n rest".toList := by cbv
  have hplain : strip .csharp "x// \ncode\n*/ rest".toList = "x\ncode\n*/ rest".toList := by cbv
  rw [hopened, hplain]
  decide

end Declutter.Comment
