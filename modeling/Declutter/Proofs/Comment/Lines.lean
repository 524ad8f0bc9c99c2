import Declutter.Comment
import Declutter.Proofs.Text.Lines

/-!
# Lines without their comments

Each pass of `strip` takes characters out of a text, and none that is a line feed. So every line
stays where it is, and keeps a part of itself (`strip_lines`).
-/

namespace Declutter.Comment

open Text

variable {marker opener closer s doc rest line : Text}

theorem stripBlocks_pares (opener closer s : Text) : Pares (stripBlocks opener closer s) s := by
  fun_induction stripBlocks opener closer s with
  | case1 => exact .refl _
  | case2 => exact .refl _
  | case3 => exact .refl _
  | case4 s _ before rest ho inside after hc ih =>
    have hs : s = before ++ (opener ++ inside ++ closer) ++ after := by
      rw [cut?_eq_some ho, cut?_eq_some hc]
      simp
    rw [hs]
    exact ((Pares.refl before).append (.filter _)).append ih

/-- A doc comment is indentation, the marker, and all that follows within the line. -/
theorem docLine?_parts (h : docLine? marker s = some (doc, rest)) : ∃ indent line : Text,
    doc = indent ++ marker ++ line ∧ s = doc ++ rest ∧ (∀ c ∈ indent, isIndent c) ∧
      (∀ c ∈ line, isInLine c) ∧ ∀ c ∈ rest.head?, ¬ isInLine c := by
  induction s generalizing doc with
  | nil => simp [docLine?] at h
  | cons c s ih =>
    simp only [docLine?, Option.or_eq_some_iff] at h
    rcases h with h | ⟨-, h⟩
    · split at h
      · next hc =>
        obtain ⟨⟨doc', rest'⟩, hd, heq⟩ := Option.map_eq_some_iff.1 h
        cases heq
        obtain ⟨indent, line, rfl, rfl, hindent, hline, hrest⟩ := ih hd
        exact ⟨c :: indent, line, rfl, rfl, List.forall_mem_cons.2 ⟨hc, hindent⟩, hline, hrest⟩
      · cases h
    · obtain ⟨r, hr, heq⟩ := Option.map_eq_some_iff.1 h
      cases heq
      refine ⟨[], r.takeWhile isInLine, rfl, ?_, by simp, fun c hc => ?_, fun c hc => ?_⟩
      · rw [List.append_assoc, List.takeWhile_append_dropWhile]
        exact eq_append_of_isPrefixOf? hr
      · exact List.all_eq_true.1 List.all_takeWhile _ hc
      · exact Bool.eq_false_iff.1 (stop_of_dropWhile isInLine r c hc)

/-- A doc comment is within its line, if its marker is. -/
theorem not_mem_docLine? (hm : '\n' ∉ marker) (h : docLine? marker s = some (doc, rest)) :
    '\n' ∉ doc := by
  obtain ⟨indent, line, rfl, -, hindent, hline, -⟩ := docLine?_parts h
  intro hc
  rcases List.mem_append.1 hc with hc | hc
  · rcases List.mem_append.1 hc with hc | hc
    · exact absurd (hindent _ hc) (by decide)
    · exact hm hc
  · exact absurd (hline _ hc) (by decide)

theorem stripDocs_pares (hm : marker ≠ []) (hf : '\n' ∉ marker) (fresh : Bool) (s : Text) :
    Pares (stripDocs marker hm fresh s) s := by
  fun_induction stripDocs marker hm fresh s with
  | case1 => exact .refl _
  | case2 fresh c s doc rest hd ih =>
    have hd' : docLine? marker (c :: s) = some (doc, rest) := by
      split at hd
      · exact hd
      · cases hd
    rw [(docLine?_eq_some hd').1]
    exact (Pares.nil (not_mem_docLine? hf hd')).append ih
  | case3 fresh c s _ ih => exact (Pares.refl [c]).append ih

/-- The carriage return at the end of a line, if it has one. -/
def lineEnd (line : Text) : Text := if line.getLast? = some '\r' then ['\r'] else []

/-- A line is cut before its carriage return. -/
theorem stripLine_cases (marker line : Text) : ∃ body, line = body ++ lineEnd line ∧
    stripLine marker line =
      match cut? marker body with
      | some (before, _) => trimEnd before ++ lineEnd line
      | none => line := by
  unfold stripLine lineEnd
  by_cases hr : line.getLast? = some '\r'
  · refine ⟨line.dropLast, ?_, ?_⟩
    · rw [if_pos hr, List.dropLast_append_getLast? _ hr]
    · cases hcut : cut? marker line.dropLast <;> simp [hr, hcut, ← List.dropLast_eq_take]
  · refine ⟨line, by simp [hr], ?_⟩
    cases hcut : cut? marker line <;> simp [hr, hcut]

/-- What is left of a line is a part of it. -/
theorem stripLine_sublist (marker line : Text) : (stripLine marker line).Sublist line := by
  obtain ⟨body, hline, hstrip⟩ := stripLine_cases marker line
  rw [hstrip]
  split
  · next before rest h =>
    have hbefore : (trimEnd before).Sublist body := by
      rw [cut?_eq_some h, List.append_assoc]
      exact (trimEnd_isPrefix before).sublist.trans (List.sublist_append_left ..)
    conv_rhs => rw [hline]
    exact hbefore.append (.refl _)
  · exact .refl _

theorem lines_unlines_stripLine (marker s : Text) :
    (unlines (s.lines.map (stripLine marker))).lines = s.lines.map (stripLine marker) := by
  apply lines_unlines
  · intro l hl hc
    obtain ⟨line, hline, rfl⟩ := List.mem_map.1 hl
    exact not_mem_of_mem_lines hline ((stripLine_sublist marker line).subset hc)
  · simp [lines_ne_nil]

theorem unlines_stripLine_thins (marker s : Text) :
    Thins (unlines (s.lines.map (stripLine marker))) s := by
  unfold Thins
  rw [lines_unlines_stripLine, List.forall₂_map_left_iff, List.forall₂_same]
  exact fun line _ => stripLine_sublist marker line

theorem strip_thins {x : Lexicon} (hx : '\n' ∉ x.docLine) (s : Text) : Thins (strip x s) s := by
  have hblocks := (stripBlocks_pares x.blockOpen x.blockClose s).thins
  have hdocs : Thins (if h : x.docLine = [] then stripBlocks x.blockOpen x.blockClose s
      else stripDocs x.docLine h true (stripBlocks x.blockOpen x.blockClose s)) s := by
    split
    · exact hblocks
    · next hm => exact (stripDocs_pares hm hx true _).thins.trans hblocks
  unfold strip
  simp only
  split
  · exact hdocs
  · exact (unlines_stripLine_thins x.lineComment _).trans hdocs

/-- **Stripping keeps lines apart.** The text without its comments has as many lines as before, and
each is a part of the line that had its number. -/
theorem strip_lines {x : Lexicon} (hx : '\n' ∉ x.docLine) (s : Text) :
    (strip x s).lines.length = s.lines.length ∧
      ∀ (k : Nat) (l m : Text), (strip x s).lines[k]? = some l → s.lines[k]? = some m →
        l.Sublist m := by
  obtain ⟨hlen, hget⟩ := List.forall₂_iff_get.1 (strip_thins hx s)
  refine ⟨hlen, ?_⟩
  intro k l m hl hm
  obtain ⟨hk, rfl⟩ := List.getElem?_eq_some_iff.1 hl
  obtain ⟨hk', rfl⟩ := List.getElem?_eq_some_iff.1 hm
  exact hget k hk hk'

/-- A block comment that ends on the second line, and another comment on it which the carriage
return outlives. -/
theorem strip_lines_csharp :
    '\n' ∉ Lexicon.csharp.docLine ∧
      (strip .csharp "a /* b\n c */ d // e\r\n/// f".toList).lines.length = 3 ∧
      " d\r".toList.Sublist " c */ d // e\r".toList := by
  have hx : '\n' ∉ Lexicon.csharp.docLine := by decide
  have hl : (strip .csharp "a /* b\n c */ d // e\r\n/// f".toList).lines[1]? =
      some " d\r".toList := by cbv
  obtain ⟨hlen, hsub⟩ := strip_lines hx "a /* b\n c */ d // e\r\n/// f".toList
  exact ⟨hx, hlen.trans (by cbv), hsub 1 _ _ hl (by cbv)⟩

end Declutter.Comment
