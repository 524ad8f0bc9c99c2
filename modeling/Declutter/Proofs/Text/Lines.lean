import Mathlib.Data.List.Forall2
import Mathlib.Data.List.Induction
import Declutter.Proofs.Text.Pieces

/-!
# Lines

Lines have no line feed in them (`not_mem_of_mem_lines`), and lines without one are those of the
text that they make up (`lines_unlines`). A text has a line more than it has line feeds
(`length_lines`).

`Thins t s`: the text `t` has as many lines as `s`, and each is a part of the line of `s` with the
same number. This is so if `t` is `s` without some characters, none of which is a line feed
(`Pares t s`, `Pares.thins`).
-/

namespace Declutter.Text

variable {c : Char} {l s t u : Text}

theorem feeds_append (s t : Text) : feeds (s ++ t) = feeds s + feeds t := List.count_append

/-! ## Texts as lines -/

theorem lines_ne_nil (s : Text) : s.lines ≠ [] := List.splitOn_ne_nil _ _

theorem lines_cons_feed (s : Text) : lines ('\n' :: s) = [] :: s.lines := by
  unfold lines
  rw [List.splitOn_cons_eq_if_modifyHead]
  rfl

/-- A character that is no line feed belongs to the first line. -/
theorem lines_cons (hc : c ≠ '\n') (s : Text) :
    ∃ l ls, s.lines = l :: ls ∧ lines (c :: s) = (c :: l) :: ls := by
  obtain ⟨l, ls, h⟩ := List.exists_cons_of_ne_nil (lines_ne_nil s)
  refine ⟨l, ls, h, ?_⟩
  unfold lines at h ⊢
  rw [List.splitOn_cons_eq_if_modifyHead, h, if_neg (by simpa using hc)]
  rfl

theorem not_mem_of_mem_lines (h : l ∈ s.lines) : '\n' ∉ l := not_mem_of_mem_splitOn h

theorem lines_unlines {ls : List Text} (h : ∀ l ∈ ls, '\n' ∉ l) (hne : ls ≠ []) :
    (unlines ls).lines = ls := List.splitOn_intercalate _ h hne

theorem lines_append_feed (s t : Text) : (s ++ '\n' :: t).lines = s.lines ++ t.lines :=
  List.splitOn_append_cons_self s t

theorem unlines_append {ls ks : List Text} (hls : ls ≠ []) (hks : ks ≠ []) :
    unlines (ls ++ ks) = unlines ls ++ '\n' :: unlines ks := by
  unfold unlines
  induction ls, hls using List.recNeNil with
  | singleton l =>
    rw [List.cons_append, List.nil_append, List.intercalate_cons_of_ne_nil hks]
    simp
  | cons l ls hls ih =>
    rw [List.cons_append, List.intercalate_cons_of_ne_nil (by simp [hls]), ih,
      List.intercalate_cons_of_ne_nil hls]
    simp

theorem unlines_cons {ls : List Text} (l : Text) (hls : ls ≠ []) :
    unlines (l :: ls) = l ++ '\n' :: unlines ls := by
  have : unlines ([l] ++ ls) = unlines [l] ++ '\n' :: unlines ls := unlines_append (by simp) hls
  simpa [unlines] using this

theorem unlines_lines (s : Text) : unlines s.lines = s := List.intercalate_splitOn _

/-- A line feed in front of each line. -/
theorem cons_unlines {ls : List Text} (hls : ls ≠ []) :
    '\n' :: unlines ls = ls.flatMap ('\n' :: ·) := by
  induction ls, hls using List.recNeNil with
  | singleton l => simp [unlines]
  | cons l ls hls ih =>
    rw [unlines_cons l hls, ih]
    rfl

theorem length_lines (s : Text) : s.lines.length = feeds s + 1 := by
  induction s with
  | nil => rfl
  | cons c s ih =>
    by_cases hc : c = '\n'
    · subst hc
      rw [lines_cons_feed, List.length_cons, ih, feeds, feeds, List.count_cons_self]
    · obtain ⟨l, ls, hs, hcs⟩ := lines_cons hc s
      rw [hcs, List.length_cons, feeds, List.count_cons_of_ne hc, ← feeds, ← ih, hs,
        List.length_cons]

/-- A text without line feeds belongs to the first line of what follows it. -/
theorem lines_append (h : '\n' ∉ t) (s : Text) :
    ∃ l ls, s.lines = l :: ls ∧ (t ++ s).lines = (t ++ l) :: ls := by
  induction t with
  | nil =>
    obtain ⟨l, ls, hs⟩ := List.exists_cons_of_ne_nil (lines_ne_nil s)
    exact ⟨l, ls, hs, hs⟩
  | cons c t ih =>
    simp only [List.mem_cons, not_or] at h
    obtain ⟨l, ls, hs, hts⟩ := ih h.2
    obtain ⟨l', ls', hl', hc⟩ := lines_cons (Ne.symm h.1) (t ++ s)
    rw [hts] at hl'
    cases hl'
    exact ⟨l, ls, hs, hc⟩

theorem lines_of_not_mem (h : '\n' ∉ s) : s.lines = [s] := by
  obtain ⟨l, ls, hnil, hs⟩ := lines_append h []
  cases hnil
  simpa using hs

/-- A text is one line, or it has a last line. -/
theorem exists_last_line (s : Text) :
    '\n' ∉ s ∨ ∃ front last, s = front ++ '\n' :: last ∧ '\n' ∉ last := by
  by_cases h : '\n' ∈ s
  · obtain ⟨p, front, hs, hp⟩ := List.eq_append_cons_of_mem (List.mem_reverse.2 h)
    refine .inr ⟨front.reverse, p.reverse, ?_, by simpa using hp⟩
    rw [← List.reverse_reverse s, hs]
    simp
  · exact .inl h

/-! ## Thinner lines -/

/-- The lines of the first text are parts of the lines of the second, one by one. -/
def Thins (t s : Text) : Prop := List.Forall₂ List.Sublist t.lines s.lines

theorem Thins.refl (s : Text) : Thins s s := List.forall₂_same.2 fun l _ => List.Sublist.refl l

theorem Thins.trans (h : Thins t s) (h' : Thins s u) : Thins t u := by
  unfold Thins at *
  generalize t.lines = l₁ at h
  generalize s.lines = l₂ at h h'
  generalize u.lines = l₃ at h'
  induction h generalizing l₃ with
  | nil => cases h'; exact .nil
  | cons hab _ ih =>
    cases h' with
    | cons hbc h' => exact .cons (hab.trans hbc) (ih _ h')

theorem sublist_unlines {ls ks : List Text} (h : List.Forall₂ List.Sublist ls ks) :
    (unlines ls).Sublist (unlines ks) := by
  unfold unlines
  induction h with
  | nil => exact .refl _
  | @cons l k ls ks hl hls ih =>
    by_cases hnil : ls = []
    · subst hnil
      cases hls
      simpa using hl
    · have hnil' : ks ≠ [] := by
        rintro rfl
        cases hls
        exact hnil rfl
      rw [List.intercalate_cons_of_ne_nil hnil, List.intercalate_cons_of_ne_nil hnil']
      exact (hl.append (.refl _)).append ih

theorem Thins.sublist (h : Thins t s) : t.Sublist s := by
  have := sublist_unlines h
  unfold unlines lines at this
  rwa [List.intercalate_splitOn, List.intercalate_splitOn] at this

/-- The first text is the second without some characters, none of which is a line feed. -/
structure Pares (t s : Text) : Prop where
  sublist : t.Sublist s
  feeds_eq : feeds t = feeds s

namespace Pares

theorem refl (s : Text) : Pares s s := ⟨.refl s, rfl⟩

theorem append {t' s' : Text} (h : Pares t s) (h' : Pares t' s') : Pares (t ++ t') (s ++ s') := by
  refine ⟨h.sublist.append h'.sublist, ?_⟩
  have h1 := h.feeds_eq
  have h2 := h'.feeds_eq
  unfold feeds at *
  rw [List.count_append, List.count_append, h1, h2]

theorem nil (h : '\n' ∉ s) : Pares [] s :=
  ⟨List.nil_sublist s, (List.count_eq_zero.2 h).symm⟩

theorem filter (s : Text) : Pares (s.filter (· == '\n')) s :=
  ⟨List.filter_sublist, List.count_filter (by simp)⟩

/-- **Characters that are taken out**, but no line feeds, leave the lines where they are. -/
theorem thins (h : Pares t s) : Thins t s := by
  obtain ⟨hsub, hf⟩ := h
  induction hsub with
  | slnil => exact .refl _
  | @cons t s c hsub ih =>
    have hle : feeds t ≤ feeds s := hsub.count_le _
    have hc : c ≠ '\n' := by
      rintro rfl
      simp only [feeds, List.count_cons_self] at hf hle
      omega
    obtain ⟨l, ls, hs, hcs⟩ := lines_cons hc s
    obtain ⟨k, ks, ht⟩ := List.exists_cons_of_ne_nil (lines_ne_nil t)
    have ih := ih (by simpa [feeds, List.count_cons_of_ne hc] using hf)
    unfold Thins at ih ⊢
    rw [hs, ht] at ih
    rw [hcs, ht]
    cases ih with
    | cons hl hls => exact .cons (hl.cons c) hls
  | @cons_cons t s c _ ih =>
    have ih := ih (by simpa [feeds, List.count_cons] using hf)
    unfold Thins at ih ⊢
    by_cases hc : c = '\n'
    · subst hc
      rw [lines_cons_feed, lines_cons_feed]
      exact .cons (.refl _) ih
    · obtain ⟨l, ls, hs, hcs⟩ := lines_cons hc s
      obtain ⟨k, ks, ht, hct⟩ := lines_cons hc t
      rw [hs, ht] at ih
      rw [hcs, hct]
      cases ih with
      | cons hl hls => exact .cons (hl.cons_cons c) hls

end Pares

end Declutter.Text
