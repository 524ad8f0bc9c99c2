import Declutter.Text.Blank

/-!
# Texts in pieces

What stands between the separators of a text has no separator in it, and nothing that the text has
not (`not_mem_of_mem_splitOn`, `mem_of_mem_splitOn`). There is one way to cut a text at the first or
at the last of a character (`append_cons_inj`, `cons_append_inj`). A run of characters ends where
another kind of character stands (`takeWhile_of_stop`, `dropWhile_of_stop`). What is left of a
trimmed text is a stretch of it (`trim_isInfix`).
-/

namespace Declutter.Text

variable {a c : Char} {l s : Text}

theorem not_mem_of_mem_splitOn (h : l ∈ s.splitOn a) : a ∉ l := by
  induction s generalizing l with
  | nil => simp_all
  | cons x s ih =>
    rw [List.splitOn_cons_eq_if_modifyHead] at h
    split at h
    · rcases List.mem_cons.1 h with rfl | h
      · simp
      · exact ih h
    · next hx =>
      obtain ⟨y, ys, hy⟩ := List.exists_cons_of_ne_nil (List.splitOn_ne_nil a s)
      rw [hy] at h ih
      rcases List.mem_cons.1 h with rfl | h
      · have := ih (List.mem_cons_self ..)
        simp_all
        exact fun he => hx he.symm
      · exact ih (List.mem_cons_of_mem _ h)

theorem mem_of_mem_splitOn (h : l ∈ s.splitOn a) (hc : c ∈ l) : c ∈ s := by
  induction s generalizing l with
  | nil => simp_all
  | cons x s ih =>
    rw [List.splitOn_cons_eq_if_modifyHead] at h
    split at h
    · rcases List.mem_cons.1 h with rfl | h
      · simp at hc
      · exact List.mem_cons_of_mem _ (ih h hc)
    · obtain ⟨y, ys, hy⟩ := List.exists_cons_of_ne_nil (List.splitOn_ne_nil a s)
      rw [hy] at h ih
      rcases List.mem_cons.1 h with rfl | h
      · rcases List.mem_cons.1 hc with rfl | hc
        · simp
        · exact List.mem_cons_of_mem _ (ih (List.mem_cons_self ..) hc)
      · exact List.mem_cons_of_mem _ (ih (List.mem_cons_of_mem _ h) hc)

/-- What is in joined pieces is in a piece, or is the separator. -/
theorem mem_intercalate {ls : List Text} (h : c ∈ [a].intercalate ls) :
    c = a ∨ ∃ l ∈ ls, c ∈ l := by
  induction ls with
  | nil => simp at h
  | cons l ls ih =>
    by_cases hls : ls = []
    · subst hls
      exact .inr ⟨l, by simp, by simpa using h⟩
    · rw [List.intercalate_cons_of_ne_nil hls] at h
      simp only [List.mem_append, List.mem_singleton] at h
      rcases h with (h | h) | h
      · exact .inr ⟨l, by simp, h⟩
      · exact .inl h
      · rcases ih h with h | ⟨l', hl', h⟩
        · exact .inl h
        · exact .inr ⟨l', List.mem_cons_of_mem _ hl', h⟩

/-! ## Cuts -/

/-- A text is cut in one way at the first of a character. -/
theorem append_cons_inj {s' t t' : Text} (hs : a ∉ s) (hs' : a ∉ s')
    (h : s ++ a :: t = s' ++ a :: t') : s = s' ∧ t = t' := by
  induction s generalizing s' with
  | nil =>
    cases s' with
    | nil => exact ⟨rfl, (List.cons.inj h).2⟩
    | cons c s' =>
      obtain ⟨rfl, -⟩ := List.cons.inj h
      exact absurd (List.mem_cons_self ..) hs'
  | cons c s ih =>
    cases s' with
    | nil =>
      obtain ⟨rfl, -⟩ := List.cons.inj h
      exact absurd (List.mem_cons_self ..) hs
    | cons c' s' =>
      obtain ⟨rfl, htail⟩ := List.cons.inj h
      rw [List.mem_cons, not_or] at hs hs'
      obtain ⟨rfl, rfl⟩ := ih hs.2 hs'.2 htail
      exact ⟨rfl, rfl⟩

/-- A text is cut in one way at the last of a character. -/
theorem cons_append_inj {s' t t' : Text} (ht : a ∉ t) (ht' : a ∉ t')
    (h : s ++ a :: t = s' ++ a :: t') : s = s' ∧ t = t' := by
  have hrev : t.reverse ++ a :: s.reverse = t'.reverse ++ a :: s'.reverse := by
    simpa using congrArg List.reverse h
  obtain ⟨h1, h2⟩ := append_cons_inj (by simpa using ht) (by simpa using ht') hrev
  exact ⟨List.reverse_inj.1 h2, List.reverse_inj.1 h1⟩

/-! ## Runs -/

section
variable {p : Char → Bool} {t : Text}

theorem takeWhile_of_stop (hs : ∀ c ∈ s, p c) (ht : ∀ c ∈ t.head?, p c = false) :
    (s ++ t).takeWhile p = s := by
  rw [List.takeWhile_append_of_pos hs]
  cases t with
  | nil => simp
  | cons c t => rw [List.takeWhile_cons_of_neg (by simp [ht c rfl]), List.append_nil]

theorem dropWhile_of_stop (hs : ∀ c ∈ s, p c) (ht : ∀ c ∈ t.head?, p c = false) :
    (s ++ t).dropWhile p = t := by
  rw [List.dropWhile_append_of_pos hs]
  cases t with
  | nil => rfl
  | cons c t => rw [List.dropWhile_cons_of_neg (by simp [ht c rfl])]

theorem stop_of_dropWhile (p : Char → Bool) (s : Text) :
    ∀ c ∈ (s.dropWhile p).head?, p c = false := by
  intro c hc
  have := List.head?_dropWhile_not p s
  rw [Option.mem_def.1 hc] at this
  simpa using this

end

/-! ## Trimming -/

theorem isBlank_of_isIndent {c : Char} (h : isIndent c) : isBlank c := by
  rcases Bool.or_eq_true_iff.1 h with h | h <;> (rw [eq_of_beq h]; decide)

theorem trimEnd_isPrefix (s : Text) : trimEnd s <+: s := by
  have := List.reverse_prefix.2 (List.dropWhile_suffix isBlank (l := s.reverse))
  rwa [List.reverse_reverse] at this

theorem trim_isInfix (s : Text) : trim s <:+: s :=
  (trimEnd_isPrefix _).isInfix.trans (List.dropWhile_suffix _).isInfix

end Declutter.Text
