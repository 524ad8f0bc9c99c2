import Declutter.Proofs.Text.Lines

/-!
# Where a marker occurs

`cut?` finds a marker exactly if the text has it (`cut?_eq_none_iff`), and it finds the first
occurrence (`length_le_of_cut?`): before the cut there is none (`not_isInfix_of_cut?`), and what
comes after another occurrence comes after the cut (`isInfix_of_cut?`).

A marker without line feeds occurs within a line (`exists_line_of_isInfix`). So the cut of a text is
not changed by what is put behind it (`cut?_append`), and where there is none before a line feed, it
is the one behind it (`cut?_append_feed`).
-/

namespace Declutter.Text

variable {c : Char} {m n s t before rest : Text}

theorem isPrefixOf?_eq_none_iff : m.isPrefixOf? s = none ↔ ¬ m <+: s := by
  rw [← Option.not_isSome_iff_eq_none, List.isSome_isPrefixOf?_eq_isPrefixOf,
    List.isPrefixOf_iff_prefix]

theorem cut?_eq_none_iff : cut? m s = none ↔ ¬ m <:+: s := by
  induction s with
  | nil =>
    rw [cut?, List.infix_nil]
    split <;> simp_all
  | cons c s ih =>
    rw [cut?, List.infix_cons_iff, not_or, ← ih, ← isPrefixOf?_eq_none_iff]
    cases m.isPrefixOf? (c :: s) <;> simp

/-- No occurrence begins before the cut. -/
theorem length_le_of_cut? (h : cut? m s = some (before, rest)) {a b : Text}
    (hs : s = a ++ m ++ b) : before.length ≤ a.length := by
  induction s generalizing before a with
  | nil =>
    rw [cut?] at h
    split at h
    · cases h
      exact Nat.zero_le _
    · cases h
  | cons c s ih =>
    rw [cut?] at h
    split at h
    · cases h
      exact Nat.zero_le _
    · next hm =>
      obtain ⟨⟨before', rest'⟩, h', heq⟩ := Option.map_eq_some_iff.1 h
      obtain ⟨rfl, rfl⟩ : c :: before' = before ∧ rest' = rest := by simpa using heq
      cases a with
      | nil => exact absurd ⟨b, hs.symm⟩ (isPrefixOf?_eq_none_iff.1 hm)
      | cons c' a =>
        have := ih h' (List.cons.inj hs).2
        simp only [List.length_cons]
        omega

theorem not_isInfix_of_cut? (hm : m ≠ []) (h : cut? m s = some (before, rest)) :
    ¬ m <:+: before := by
  rintro ⟨a, b, hab⟩
  have hs : s = a ++ m ++ (b ++ m ++ rest) := by
    rw [cut?_eq_some h, ← hab]
    simp
  have hle := length_le_of_cut? h hs
  have hpos := List.length_pos_iff.2 hm
  rw [← hab] at hle
  simp only [List.length_append] at hle
  omega

/-- What comes after some occurrence of a marker comes after its first one. -/
theorem isInfix_of_cut? (h : cut? m s = some (before, rest)) {a b : Text}
    (hs : s = a ++ m ++ b) (hn : n <:+: b) : n <:+: rest := by
  have hle := length_le_of_cut? h hs
  have hlen := congrArg List.length (hs.symm.trans (cut?_eq_some h))
  simp only [List.length_append] at hlen
  have hb : b <:+ rest := List.suffix_of_suffix_length_le ⟨a ++ m, hs.symm⟩
    ⟨before ++ m, (cut?_eq_some h).symm⟩ (by omega)
  exact hn.trans hb.isInfix

/-- A marker does not reach into a text that shares no character with it. -/
theorem isInfix_of_append (hm : m ≠ []) (ht : ∀ c ∈ t, c ∉ m) (h : m <:+: s ++ t) : m <:+: s := by
  rcases List.infix_append_iff.1 h with h | h | ⟨m₁, m₂, rfl, h₁, h₂⟩
  · exact h
  · obtain ⟨c, hc⟩ := List.exists_mem_of_ne_nil m hm
    exact absurd hc (ht c (h.subset hc))
  · have hnil : m₂ = [] := by
      apply List.eq_nil_iff_forall_not_mem.2
      intro c hc
      exact ht c (h₂.subset hc) (List.mem_append_right _ hc)
    rw [hnil, List.append_nil]
    exact h₁.isInfix

theorem exists_line_of_isInfix (hm : '\n' ∉ m) (h : m <:+: s) : ∃ l ∈ s.lines, m <:+: l := by
  obtain ⟨a, b, rfl⟩ := h
  rw [List.append_assoc]
  induction a with
  | nil =>
    obtain ⟨l, ls, -, hl⟩ := lines_append hm b
    refine ⟨m ++ l, ?_, (List.prefix_append m l).isInfix⟩
    rw [List.nil_append, hl]
    exact List.mem_cons_self ..
  | cons c a ih =>
    obtain ⟨l, hl, hml⟩ := ih
    by_cases hc : c = '\n'
    · subst hc
      rw [List.cons_append, lines_cons_feed]
      exact ⟨l, List.mem_cons_of_mem _ hl, hml⟩
    · obtain ⟨l', ls, hls, hcls⟩ := lines_cons hc (a ++ (m ++ b))
      rw [List.cons_append, hcls]
      rw [hls] at hl
      rcases List.mem_cons.1 hl with rfl | hl
      · exact ⟨c :: l, List.mem_cons_self .., hml.trans (List.suffix_cons c l).isInfix⟩
      · exact ⟨l, List.mem_cons_of_mem _ hl, hml⟩

/-! ## Texts with more behind -/

/-- A marker does not reach over a character that it has not. -/
theorem isPrefix_of_append_cons (hm : c ∉ m) (h : m <+: s ++ c :: t) : m <+: s := by
  rcases List.prefix_or_prefix_of_prefix h (List.prefix_append s _) with hpre | ⟨r, rfl⟩
  · exact hpre
  · cases r with
    | nil => simp
    | cons d r =>
      rw [List.prefix_append_right_inj] at h
      obtain ⟨rfl, -⟩ := List.cons_prefix_cons.1 h
      exact absurd (by simp) hm

theorem isPrefixOf?_append_cons (hm : c ∉ m) (s t : Text) :
    m.isPrefixOf? (s ++ c :: t) = (m.isPrefixOf? s).map (· ++ c :: t) := by
  cases h : m.isPrefixOf? s with
  | none =>
    rw [isPrefixOf?_eq_none_iff] at h
    rw [Option.map_none, isPrefixOf?_eq_none_iff]
    exact fun hpre => h (isPrefix_of_append_cons hm hpre)
  | some rest =>
    rw [List.isPrefixOf?_eq_some_iff_append_eq] at h
    rw [Option.map_some, List.isPrefixOf?_eq_some_iff_append_eq, ← h, List.append_assoc]

/-- A line feed is in the front of a text or in the rest. -/
theorem append_feed_eq_append {p q : Text} (h : s ++ '\n' :: t = p ++ q) :
    (∃ k, s = p ++ k ∧ q = k ++ '\n' :: t) ∨ ∃ k, p = s ++ '\n' :: k ∧ t = k ++ q := by
  rcases List.append_eq_append_iff.1 h with ⟨k, hp, hk⟩ | ⟨k, hs, hq⟩
  · cases k with
    | nil => exact .inl ⟨[], by simpa using hp.symm, by simpa using hk.symm⟩
    | cons c k =>
      obtain ⟨rfl, ht⟩ := List.cons.inj hk
      exact .inr ⟨k, hp, ht⟩
  · exact .inl ⟨k, hs, hq⟩

theorem append_feed_eq_marker {q : Text} (hm : '\n' ∉ m) (h : s ++ '\n' :: t = m ++ q) :
    ∃ k, s = m ++ k ∧ q = k ++ '\n' :: t := by
  rcases append_feed_eq_append h with hk | ⟨k, hk, -⟩
  · exact hk
  · exact absurd (by rw [hk]; simp) hm

/-- A marker without line feeds is on either side of a line feed. -/
theorem isInfix_append_feed (hm : '\n' ∉ m) :
    m <:+: s ++ '\n' :: t ↔ m <:+: s ∨ m <:+: t := by
  constructor
  · intro ⟨a, b, h⟩
    rw [List.append_assoc] at h
    rcases append_feed_eq_append h.symm with ⟨k, rfl, hk⟩ | ⟨k, -, rfl⟩
    · obtain ⟨k, rfl, -⟩ := append_feed_eq_marker hm hk.symm
      exact .inl ⟨a, k, by simp⟩
    · exact .inr ⟨k, b, by simp⟩
  · rintro (⟨a, b, rfl⟩ | ⟨a, b, rfl⟩)
    · exact ⟨a, b ++ '\n' :: t, by simp⟩
    · exact ⟨s ++ '\n' :: a, b, by simp⟩

theorem isInfix_unlines {ls : List Text} (hm : '\n' ∉ m) (hls : ls ≠ []) :
    m <:+: unlines ls ↔ ∃ l ∈ ls, m <:+: l := by
  induction ls, hls using List.recNeNil with
  | singleton l => simp [unlines]
  | cons l ls hls ih =>
    rw [unlines_cons l hls, isInfix_append_feed hm, ih]
    simp

/-- A cut is the same with more text behind. -/
theorem cut?_append (h : cut? m s = some (before, rest)) (t : Text) :
    cut? m (s ++ t) = some (before, rest ++ t) := by
  induction s generalizing before with
  | nil =>
    rw [cut?] at h
    split at h
    · next hm =>
      cases h
      subst hm
      cases t <;> rfl
    · cases h
  | cons c s ih =>
    rw [cut?] at h
    rw [List.cons_append, cut?]
    split at h
    · next rest' hpre =>
      cases h
      rw [List.isPrefixOf?_eq_some_iff_append_eq] at hpre
      have hmore : m.isPrefixOf? (c :: (s ++ t)) = some (rest ++ t) := by
        rw [List.isPrefixOf?_eq_some_iff_append_eq, ← List.append_assoc, hpre, List.cons_append]
      rw [hmore]
    · next hnone =>
      obtain ⟨⟨before', rest'⟩, h', heq⟩ := Option.map_eq_some_iff.1 h
      cases heq
      -- The marker has room behind the first character, so it does not need more text.
      have hlen := congrArg List.length (cut?_eq_some h')
      have hmore : m.isPrefixOf? (c :: (s ++ t)) = none := by
        rw [isPrefixOf?_eq_none_iff] at hnone ⊢
        intro hpre
        refine hnone (List.prefix_of_prefix_length_le hpre (List.prefix_append (c :: s) t) ?_)
        simp only [List.length_append, List.length_cons] at hlen ⊢
        omega
      rw [hmore]
      simp only [ih h', Option.map_some]

theorem cut?_append_feed (hm : '\n' ∉ m) (h : cut? m s = none) (t : Text) :
    cut? m (s ++ '\n' :: t) = (cut? m t).map fun x => (s ++ '\n' :: x.1, x.2) := by
  have hnone : ∀ s : Text, ¬ m <:+: s → m.isPrefixOf? (s ++ '\n' :: t) = none := by
    intro s hs
    rw [isPrefixOf?_append_cons hm, isPrefixOf?_eq_none_iff.2 fun hpre => hs hpre.isInfix]
    rfl
  rw [cut?_eq_none_iff] at h
  induction s with
  | nil =>
    have hfeed := hnone [] h
    rw [List.nil_append] at hfeed ⊢
    rw [cut?, hfeed]
    rfl
  | cons c s ih =>
    have hs : ¬ m <:+: s := fun hs => h (hs.trans (List.suffix_cons c s).isInfix)
    have hfeed := hnone (c :: s) h
    rw [List.cons_append] at hfeed ⊢
    rw [cut?, hfeed]
    simp only [ih hs, Option.map_map]
    rfl

/-- A marker of two characters does not begin in a text that has it not, unless the text ends as the
marker begins, and the marker goes on behind it. -/
theorem cut?_append_of_seam {a : Text} {x y : Char} (h : ¬ [x, y] <:+: a)
    (hseam : a.getLast? = some x → s.head? ≠ some y) :
    cut? [x, y] (a ++ s) = (cut? [x, y] s).map fun z => (a ++ z.1, z.2) := by
  induction a with
  | nil => simp
  | cons c a ih =>
    have hnone : [x, y].isPrefixOf? (c :: (a ++ s)) = none := by
      rw [isPrefixOf?_eq_none_iff, List.cons_prefix_cons]
      rintro ⟨rfl, hpre⟩
      cases a with
      | nil =>
        obtain ⟨t, ht⟩ := hpre
        exact hseam rfl (by rw [← List.nil_append s, ← ht]; rfl)
      | cons d a =>
        rw [List.cons_append, List.cons_prefix_cons] at hpre
        obtain ⟨rfl, -⟩ := hpre
        exact h ⟨[], a, rfl⟩
    have hseam' : a.getLast? = some x → s.head? ≠ some y := by
      intro hlast
      apply hseam
      rw [List.getLast?_cons, hlast]
      rfl
    rw [List.cons_append, cut?, hnone]
    simp only [ih (fun ha => h (ha.trans (List.suffix_cons c a).isInfix)) hseam', Option.map_map]
    rfl

theorem cut?_append_pair {a : Text} {x y : Char} (h : ¬ [x, y] <:+: a)
    (hlast : a.getLast? ≠ some x) (s : Text) :
    cut? [x, y] (a ++ s) = (cut? [x, y] s).map fun z => (a ++ z.1, z.2) :=
  cut?_append_of_seam h fun hx => absurd hx hlast

/-- A marker of two different characters is found where it is put behind a text that has it not. -/
theorem cut?_append_marker {a : Text} {x y : Char} (hne : x ≠ y) (h : ¬ [x, y] <:+: a) (s : Text) :
    cut? [x, y] (a ++ x :: y :: s) = some (a, s) := by
  have hpre : [x, y].isPrefixOf? (x :: y :: s) = some s :=
    List.isPrefixOf?_eq_some_iff_append_eq.2 rfl
  rw [cut?_append_of_seam h fun _ => by simpa using hne, cut?, hpre, Option.map_some,
    List.append_nil]

end Declutter.Text
