import Declutter.Proofs.Disk.Growth

/-!
# What a removal leaves

`Disk.Cleared d a d'`: of the disk `d`, only what is at or below the place that the path `a` leads
to is gone from `d'`, or else the link that the path itself is (`Disk.OwnLink`). This is so after
`removeDirs`, whether it fails or not, and where it does not fail, the path leads to nothing any
more (`removeDirs_cleared`).
-/

namespace Declutter.Disk

variable {d d' : Disk} {q r parent : Place} {a : Path} {e : Entry} {name : Text}

/-! ## The entry of a path -/

/-- A path is itself a link, which stands at the place `q`. -/
def OwnLink (d : Disk) (a : Path) (q : Place) : Prop :=
  ∃ s x r m, a.steps = s ++ [.down x] ∧ m ≤ linkLimit ∧ d.Leads (a.start d.workDir) s m r ∧
    q = r ++ [x] ∧ ∃ t, d.entry? q = some (.link t)

/-- A path that leads to a directory without following the link at its end leads there. -/
theorem resolve?_of_lookup_false (h : d.lookup false a = .ok q) (hq : d.entry? q = some .dir) :
    d.resolve? a = some q := by
  unfold lookup at h
  split at h
  · cases h
  next ht =>
  split at h
  · cases h
  next hv =>
  refine resolve?_eq_some_iff.2 ⟨ht, by simpa using hv, ?_⟩
  obtain ⟨s, last, hs⟩ :=
    (List.eq_nil_or_concat a.fullSteps).resolve_left (Path.fullSteps_ne_nil ht)
  rw [List.concat_eq_append] at hs
  rw [hs] at h ⊢
  obtain ⟨n, hn, r, hl, hr, hend⟩ := leads_of_walk_false h
  refine ⟨n, hn, hl.append (m := 0) ?_⟩
  cases last with
  | here => rw [hend]; exact .here hr (.done _)
  | up => rw [hend]; exact .up hr (.done _)
  | down x =>
    obtain ⟨rfl, -⟩ := hend
    exact .down_dir hr hq

/-- A path leads to the directory of its last name, without following a link there. -/
theorem lookup_false_of_locate (h : d.locate d.workDir a = .ok (parent, some (.down name)))
    (hdir : d.entry? (parent ++ [name]) = some .dir) :
    d.lookup false a = .ok (parent ++ [name]) := by
  obtain ⟨ht, hv, ⟨m, hm, hleads⟩, hparent, hlast⟩ := locate_ok_iff.1 h
  have hsteps : a.steps = a.steps.dropLast ++ [.down name] :=
    (List.dropLast_append_getLast? _ hlast.symm).symm
  rw [lookup, if_neg ht, if_neg (by simp [hv])]
  unfold Path.fullSteps
  split
  · have hall := hleads.append (.down_dir hparent hdir)
    rw [← hsteps] at hall
    rw [hall.walk_append hm (.inl (by simp)), Disk.walk, hdir]
    rw [Disk.walk]
  · rw [List.append_nil, hsteps, hleads.walk_append hm (.inl (by simp)), Disk.walk, hparent]
    simp only [hdir]
    rw [Disk.walk]

/-- A path that leads to a link without following it is that link. -/
theorem ownLink_of_lookup_false (hd : d.WellFormed) {t : Path} (h : d.lookup false a = .ok q)
    (hq : d.entry? q = some (.link t)) : d.OwnLink a q := by
  unfold lookup at h
  split at h
  · cases h
  next ht =>
  split at h
  · cases h
  obtain ⟨s, last, hs⟩ :=
    (List.eq_nil_or_concat a.fullSteps).resolve_left (Path.fullSteps_ne_nil ht)
  rw [List.concat_eq_append] at hs
  rw [hs] at h
  obtain ⟨n, hn, r, hl, hr, hend⟩ := leads_of_walk_false h
  cases last with
  | here => rw [hend, hr] at hq; cases hq
  | up => rw [hend, hd.parent hr] at hq; cases hq
  | down x =>
    -- a step down is no slash at the end, so it is the last step of the path
    have hsteps : a.steps = s ++ [.down x] := by
      rw [← hs, Path.fullSteps]
      split
      · next hslash =>
        rw [Path.fullSteps, if_pos hslash] at hs
        cases (List.append_inj' hs rfl).2
      · simp
    exact ⟨s, x, r, n, hsteps, hn, hl, hend.1, t, hq⟩

/-- Where a path leads, its last step starts in a directory, which the steps before lead to. -/
theorem locate_of_resolve? (h : d.resolve? a = some q) : ∃ parent, d.entry? parent = some .dir ∧
    d.locate d.workDir a = .ok (parent, a.steps.getLast?) ∧
    ∃ m n, m ≤ linkLimit ∧ d.Leads (a.start d.workDir) a.steps.dropLast m parent ∧
      d.Leads parent (a.steps.getLast?.toList) n q := by
  obtain ⟨ht, hv, k, hk, hfull⟩ := resolve?_eq_some_iff.1 h
  obtain ⟨m, hm, hl⟩ := leads_steps h
  rcases List.eq_nil_or_concat a.steps with hs | ⟨s, last, hs⟩
  · rw [hs] at hl
    cases hl
    have hdir := hfull.dir (Path.fullSteps_ne_nil ht)
    refine ⟨_, hdir, locate_ok_iff.2 ⟨ht, hv, ⟨0, Nat.zero_le _, ?_⟩, hdir, rfl⟩, 0, 0,
      Nat.zero_le _, ?_, ?_⟩ <;> (rw [hs]; exact .done _)
  · rw [List.concat_eq_append] at hs
    rw [hs] at hl
    obtain ⟨parent, i, j, h1, h2, rfl⟩ := hl.split
    have hdir := h2.dir (by simp)
    refine ⟨parent, hdir, locate_ok_iff.2 ⟨ht, hv, ⟨i, by omega, ?_⟩, hdir, rfl⟩, i, j, by omega,
      ?_, ?_⟩
    · rw [hs, List.dropLast_concat]; exact h1
    · rw [hs, List.dropLast_concat]; exact h1
    · rw [hs, List.getLast?_concat]; exact h2

theorem find?_eq_none_of_locate {x : DiskError} (h : d.locate d.workDir a = .error x) :
    d.find? a = none := by
  cases hf : d.find? a with
  | none => rfl
  | some e =>
    obtain ⟨q, hq, -⟩ := find?_eq_some_iff.1 hf
    obtain ⟨parent, -, hl, -⟩ := locate_of_resolve? hq
    rw [h] at hl
    cases hl

/-- When the entry of a path is gone, the path leads to nothing, whatever else is gone. -/
theorem find?_eq_none_of_gone (hk : d'.Keeps d)
    (hl : d.locate d.workDir a = .ok (parent, some (.down name)))
    (h : d'.entry? (parent ++ [name]) = none) : d'.find? a = none := by
  cases hf : d'.find? a with
  | none => rfl
  | some e =>
    exfalso
    obtain ⟨q, hq, -⟩ := find?_eq_some_iff.1 hf
    obtain ⟨parent', -, -, m, n, -, h1, h2⟩ := locate_of_resolve? hq
    obtain ⟨-, -, ⟨m', -, h1'⟩, -, hlast⟩ := locate_ok_iff.1 hl
    rw [← hk.workDir] at h1
    obtain rfl := (h1.mono hk).eq h1'
    rw [← hlast] at h2
    cases h2 with
    | down _ he _ _ => rw [h] at he; cases he
    | link _ he _ => rw [h] at he; cases he

/-! ## Removing -/

/-- What is gone from the disk is what the path leads to, with all that is in it, or the link that
the path itself is. -/
structure Cleared (d : Disk) (a : Path) (d' : Disk) : Prop where
  wellFormed : d'.WellFormed
  workDir : d'.workDir = d.workDir
  old : ∀ q e, d'.entry? q = some e → d.entry? q = some e
  gone : ∀ q e, d.entry? q = some e → d'.entry? q = none →
    (∃ r, d.resolve? a = some r ∧ r <+: q) ∨ d.OwnLink a q

namespace Cleared

theorem keeps (h : d.Cleared a d') : d'.Keeps d := .of_subset h.workDir.symm h.old

theorem refl (hd : d.WellFormed) (a : Path) : d.Cleared a d :=
  ⟨hd, rfl, fun _ _ h => h, fun q e h hn => by rw [h] at hn; cases hn⟩

end Cleared

theorem removeDir_ok (h : d.removeDir a = .ok d') :
    (d' = d ∧ d.find? a = none) ∨
    ∃ parent name, d.locate d.workDir a = .ok (parent, some (.down name)) ∧
      d.entry? (parent ++ [name]) = some .dir ∧ d.within (parent ++ [name]) = [] ∧
      d' = d.eraseIf (· == parent ++ [name]) := by
  unfold removeDir at h
  split at h
  · next parent name hl =>
    simp only at h
    split at h
    · next he => cases h; exact .inl ⟨rfl, find?_eq_none_of_gone (.refl d) hl he⟩
    · next he =>
      split at h
      · next hw => cases h; exact .inr ⟨parent, name, hl, he, hw, rfl⟩
      · cases h
    · cases h
  · cases h
  · next hl => cases h; exact .inl ⟨rfl, find?_eq_none_of_locate hl⟩
  · cases h

theorem eq_none_of_within_eq_nil {p : Place} (hw : d.within p = []) {t : List Text} (ht : t ≠ []) :
    d.entry? (p ++ t) = none := by
  cases he : d.entry? (p ++ t) with
  | none => rfl
  | some e =>
    have := mem_within.2 ⟨ht, he⟩
    rw [hw] at this
    cases this

theorem eq_some_of_eraseIf {test : Place → Bool} (h : Disk.entry? (d.eraseIf test) q = some e) :
    d.entry? q = some e ∧ (q ≠ [] → test q = false) := by
  by_cases hq : q = []
  · subst hq
    exact ⟨h, fun hc => absurd rfl hc⟩
  · rw [entry?_eraseIf _ _ hq] at h
    split at h
    · cases h
    · next ht => exact ⟨h, fun _ => by simpa using ht⟩

theorem test_of_eraseIf {test : Place → Bool} (h : d.entry? q = some e)
    (hn : Disk.entry? (d.eraseIf test) q = none) : test q = true := by
  by_cases hq : q = []
  · subst hq
    cases hn
  · rw [entry?_eraseIf _ _ hq] at hn
    split at hn
    · assumption
    · rw [h] at hn; cases hn

/-- An entry goes without harm to the tree if nothing is in it. -/
theorem WellFormed.erase (hd : d.WellFormed) {p : Place} (h : ∀ n, d.entry? (p ++ [n]) = none) :
    (d.eraseIf (· == p)).WellFormed := by
  apply hd.eraseIf
  intro q e hq ht hne
  have hp : q.dropLast = p := by simpa using ht
  have := h (q.getLast hne)
  rw [← hp, List.dropLast_append_getLast hne, hq] at this
  cases this

/-- Emptying the directory that a path leads to. -/
theorem cleared_of_emptied (hd : d.WellFormed) (h : d.resolve? a = some r) :
    d.Cleared a (d.eraseIf fun q => r.isPrefixOf q && q != r) := by
  refine ⟨hd.eraseIf fun q e hq ht hne => ?_, rfl, fun q e he => (eq_some_of_eraseIf he).1,
    fun q e he hn => .inl ⟨r, h, ?_⟩⟩
  · simp only [Bool.and_eq_true, List.isPrefixOf_iff_prefix, bne_iff_ne] at ht ⊢
    have hlen := ht.1.length_le
    refine ⟨ht.1.trans (List.dropLast_prefix q), ?_⟩
    rintro rfl
    have := List.length_pos_iff.2 hne
    rw [List.length_dropLast] at hlen
    omega
  · have := test_of_eraseIf he hn
    simp only [Bool.and_eq_true, List.isPrefixOf_iff_prefix] at this
    exact this.1

/-- Removing the directory of a path, once it may have been emptied. -/
theorem Cleared.removeDir {d₁ d₂ : Disk} (h : d.Cleared a d₁) (hr : d₁.removeDir a = .ok d₂) :
    d.Cleared a d₂ ∧ d₂.find? a = none := by
  rcases removeDir_ok hr with ⟨rfl, hn⟩ | ⟨parent, name, hl, hdir, hw, rfl⟩
  · exact ⟨h, hn⟩
  have hsub : (d₁.eraseIf (· == parent ++ [name])).Keeps d₁ :=
    .of_subset rfl fun q e he => (eq_some_of_eraseIf he).1
  obtain ⟨ht, hv, ⟨m, hm, hlead⟩, hp, hlast⟩ := locate_ok_iff.1 hl
  -- the path leads to this directory on the whole disk too
  have hres : d.resolve? a = some (parent ++ [name]) := by
    have hdir' := h.old _ _ hdir
    refine resolve?_of_leads ht hv hm ?_ hdir'
    rw [← List.dropLast_append_getLast? _ hlast.symm, ← h.workDir]
    exact (hlead.mono h.keeps).append (.down_dir (h.old _ _ hp) hdir')
  refine ⟨⟨h.wellFormed.erase fun n => eq_none_of_within_eq_nil hw (by simp), h.workDir,
    fun q e he => h.old q e (eq_some_of_eraseIf he).1, fun q e he hn => ?_⟩,
    find?_eq_none_of_gone hsub hl ?_⟩
  · cases he₁ : d₁.entry? q with
    | none => exact h.gone q e he he₁
    | some e₁ =>
      obtain rfl : q = parent ++ [name] := by simpa using test_of_eraseIf he₁ hn
      exact .inl ⟨_, hres, List.prefix_refl _⟩
  · rw [entry?_eraseIf _ _ (by simp)]
    simp

/-- Removing the link that a path is. -/
theorem cleared_of_unlinked (hd : d.WellFormed) (h : d.OwnLink a q) :
    d.Cleared a (d.eraseIf (· == q)) ∧ (d.eraseIf (· == q)).find? a = none := by
  have hown := h
  obtain ⟨s, x, r, m, hs, hm, hlead, rfl, t, ht⟩ := h
  have hsub : (d.eraseIf (· == r ++ [x])).Keeps d :=
    .of_subset rfl fun q e he => (eq_some_of_eraseIf he).1
  refine ⟨⟨hd.erase fun n => hd.eq_none_of_append (by simp) (by rw [ht]; simp), rfl,
    fun q e he => (eq_some_of_eraseIf he).1, fun q e he hn => ?_⟩, ?_⟩
  · obtain rfl : q = r ++ [x] := by simpa using test_of_eraseIf he hn
    exact .inr hown
  · cases hf : (d.eraseIf (· == r ++ [x])).find? a with
    | none => rfl
    | some e =>
      exfalso
      obtain ⟨q, hq, -⟩ := find?_eq_some_iff.1 hf
      obtain ⟨k, -, hl⟩ := leads_steps hq
      rw [hs] at hl
      obtain ⟨r', i, j, h1, h2, -⟩ := hl.split
      obtain rfl := (h1.mono hsub).eq hlead
      have hgone : Disk.entry? (d.eraseIf (· == r' ++ [x])) (r' ++ [x]) = none := by
        rw [entry?_eraseIf _ _ (by simp)]
        simp
      cases h2 with
      | down _ he _ _ => rw [hgone] at he; cases he
      | link _ he _ => rw [hgone] at he; cases he

/-- **A removal** takes away only what the path leads to, or the link that the path is; and where it
does not fail, the path leads to nothing any more. -/
theorem removeDirs_cleared (hd : d.WellFormed) (a : Path) :
    d.Cleared a (DiskM.runOn d (removeDirs a)).2 ∧
      ((DiskM.runOn d (removeDirs a)).1 = .ok () →
        (DiskM.runOn d (removeDirs a)).2.find? a = none) := by
  unfold removeDirs
  rw [DiskM.runOn_get_bind, DiskM.runOn_bind, DiskM.runOn_ofExcept]
  cases hl : d.lookup false a with
  | error x => exact ⟨.refl hd a, fun h => by cases h⟩
  | ok q =>
    simp only
    cases he : d.entry? q with
    | none => exact ⟨.refl hd a, fun h => by cases h⟩
    | some e =>
      cases e with
      | file b => exact ⟨.refl hd a, fun h => by cases h⟩
      | link t =>
        obtain ⟨h1, h2⟩ := cleared_of_unlinked hd (ownLink_of_lookup_false hd hl he)
        exact ⟨h1, fun _ => h2⟩
      | dir =>
        have hc := cleared_of_emptied hd (resolve?_of_lookup_false hl he)
        simp only [DiskM.runOn_bind, DiskM.runOn_set, DiskM.runOn_change]
        cases hr : (d.eraseIf fun p => q.isPrefixOf p && p != q).removeDir a with
        | error x => exact ⟨hc, fun h => by cases h⟩
        | ok d₂ =>
          obtain ⟨h1, h2⟩ := hc.removeDir hr
          exact ⟨h1, fun _ => h2⟩

end Declutter.Disk
