import Declutter.Proofs.Disk.Action
import Declutter.Proofs.Path.Components

/-!
# Directories that are made

`Disk.addDirs d r names`: the disk with a chain of new directories, one within the other, below `r`.
`Disk.Missing d p s r n names`: the steps `s` lead from `p` as far as the directory `r`, where the
name `n` is missing; then only `names` follow. Making the directories of a path without `..` does
nothing, or makes such a chain (`makeDirs_cases`); where it does not fail the chain is whole, and
the path leads to its end (`Missing.leads`).

A chain changes nothing else (`entry?_addDirs`), and its end is empty (`Missing.empty`).
-/

namespace Declutter.Disk

variable {d d' : Disk} {p q r : Place} {n : Text} {names : List Text} {a : Path}

/-! ## One directory -/

theorem makeDir_ok_iff : d.makeDir a = .ok d' ↔ ∃ parent name,
    d.locate d.workDir a = .ok (parent, some (.down name)) ∧ d.entry? (parent ++ [name]) = none ∧
      d' = d.put (parent ++ [name]) .dir := by
  unfold makeDir
  simp only [bind, Except.bind, pure, Except.pure, throw, throwThe, MonadExceptOf.throw]
  cases hl : d.locate d.workDir a with
  | error e => simp
  | ok x =>
    obtain ⟨parent, last⟩ := x
    rcases last with _ | _ | _ | name
    · simp
    · simp
    · simp
    · simp only [Except.ok.injEq, Prod.mk.injEq, Option.some.injEq, Step.down.injEq]
      split
      · next h =>
        simp only [reduceCtorEq, false_iff]
        rintro ⟨_, _, ⟨rfl, rfl⟩, hn, -⟩
        rw [hn] at h
        cases h
      · next h =>
        simp only [Except.ok.injEq]
        constructor
        · rintro rfl
          exact ⟨parent, name, ⟨rfl, rfl⟩, by simpa using h, rfl⟩
        · rintro ⟨_, _, ⟨rfl, rfl⟩, -, rfl⟩
          rfl

theorem ensureDir_ok (h : d.ensureDir a = .ok d') : d.makeDir a = .ok d' ∨ d' = d ∧ d.isDir a := by
  unfold ensureDir at h
  split at h
  · next hm => cases h; exact .inl hm
  · split at h
    · next hi => cases h; exact .inr ⟨rfl, hi⟩
    · cases h

theorem ensureDir_of_makeDir (h : d.makeDir a = .ok d') : d.ensureDir a = .ok d' := by
  unfold ensureDir
  rw [h]

/-- Once a directory is made or was there, the path leads to it. -/
theorem isDir_of_ensureDir (h : d.ensureDir a = .ok d') : d'.isDir a := by
  rcases ensureDir_ok h with hm | ⟨rfl, hi⟩
  · obtain ⟨parent, name, hl, hn, rfl⟩ := makeDir_ok_iff.1 hm
    obtain ⟨ht, hv, ⟨m, hm, hleads⟩, hdir, hlast⟩ := locate_ok_iff.1 hl
    have hk : d.Keeps (d.put (parent ++ [name]) .dir) := .put_of_none (by simp) hn _
    have hself := entry?_put_self d (p := parent ++ [name]) (by simp) .dir
    refine isDir_iff.2 ⟨parent ++ [name], resolve?_of_leads ht hv hm ?_ hself, hself⟩
    rw [← List.dropLast_append_getLast? _ hlast.symm]
    exact (hleads.mono hk).append (.down_dir (hk.dir _ hdir) hself)
  · exact hi

/-! ## A chain of directories -/

/-- The disk with new directories below `r`, one within the other. -/
def addDirs (d : Disk) (r : Place) : List Text → Disk
  | [] => d
  | n :: names => addDirs (d.put (r ++ [n]) .dir) (r ++ [n]) names

theorem addDirs_concat (d : Disk) (r : Place) (names : List Text) (n : Text) :
    d.addDirs r (names ++ [n]) = (d.addDirs r names).put (r ++ names ++ [n]) .dir := by
  induction names generalizing d r with
  | nil => simp [addDirs]
  | cons m names ih => simp [addDirs, ih]

@[simp] theorem workDir_addDirs (d : Disk) (r : Place) (names : List Text) :
    (d.addDirs r names).workDir = d.workDir := by
  induction names generalizing d r with
  | nil => rfl
  | cons m names ih => simp [addDirs, ih]

/-- **A chain of directories** is what is new on the disk. -/
theorem entry?_addDirs (d : Disk) (r : Place) (names : List Text) (q : Place) :
    Disk.entry? (d.addDirs r names) q =
      if r <+: q ∧ q ≠ r ∧ q <+: r ++ names then some .dir else d.entry? q := by
  induction names using List.reverseRecOn with
  | nil =>
    rw [addDirs, if_neg]
    rintro ⟨h1, h2, h3⟩
    rw [List.append_nil] at h3
    exact h2 (h3.eq_of_length_le h1.length_le)
  | append_singleton names n ih =>
    rw [addDirs_concat, entry?_put _ (by simp), ih]
    by_cases hq : q = r ++ names ++ [n]
    · subst hq
      rw [if_pos rfl, if_pos]
      refine ⟨by simp [List.append_assoc], ?_, by simp⟩
      intro hc
      have := congrArg List.length hc
      simp only [List.length_append, List.length_singleton] at this
      omega
    · rw [if_neg hq]
      have : q <+: r ++ (names ++ [n]) ↔ q <+: r ++ names := by
        rw [← List.append_assoc, List.prefix_concat_iff, or_iff_right hq]
      simp only [this]

theorem entry?_addDirs_end (hr : d.entry? r = some .dir) (names : Place) :
    Disk.entry? (d.addDirs r names) (r ++ names) = some .dir := by
  rw [entry?_addDirs]
  by_cases hnil : names = []
  · simp [hnil, hr]
  · simp [hnil]

theorem WellFormed.addDirs (hd : d.WellFormed) (hr : d.entry? r = some .dir)
    (hn : ∀ n ∈ names, IsName n) : (d.addDirs r names).WellFormed := by
  induction names generalizing d r with
  | nil => exact hd
  | cons m names ih =>
    rw [Disk.addDirs]
    exact ih (hd.put hr (hn m (List.mem_cons_self ..)) fun _ => rfl)
      (entry?_put_self d (by simp) .dir) fun n hn' => hn n (List.mem_cons_of_mem _ hn')

/-- Steps that lead as far as the directory `r`, where the name `n` is missing, and after it
`names`. -/
structure Missing (d : Disk) (p : Place) (s : List Step) (r : Place) (n : Text)
    (names : List Text) : Prop where
  leads_front : ∃ front, moving s = front ++ (n :: names).map .down ∧
    ∃ m ≤ linkLimit, d.Leads p front m r
  dir : d.entry? r = some .dir
  absent : d.entry? (r ++ [n]) = none

namespace Missing

variable {s : List Step}

theorem entry?_eq_none (hd : d.WellFormed) (h : d.Missing p s r n names) (hq : r ++ [n] <+: q) :
    d.entry? q = none := by
  obtain ⟨t, rfl⟩ := hq
  by_cases ht : t = []
  · simpa [ht] using h.absent
  · exact hd.eq_none_of_append ht (by rw [h.absent]; simp)

/-- The places of the chain: all are below the first missing name. -/
theorem mem_chain {made : List Text} (h : r <+: q ∧ q ≠ r ∧ q <+: r ++ n :: made) :
    r ++ [n] <+: q := by
  obtain ⟨⟨t, rfl⟩, hne, hpre⟩ := h
  obtain ⟨x, t, rfl⟩ := List.exists_cons_of_ne_nil (l := t) (by rintro rfl; simp at hne)
  rw [List.prefix_append_right_inj] at hpre ⊢
  obtain ⟨rfl, -⟩ := List.cons_prefix_cons.1 hpre
  exact ⟨t, rfl⟩

theorem keeps (hd : d.WellFormed) (h : d.Missing p s r n names) (made : List Text) :
    d.Keeps (d.addDirs r (n :: made)) := by
  refine .of_subset (workDir_addDirs ..) ?_
  intro q e hq
  rw [entry?_addDirs, if_neg]
  · exact hq
  · intro hc
    rw [h.entry?_eq_none hd (mem_chain hc)] at hq
    cases hq

/-- The steps do not lead anywhere yet. -/
theorem not_leads (h : d.Missing p s r n names) {m : Nat} : ¬ d.Leads p s m q := by
  intro hl
  obtain ⟨front, hs, m', -, hf⟩ := h.leads_front
  have hl := hl.moving
  rw [hs] at hl
  obtain ⟨x, i, j, h1, h2, -⟩ := hl.split
  obtain rfl := h1.eq hf
  cases h2 with
  | down _ he _ _ => rw [h.absent] at he; cases he
  | link _ he _ => rw [h.absent] at he; cases he

theorem entry?_chain (d : Disk) (r : Place) (n : Text) {names : List Text} {k : List Text}
    (hk : n :: k <+: n :: names) :
    Disk.entry? (d.addDirs r (n :: names)) (r ++ n :: k) = some .dir := by
  rw [entry?_addDirs, if_pos]
  refine ⟨by simp, ?_, by simpa [List.prefix_append_right_inj] using hk⟩
  intro hc
  have := congrArg List.length hc
  simp at this

/-- **Once the chain is made**, the steps lead to its end. -/
theorem leads (hd : d.WellFormed) (h : d.Missing p s r n names) :
    ∃ m ≤ linkLimit, (d.addDirs r (n :: names)).Leads p s m (r ++ n :: names) := by
  obtain ⟨front, hs, m, hm, hf⟩ := h.leads_front
  have hk := h.keeps hd names
  refine ⟨m, hm, leads_of_moving ?_ (entry?_chain d r n (List.prefix_refl _))⟩
  rw [hs]
  -- below `r`, every step goes one directory down the chain
  have hchain : ∀ k, k <+: names →
      (d.addDirs r (n :: names)).Leads r ((n :: k).map .down) 0 (r ++ n :: k) := by
    intro k
    induction k using List.reverseRecOn with
    | nil =>
      intro _
      exact .down_dir (hk.dir _ h.dir) (entry?_chain d r n (by simp))
    | append_singleton k x ih =>
      intro hkx
      have hpre : k <+: names := (List.prefix_append k [x]).trans hkx
      have h1 := entry?_chain d r n (List.cons_prefix_cons.2 ⟨rfl, hpre⟩)
      have h2 := entry?_chain d r n (List.cons_prefix_cons.2 ⟨rfl, hkx⟩)
      have := (ih hpre).append (Leads.down_dir h1 (show _ = _ by simpa using h2))
      simpa using this
  exact (hf.mono hk).append (hchain names (List.prefix_refl _))

/-- The end of the chain is empty. -/
theorem empty (hd : d.WellFormed) (h : d.Missing p s r n names) (made : List Text) {t : List Text}
    (ht : t ≠ []) :
    Disk.entry? (d.addDirs r (n :: made)) (r ++ n :: made ++ t) = none := by
  rw [entry?_addDirs, if_neg]
  · exact h.entry?_eq_none hd ⟨made ++ t, by simp⟩
  · rintro ⟨-, -, hc⟩
    have := hc.length_le
    have := List.length_pos_iff.2 ht
    simp only [List.length_append] at *
    omega

theorem congr {s' : List Step} (h : d.Missing p s r n names) (hs : moving s' = moving s) :
    d.Missing p s' r n names :=
  ⟨by rw [hs]; exact h.leads_front, h.dir, h.absent⟩

theorem concat (h : d.Missing p s r n names) (x : Text) :
    d.Missing p (s ++ [.down x]) r n (names ++ [x]) := by
  obtain ⟨front, hs, hf⟩ := h.leads_front
  refine ⟨⟨front, ?_, hf⟩, h.dir, h.absent⟩
  rw [moving_append, hs]
  simp [moving]

/-- After the chain is made, the next directory can be. -/
theorem ensureDir_next (hd : d.WellFormed) {x : Text} (ht : a.text ≠ []) (hv : a.isValid)
    (hs : a.steps = s ++ [.down x]) (h : d.Missing (a.start d.workDir) s r n names) :
    (d.addDirs r (n :: names)).ensureDir a = .ok (d.addDirs r (n :: (names ++ [x]))) := by
  obtain ⟨m, hm, hl⟩ := h.leads hd
  refine ensureDir_of_makeDir (makeDir_ok_iff.2 ⟨r ++ n :: names, x, ?_, ?_, ?_⟩)
  · refine locate_ok_iff.2 ⟨ht, hv, ⟨m, hm, ?_⟩, entry?_chain d r n (List.prefix_refl _), ?_⟩
    · rw [hs, List.dropLast_concat, workDir_addDirs]
      exact hl
    · rw [hs, List.getLast?_concat]
  · simpa using h.empty hd names (t := [x]) (by simp)
  · rw [← List.cons_append, addDirs_concat]

end Missing

/-! ## All directories of a path -/

theorem missing_of_makeDir (h : d.makeDir a = .ok d') : ∃ r n,
    d.Missing (a.start d.workDir) a.steps r n [] ∧ d' = d.addDirs r [n] ∧
      ∃ s, a.steps = s ++ [.down n] := by
  obtain ⟨parent, name, hl, hn, rfl⟩ := makeDir_ok_iff.1 h
  obtain ⟨-, -, ⟨m, hm, hleads⟩, hdir, hlast⟩ := locate_ok_iff.1 hl
  have hs := List.dropLast_append_getLast? _ hlast.symm
  refine ⟨parent, name, ⟨⟨moving a.steps.dropLast, ?_, m, hm, hleads.moving⟩, hdir, hn⟩, rfl,
    a.steps.dropLast, hs.symm⟩
  conv_lhs => rw [← hs]
  rw [moving_append]
  rfl

theorem ensureDir_of_isDir {a : Path} (h : d.isDir a) : d.ensureDir a = .ok d := by
  unfold ensureDir
  cases hm : d.makeDir a with
  | ok d₁ =>
    obtain ⟨q, n, hmissing, -⟩ := missing_of_makeDir hm
    obtain ⟨x, hx, -⟩ := isDir_iff.1 h
    obtain ⟨m, -, hl⟩ := leads_steps hx
    exact absurd hl hmissing.not_leads
  | error e => simp only [h, if_true]

/-- A component that follows others, and is not `..`, is a name. -/
theorem name_of_canonical {c : Component} {above : List Component} (ha : above ≠ [])
    (h : Path.Canonical (above ++ [c])) (hup : c ≠ .up) : ∃ x, c = .name x := by
  obtain ⟨b, bs, rfl⟩ := List.exists_cons_of_ne_nil ha
  rcases (h.2 c (by simp)).cases with rfl | ⟨x, rfl, -⟩
  · exact absurd rfl hup
  · exact ⟨x, rfl⟩

/-- Makes sure of a directory, after those above it if it is not found at first. -/
def ensureAfter (d : Disk) (a : Path) (above : List Component) : Except DiskError Unit × Disk :=
  match d.ensureDir a with
  | .ok d₁ => (.ok (), d₁)
  | .error .notFound =>
    match DiskM.runOn d (makeDirsUp above) with
    | (.ok _, d₁) =>
      match d₁.ensureDir a with
      | .ok d₂ => (.ok (), d₂)
      | .error e => (.error e, d₁)
    | (.error e, d₁) => (.error e, d₁)
  | .error e => (.error e, d)

theorem runOn_ensure (d : Disk) (a : Path) (above : List Component) :
    DiskM.runOn d (match d.ensureDir a with
      | .ok d => set d
      | .error .notFound => do
        makeDirsUp above
        DiskM.change (·.ensureDir a)
      | .error e => throw e) = d.ensureAfter a above := by
  unfold ensureAfter
  split
  · rfl
  · rw [DiskM.runOn_bind]
    split
    · next d₁ h =>
      rw [DiskM.runOn_change, h]
      simp only
      cases d₁.ensureDir a <;> rfl
    · next h => rw [h]
  · rfl

theorem runOn_makeDirsUp (d : Disk) (c : Component) (above : List Component) :
    DiskM.runOn d (makeDirsUp (c :: above)) =
      d.ensureAfter (Path.ofComponents (c :: above).reverse) above := by
  rw [makeDirsUp, DiskM.runOn_get_bind]
  exact runOn_ensure d _ above

theorem runOn_makeDirs (d : Disk) (ht : a.text ≠ []) :
    DiskM.runOn d (makeDirs a) = d.ensureAfter a a.components.reverse.tail := by
  rw [makeDirs, if_neg (Path.components_ne_nil ht), DiskM.runOn_get_bind]
  exact runOn_ensure d a _

/-- Once its directories are made, a path leads to a directory. -/
theorem isDir_of_makeDirs (ht : a.text ≠ []) (h : DiskM.runOn d (makeDirs a) = (.ok (), d')) :
    d'.isDir a := by
  rw [runOn_makeDirs d ht, ensureAfter] at h
  split at h
  · next he =>
    cases h
    exact isDir_of_ensureDir he
  · split at h
    · split at h
      · next he =>
        cases h
        exact isDir_of_ensureDir he
      · cases h
    · cases h
  · cases h

section
variable {I : Disk → Prop}
  (hI : ∀ d p n, I d → d.entry? (p ++ [n]) = none → I (d.put (p ++ [n]) .dir))
include hI

theorem ensureDir_keeps (h : I d) (he : d.ensureDir a = .ok d') : I d' := by
  rcases ensureDir_ok he with hm | ⟨rfl, -⟩
  · obtain ⟨parent, name, -, hn, rfl⟩ := makeDir_ok_iff.1 hm
    exact hI d parent name h hn
  · exact h

theorem preserves_makeDirsUp (cs : List Component) : DiskM.Preserves I (makeDirsUp cs) := by
  induction cs with
  | nil => exact .pure _
  | cons c above ih =>
    intro d h
    unfold Disk.makeDirsUp
    rw [DiskM.runOn_get_bind]
    split
    · next he => exact ensureDir_keeps hI h he
    · exact ih.bind (fun _ => .change fun _ _ h he => ensureDir_keeps hI h he) d h
    · exact h

/-- What a single new directory keeps, making directories keeps, for any path. -/
theorem preserves_makeDirs (a : Path) : DiskM.Preserves I (makeDirs a) := by
  intro d h
  unfold Disk.makeDirs
  split
  · exact h
  · rw [DiskM.runOn_get_bind]
    split
    · next he => exact ensureDir_keeps hI h he
    · exact (preserves_makeDirsUp hI _).bind
        (fun _ => .change fun _ _ h he => ensureDir_keeps hI h he) d h
    · exact h

end

/-- How making directories may end: the disk stays as it is, or a chain is made where some steps
lead, the whole of it unless this fails. -/
def Makes (d : Disk) (p : Place) (s : List Step) (run : Except DiskError Unit × Disk) : Prop :=
  (∃ x, run = (x, d)) ∨ ∃ r n names, d.Missing p s r n names ∧
    (run = (.ok (), d.addDirs r (n :: names)) ∨
      ∃ e made, made <+: names ∧ run = (.error e, d.addDirs r (n :: made)))

/-- After a chain, the next directory is still missing, so that it is made. -/
theorem Missing.makeDir_of_ensureDir (hd : d.WellFormed) {s : List Step} {x : Text}
    (hs : moving a.steps = moving s ++ [.down x])
    (h : d.Missing (a.start d.workDir) s r n names)
    (he : (d.addDirs r (n :: names)).ensureDir a = .ok d') :
    (d.addDirs r (n :: names)).makeDir a = .ok d' := by
  rcases ensureDir_ok he with hm | ⟨-, hi⟩
  · exact hm
  · exfalso
    obtain ⟨q, hq, -⟩ := isDir_iff.1 hi
    obtain ⟨m, -, hl⟩ := leads_steps hq
    obtain ⟨m', hm', hl'⟩ := h.leads hd
    have hlast : (d.addDirs r (n :: names)).Missing (a.start d.workDir) a.steps
        (r ++ n :: names) x [] :=
      ⟨⟨_, hs, m', hm', hl'.moving⟩, Missing.entry?_chain d r n (List.prefix_refl _),
        by simpa using h.empty hd names (t := [x]) (by simp)⟩
    rw [workDir_addDirs] at hl
    exact hlast.not_leads hl

/-- After a chain, only the next directory can be made. -/
theorem Missing.eq_of_ensureDir (hd : d.WellFormed) (ht : a.text ≠ []) (hv : a.isValid)
    {s : List Step} {x : Text} (hs : moving a.steps = moving s ++ [.down x])
    (h : d.Missing (a.start d.workDir) s r n names)
    (he : (d.addDirs r (n :: names)).ensureDir a = .ok d') :
    d' = d.addDirs r (n :: (names ++ [x])) := by
  obtain ⟨-, n', -, -, s', hs'⟩ := missing_of_makeDir (h.makeDir_of_ensureDir hd hs he)
  rw [hs', moving_append] at hs
  obtain ⟨hmov, hlast⟩ := List.append_inj' hs rfl
  obtain rfl : n' = x := by simpa [moving] using hlast
  rw [(h.congr hmov).ensureDir_next hd ht hv hs'] at he
  cases he
  rfl

/-- A directory that is made after those above it, of which it is the next. -/
theorem Makes.ensureAfter (hd : d.WellFormed) (ht : a.text ≠ []) (hv : a.isValid)
    {s : List Step} {above : List Component}
    (h : d.Makes (a.start d.workDir) s (DiskM.runOn d (makeDirsUp above)))
    (hs : moving s ≠ [] → ∃ x, moving a.steps = moving s ++ [.down x]) :
    d.Makes (a.start d.workDir) a.steps (d.ensureAfter a above) := by
  unfold Disk.ensureAfter
  split
  · next d₁ he =>
    rcases ensureDir_ok he with hm | ⟨rfl, -⟩
    · obtain ⟨r, n, hmiss, rfl, -⟩ := missing_of_makeDir hm
      exact .inr ⟨r, n, [], hmiss, .inl rfl⟩
    · exact .inl ⟨_, rfl⟩
  · next he =>
    rcases h with ⟨x, hx⟩ | ⟨r, n, names, hmiss, hrun⟩
    · rw [hx]
      cases x with
      | error e => exact .inl ⟨_, rfl⟩
      | ok u =>
        simp only [he]
        exact .inl ⟨_, rfl⟩
    · obtain ⟨x, hx⟩ := hs (by
        obtain ⟨front, hs, -⟩ := hmiss.leads_front
        simp [hs])
      have hfull : d.Missing (a.start d.workDir) a.steps r n (names ++ [x]) :=
        (hmiss.concat x).congr (by rw [hx, moving_append]; rfl)
      rcases hrun with hrun | ⟨e, made, hpre, hrun⟩
      · rw [hrun]
        simp only
        cases he : (d.addDirs r (n :: names)).ensureDir a with
        | error e => exact .inr ⟨r, n, _, hfull, .inr ⟨e, names, List.prefix_append .., rfl⟩⟩
        | ok d₂ =>
          rw [hmiss.eq_of_ensureDir hd ht hv hx he]
          exact .inr ⟨r, n, _, hfull, .inl rfl⟩
      · rw [hrun]
        exact .inr ⟨r, n, _, hfull, .inr ⟨e, made, hpre.trans (List.prefix_append ..), rfl⟩⟩
  · exact .inl ⟨_, rfl⟩

/-- Making the directories of some first components of a path. -/
theorem makeDirsUp_makes (hd : d.WellFormed) (hv : a.isValid) (hup : Component.up ∉ a.components)
    {cs : List Component} (hcs : cs.reverse <+: a.components) :
    d.Makes (a.start d.workDir) (cs.reverse.filterMap (·.step?))
      (DiskM.runOn d (makeDirsUp cs)) := by
  induction cs with
  | nil => exact .inl ⟨_, rfl⟩
  | cons c above ih =>
    have hcan : Path.Canonical (c :: above).reverse := by
      rw [List.prefix_iff_eq_take.1 hcs]
      exact (Path.canonical_components a).take _
    have hne : (c :: above).reverse ≠ [] := by simp
    have hrev : (c :: above).reverse = above.reverse ++ [c] := List.reverse_cons
    have habove : above.reverse <+: a.components :=
      (hrev ▸ List.prefix_append above.reverse [c]).trans hcs
    have hsteps := Path.steps_ofComponents hcan
    have hstart : (Path.ofComponents (c :: above).reverse).start d.workDir = a.start d.workDir := by
      refine Path.start_ofComponents hcan ?_ _
      obtain ⟨t, ht⟩ := hcs
      rw [← ht]
      exact List.head?_append_of_ne_nil _ hne
    have hval : (Path.ofComponents (c :: above).reverse).isValid :=
      Path.isValid_ofComponents hv fun x hx => hcs.subset hx
    rw [runOn_makeDirsUp, ← hstart, ← hsteps]
    refine Makes.ensureAfter hd (Path.text_ofComponents_ne_nil hcan hne) hval
      (hstart ▸ ih habove) fun hmov => ?_
    -- there are components above this one, so it is a name
    have hab : above.reverse ≠ [] := by
      intro hc
      rw [hc] at hmov
      exact hmov rfl
    obtain ⟨x, rfl⟩ := name_of_canonical hab (hrev ▸ hcan) fun hc =>
      hup (hcs.subset (by rw [hrev, hc]; simp))
    refine ⟨x, ?_⟩
    rw [hsteps, hrev, List.filterMap_append, moving_append]
    rfl

theorem makeDirs_of_not_valid (ht : a.text ≠ []) (hv : ¬ a.isValid) :
    DiskM.runOn d (makeDirs a) = (.error .invalid, d) := by
  have hm : d.makeDir a = .error .invalid := by
    simp [makeDir, locate, ht, hv, bind, Except.bind, throw, throwThe, MonadExceptOf.throw]
  have hi : d.isDir a = false := by
    rw [Bool.eq_false_iff]
    intro hc
    obtain ⟨q, hq, -⟩ := isDir_iff.1 hc
    exact hv (resolve?_eq_some_iff.1 hq).2.1
  have he : d.ensureDir a = .error .invalid := by simp [ensureDir, hm, hi]
  unfold makeDirs
  simp [Path.components_ne_nil ht, he]

/-- The names that are missing are names that an entry can have. -/
theorem Missing.isName (hv : a.isValid) (h : d.Missing p a.steps r n names) :
    ∀ x ∈ n :: names, IsName x := by
  intro x hx
  obtain ⟨front, hs, -⟩ := h.leads_front
  refine Path.isName_of_mem_steps hv (List.mem_of_mem_filter (p := (· ≠ .here)) ?_)
  rw [show a.steps.filter (· ≠ .here) = moving a.steps from rfl, hs]
  exact List.mem_append_right _ (List.mem_map_of_mem hx)

/-- Making the directories above that of a path without `..`: they are all but the last of its
names. -/
theorem makeDirsUp_above (hd : d.WellFormed) (ht : a.text ≠ []) (hv : a.isValid)
    (hup : Component.up ∉ a.components) : ∃ s,
    d.Makes (a.start d.workDir) s (DiskM.runOn d (makeDirsUp a.components.reverse.tail)) ∧
      (moving s ≠ [] → ∃ x, moving a.steps = moving s ++ [.down x]) := by
  obtain ⟨init, c, hcomps⟩ : ∃ init c, a.components = init ++ [c] :=
    ⟨_, _, (List.dropLast_append_getLast (Path.components_ne_nil ht)).symm⟩
  have hcs : a.components.reverse.tail = init.reverse := by rw [hcomps]; simp
  have hpre : init.reverse.reverse <+: a.components := by rw [hcomps]; simp
  rw [hcs]
  refine ⟨_, makeDirsUp_makes hd hv hup hpre, ?_⟩
  intro hmov
  rw [List.reverse_reverse] at hmov ⊢
  have hinit : init ≠ [] := by
    rintro rfl
    exact hmov rfl
  obtain ⟨x, rfl⟩ := name_of_canonical hinit (hcomps ▸ Path.canonical_components a) fun hc =>
    hup (by rw [hcomps, hc]; simp)
  refine ⟨x, ?_⟩
  rw [← Path.moving_components, hcomps, List.filterMap_append, moving_append]
  rfl

/-- **Making the directories of a path** without `..`: the disk stays as it is, and then the path
leads to a directory unless this fails, or a chain is made, the whole of it unless this fails. -/
theorem makeDirs_cases (hd : d.WellFormed) (ht : a.text ≠ []) (hup : Component.up ∉ a.components) :
    (∃ x, DiskM.runOn d (makeDirs a) = (x, d) ∧ (x = .ok () → d.isDir a)) ∨
    a.isValid ∧ ∃ r n names, d.Missing (a.start d.workDir) a.steps r n names ∧
      (DiskM.runOn d (makeDirs a) = (.ok (), d.addDirs r (n :: names)) ∨
        ∃ e made, made <+: names ∧
          DiskM.runOn d (makeDirs a) = (.error e, d.addDirs r (n :: made))) := by
  by_cases hv : a.isValid
  case neg => exact .inl ⟨_, makeDirs_of_not_valid ht hv, fun h => by cases h⟩
  have hmakes : d.Makes (a.start d.workDir) a.steps (DiskM.runOn d (makeDirs a)) := by
    obtain ⟨s, hs, hnext⟩ := makeDirsUp_above hd ht hv hup
    rw [runOn_makeDirs d ht]
    exact Makes.ensureAfter hd ht hv hs hnext
  rcases hmakes with ⟨x, hx⟩ | hchain
  · refine .inl ⟨x, hx, ?_⟩
    rintro rfl
    exact isDir_of_makeDirs ht hx
  · exact .inr ⟨hv, hchain⟩

/-- **The last directory of a path** without `..` that leads nowhere is made when those above it are
there. -/
theorem makeDir_of_makeDirs (hd : d.WellFormed) (ht : a.text ≠ [])
    (hup : Component.up ∉ a.components) (hf : d.find? a = none)
    (h : DiskM.runOn d (makeDirs a) = (.ok (), d')) :
    ∃ d₁ : Disk, d₁.WellFormed ∧ d₁.makeDir a = .ok d' := by
  by_cases hv : a.isValid
  case neg =>
    rw [makeDirs_of_not_valid ht hv] at h
    cases h
  rw [runOn_makeDirs d ht, ensureAfter] at h
  split at h
  · next he =>
    cases h
    rcases ensureDir_ok he with hm | ⟨-, hi⟩
    · exact ⟨d, hd, hm⟩
    · obtain ⟨q, hq, hdir⟩ := isDir_iff.1 hi
      rw [find?_eq_some_iff.2 ⟨q, hq, hdir⟩] at hf
      cases hf
  · next he =>
    obtain ⟨s, hs, hnext⟩ := makeDirsUp_above hd ht hv hup
    rcases hs with ⟨x, hx⟩ | ⟨r, n, names, hmiss, hrun | ⟨e, made, -, hrun⟩⟩
    · rw [hx] at h
      cases x with
      | error e => cases h
      | ok u =>
        simp only [he] at h
        cases h
    · rw [hrun] at h
      simp only at h
      split at h
      case h_2 => cases h
      next he' =>
      cases h
      obtain ⟨x, hx⟩ := hnext (by
        obtain ⟨front, hs, -⟩ := hmiss.leads_front
        simp [hs])
      have hfull : d.Missing (a.start d.workDir) a.steps r n (names ++ [x]) :=
        (hmiss.concat x).congr (by rw [hx, moving_append]; rfl)
      refine ⟨_, hd.addDirs hmiss.dir ?_, hmiss.makeDir_of_ensureDir hd hx he'⟩
      intro y hy
      exact hfull.isName hv y (List.mem_append_left [x] hy)
    · rw [hrun] at h
      cases h
  · cases h

end Declutter.Disk
