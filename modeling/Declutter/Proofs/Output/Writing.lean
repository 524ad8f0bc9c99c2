import Declutter.Output
import Declutter.Proofs.Disk.Equality
import Declutter.Proofs.Disk.FileTarget

/-!
# Writing into an output directory

`Confined d₀ root r d`: the path `root` leads to the directory `r`, below which there is no link and
no file that cannot be read, and outside of `r` the disk `d` is `d₀`. Writing to a path within
`root` that has no `..` keeps this (`confined_writeFile`): without links and `..`, no step leads out
of `r` (`Confined.prefix_of_leads`), and names lead straight down (`Confined.eq_of_leads`).
-/

namespace Declutter

open Disk

/-- The path `root` leads to the directory `r`, below which there is no link and no file that cannot
be read, and outside of `r` the disk is `d₀`. -/
structure Confined (d₀ : Disk) (root : Path) (r : Place) (d : Disk) : Prop where
  wellFormed : d.WellFormed
  leads : ∃ m ≤ linkLimit, d.Leads (root.start d.workDir) root.steps m r
  dir : d.entry? r = some .dir
  noLink : ∀ q t, r <+: q → d.entry? q ≠ some (.link t)
  readable : ∀ q f, r <+: q → d.entry? q = some (.file f) → f.readable
  same : ∀ q, ¬ r <+: q → d.entry? q = d₀.entry? q

variable {d₀ d d' : Disk} {root rel : Path} {r p q : Place} {n : Text}

namespace Confined

/-- Steps without `..` do not lead out. -/
theorem prefix_of_leads (h : Confined d₀ root r d) {s : List Step} (hs : .up ∉ s) {m : Nat}
    (hl : d.Leads p s m q) (hp : r <+: p) : r <+: q := by
  induction hl with
  | done p => exact hp
  | here _ _ ih => exact ih (fun hc => hs (List.mem_cons_of_mem _ hc)) hp
  | up => exact absurd (List.mem_cons_self ..) hs
  | down _ _ _ _ ih =>
    exact ih (fun hc => hs (List.mem_cons_of_mem _ hc)) (hp.trans (List.prefix_append ..))
  | link _ ht _ _ => exact absurd ht (h.noLink _ _ (hp.trans (List.prefix_append ..)))

/-- New directories below `r` keep the rest confined. -/
theorem addDirs (h : Confined d₀ root r d) {s : List Step} {names made : List Text}
    (hm : d.Missing p s q n names) (hn : ∀ x ∈ n :: names, IsName x) (hpre : made <+: names)
    (hq : r <+: q) : Confined d₀ root r (d.addDirs q (n :: made)) := by
  have hk := hm.keeps h.wellFormed made
  refine ⟨h.wellFormed.addDirs hm.dir fun x hx => hn x ?_, ?_, hk.dir _ h.dir, fun x t hx => ?_,
    fun x f hx hf => ?_, fun x hx => ?_⟩
  · rcases List.mem_cons.1 hx with rfl | hx
    · exact List.mem_cons_self ..
    · exact List.mem_cons_of_mem _ (hpre.subset hx)
  · obtain ⟨m, hm, hl⟩ := h.leads
    exact ⟨m, hm, workDir_addDirs d q _ ▸ hl.mono hk⟩
  · rw [entry?_addDirs]
    split
    · simp
    · exact h.noLink x t hx
  · rw [entry?_addDirs] at hf
    split at hf
    · cases hf
    · exact h.readable x f hx hf
  · rw [entry?_addDirs, if_neg fun hc => hx (hq.trans hc.1)]
    exact h.same x hx

theorem noLink_put (h : Confined d₀ root r d) (hq : q ≠ []) (f : FileData) :
    ∀ x t, r <+: x → Disk.entry? (d.put q (.file f)) x ≠ some (.link t) := by
  intro x t hx
  rw [entry?_put _ hq]
  split
  · simp
  · exact h.noLink x t hx

/-- A file that is written below `r`, where no directory is, keeps the rest confined. -/
theorem putFile (h : Confined d₀ root r d) (hp : d.entry? p = some .dir) (hn : IsName n)
    (hfree : d.Free (p ++ [n])) (hr : r <+: p) (bytes : List UInt8) :
    Confined d₀ root r (d.put (p ++ [n]) (.file { bytes })) := by
  have hk : d.Keeps (d.put (p ++ [n]) (.file { bytes })) := .put_file hfree _
  have hpn : r <+: p ++ [n] := hr.trans (List.prefix_append ..)
  refine ⟨h.wellFormed.put hp hn fun hc => absurd hc hfree.not_dir, ?_, hk.dir _ h.dir,
    h.noLink_put hfree.ne_nil _, fun x f hx hf => ?_, fun x hx => ?_⟩
  · obtain ⟨m, hm, hl⟩ := h.leads
    exact ⟨m, hm, hl.mono hk⟩
  · rw [entry?_put _ hfree.ne_nil] at hf
    split at hf
    · cases hf
      rfl
    · exact h.readable x f hx hf
  · rw [entry?_put _ hfree.ne_nil, if_neg (by rintro rfl; exact hx hpn)]
    exact h.same x hx

/-- What is written over a file below `r` can be read. -/
theorem rewritten (h : Confined d₀ root r d) (hq : r <+: q) (bytes : List UInt8) :
    d.rewritten q bytes = { bytes } := by
  unfold Disk.rewritten
  split
  · next f hf => rw [h.readable q f hq hf]
  · rfl

/-- Without links, names lead straight down. -/
theorem eq_of_leads_names (hlink : ∀ x t, r <+: x → d.entry? x ≠ some (.link t))
    {names : List Text} {m : Nat} (hl : d.Leads p (names.map .down) m q) (hp : r <+: p) :
    q = p ++ names := by
  induction names generalizing p m with
  | nil =>
    cases hl
    simp
  | cons n names ih =>
    have hpn : r <+: p ++ [n] := hp.trans (List.prefix_append ..)
    cases hl with
    | down _ _ _ hl =>
      rw [ih hl hpn, List.append_assoc]
      rfl
    | link _ ht _ => exact absurd ht (hlink _ _ hpn)

/-- Names lead straight down from `root`, also if there is more on the disk, but no link. -/
theorem eq_of_leads (h : Confined d₀ root r d) (hk : d.Keeps d')
    (hlink : ∀ x t, r <+: x → d'.entry? x ≠ some (.link t)) {s : List Step} {names : List Text}
    {m : Nat} (hl : d'.Leads (root.start d.workDir) s m q)
    (hs : moving s = moving root.steps ++ names.map .down) : q = r ++ names := by
  have hl := hl.moving
  rw [hs] at hl
  obtain ⟨x, i, j, h1, h2, -⟩ := hl.split
  obtain ⟨k, -, hroot⟩ := h.leads
  obtain rfl := (hroot.mono hk).moving.eq h1
  exact eq_of_leads_names hlink h2 (List.prefix_refl _)

/-- What is missing on the way to a path within `root` is missing below `r`. -/
theorem prefix_of_missing (h : Confined d₀ root r d) {s t : List Step} {names : List Text}
    (hm : d.Missing (root.start d.workDir) s q n names) (ht : .up ∉ t)
    (hs : moving s <+: moving root.steps ++ t) : r <+: q := by
  obtain ⟨m, -, hlead⟩ := h.leads
  obtain ⟨front, hfs, m', -, hf⟩ := hm.leads_front
  have hpre : front ++ [.down n] <+: moving root.steps ++ t := by
    refine .trans ?_ hs
    rw [hfs]
    simp
  have hin : ¬ front ++ [.down n] <+: moving root.steps := by
    rintro ⟨rest, hrest⟩
    have := hlead.moving
    rw [← hrest, List.append_assoc] at this
    obtain ⟨x, i, j, h1, h2, -⟩ := this.split
    obtain rfl := h1.eq hf
    cases h2 with
    | down _ he _ _ => rw [hm.absent] at he; cases he
    | link _ he _ => rw [hm.absent] at he; cases he
  rcases List.prefix_or_prefix_of_prefix hpre (List.prefix_append ..) with hc | hc
  · exact absurd hc hin
  rcases List.prefix_concat_iff.1 hc with hc | ⟨f, rfl⟩
  · exact absurd (hc ▸ List.prefix_refl _) hin
  -- the steps after those of `root` start in `r`
  rw [List.append_assoc, List.prefix_append_right_inj] at hpre
  obtain ⟨x, i, j, h1, h2, -⟩ := hf.split
  obtain rfl := hlead.moving.eq h1
  exact h.prefix_of_leads (fun hc => ht (hpre.subset (by simp [hc]))) h2 (List.prefix_refl _)

end Confined

/-! ## Paths within the output directory -/

/-- What a single new directory keeps, and a file that is written where the disk is free for it,
writing keeps, for any path. -/
theorem preserves_writeFile {I : Disk → Prop}
    (hdir : ∀ d p n, I d → d.entry? (p ++ [n]) = none → I (d.put (p ++ [n]) .dir))
    (hfile : ∀ d p f, I d → d.Free p → I (d.put p (.file f))) (a : Path) (bytes : List UInt8) :
    DiskM.Preserves I (writeFile a bytes) := by
  have hparents : DiskM.Preserves I (makeParents a) := by
    unfold makeParents
    split
    · exact .pure _
    · exact preserves_makeDirs hdir _
  refine hparents.bind fun _ => .change fun d₁ d₂ h hput => ?_
  obtain ⟨place, htarget, rfl⟩ := putFile_eq_ok.1 hput
  obtain ⟨hfree, -, -⟩ := fileTarget_ok htarget (d₁.rewritten place bytes)
  exact hfile d₁ place _ h hfree

theorem Disk.SameBase.writeFile (a : Path) (bytes : List UInt8) :
    DiskM.Preserves d.SameBase (writeFile a bytes) :=
  preserves_writeFile (fun d₁ _ _ h _ => h.trans (.put d₁ (by simp) _))
    (fun d₁ _ _ h hfree => h.trans (.put d₁ hfree.ne_nil _)) a bytes

theorem Disk.Keeps.writeFile (a : Path) (bytes : List UInt8) :
    DiskM.Preserves d.Keeps (writeFile a bytes) :=
  preserves_writeFile (fun _ _ _ h hn => h.trans (.put_of_none (by simp) hn _))
    (fun _ _ _ h hfree => h.trans (.put_file hfree _)) a bytes

theorem up_not_mem_moving (hup : .up ∉ rel.components) : .up ∉ moving rel.steps :=
  fun hc => hup (Path.up_mem_steps_iff.1 (List.mem_of_mem_filter hc))

section
variable (ht : root.text ≠ []) (hroot : .up ∉ root.components)
  (hrel : ¬ rel.isAbsolute) (hup : .up ∉ rel.components)

include ht hrel

theorem moving_steps_join :
    moving (root.join rel).steps = moving root.steps ++ moving rel.steps := by
  rw [Path.steps_join ht hrel, moving_append]

include hroot hup

/-- Directories on the way to a path within `root` are there, or those that are missing are made
below `r`. -/
theorem Confined.makeDirs_cases (h : Confined d₀ root r d) {cs : List Component}
    (hpre : cs <+: (root.join rel).components) (hne : cs ≠ []) :
    (∃ x, DiskM.runOn d (makeDirs (Path.ofComponents cs)) = (x, d)) ∨
    ∃ q n names, d.Missing (root.start d.workDir) (cs.filterMap (·.step?)) q n names ∧
      (∀ x ∈ n :: names, IsName x) ∧ r <+: q ∧
      (DiskM.runOn d (makeDirs (Path.ofComponents cs)) = (.ok (), d.addDirs q (n :: names)) ∨
        ∃ e made, made <+: names ∧ DiskM.runOn d (makeDirs (Path.ofComponents cs)) =
          (.error e, d.addDirs q (n :: made))) := by
  have hcan : Path.Canonical cs := by
    rw [List.prefix_iff_eq_take.1 hpre]
    exact (Path.canonical_components _).take _
  have hcup : .up ∉ (Path.ofComponents cs).components := by
    rw [Path.components_ofComponents hcan]
    intro hc
    have := hpre.subset hc
    rw [Path.components_join ht hrel] at this
    rcases List.mem_append.1 this with hc | hc
    · exact hroot hc
    · exact hup (by rw [Path.components_eq]; exact List.mem_append_right _ hc)
  have hstart : (Path.ofComponents cs).start d.workDir = root.start d.workDir := by
    rw [← Path.start_join ht hrel]
    refine Path.start_ofComponents hcan ?_ _
    obtain ⟨t, ht⟩ := hpre
    rw [← ht, List.head?_append_of_ne_nil _ hne]
  have hsteps : moving (cs.filterMap (·.step?)) <+: moving root.steps ++ moving rel.steps := by
    rw [← moving_steps_join ht hrel, ← Path.moving_components]
    exact (hpre.filterMap _).filter _
  rcases Disk.makeDirs_cases h.wellFormed (Path.text_ofComponents_ne_nil hcan hne) hcup with
    ⟨x, hx, -⟩ | ⟨hv, q, n, names, hm, hx⟩
  · exact .inl ⟨x, hx⟩
  · have hname := hm.isName hv
    rw [hstart, Path.steps_ofComponents hcan] at hm
    exact .inr ⟨q, n, names, hm, hname,
      h.prefix_of_missing hm (up_not_mem_moving hup) hsteps, hx⟩

theorem confined_makeDirs {cs : List Component} (hpre : cs <+: (root.join rel).components) :
    DiskM.Preserves (Confined d₀ root r) (makeDirs (Path.ofComponents cs)) := by
  intro d h
  by_cases hne : cs = []
  · subst hne
    unfold makeDirs
    rw [if_pos (Path.components_ofComponents ⟨by simp, by simp⟩)]
    exact h
  rcases h.makeDirs_cases ht hroot hrel hup hpre hne with ⟨x, hx⟩ | ⟨q, n, names, hm, hn, hq, hx⟩
  · rw [hx]; exact h
  · rcases hx with hx | ⟨e, made, hmade, hx⟩
    · rw [hx]; exact h.addDirs hm hn (List.prefix_refl _) hq
    · rw [hx]; exact h.addDirs hm hn hmade hq

theorem confined_makeParents :
    DiskM.Preserves (Confined d₀ root r) (makeParents (root.join rel)) := by
  unfold makeParents
  split
  · exact .pure _
  · next parent hp =>
    rw [Path.parent?_eq_some hp]
    exact confined_makeDirs ht hroot hrel hup (List.dropLast_prefix _)

omit hroot in
/-- A file at a path within `root` is written at its names below `r`, and the path leads to it. -/
theorem Confined.putFile_ok (h : Confined d₀ root r d) {bytes : List UInt8}
    (hw : d.putFile (root.join rel) bytes = .ok d') :
    rel.names ≠ [] ∧ d.Free (r ++ rel.names) ∧ d.entry? (r ++ rel.names.dropLast) = some .dir ∧
      d' = d.put (r ++ rel.names) (.file { bytes }) ∧
      d'.resolve? (root.join rel) = some (r ++ rel.names) := by
  obtain ⟨q, htarget, rfl⟩ := putFile_eq_ok.1 hw
  obtain ⟨hfree, hparent, hres⟩ := fileTarget_ok htarget (d.rewritten q bytes)
  obtain rfl : q = r ++ rel.names := by
    obtain ⟨m, -, hl⟩ := leads_steps hres
    rw [workDir_put, Path.start_join ht hrel] at hl
    refine h.eq_of_leads (.put_file hfree _) (h.noLink_put hfree.ne_nil _) hl ?_
    rw [moving_steps_join ht hrel, Path.moving_steps_eq_names hup]
  have hne : rel.names ≠ [] := by
    intro hc
    rw [hc, List.append_nil] at hfree
    exact hfree.not_dir h.dir
  rw [h.rewritten (List.prefix_append ..)] at hres ⊢
  rw [List.dropLast_append_of_ne_nil hne] at hparent
  exact ⟨hne, hfree, hparent, rfl, hres⟩

omit hroot in
theorem confined_putFile (h : Confined d₀ root r d) {bytes : List UInt8}
    (hw : d.putFile (root.join rel) bytes = .ok d') : Confined d₀ root r d' := by
  obtain ⟨hne, hfree, hdir, rfl, hres⟩ := h.putFile_ok ht hrel hup hw
  have hplace : r ++ rel.names = r ++ rel.names.dropLast ++ [rel.names.getLast hne] := by
    rw [List.append_assoc, List.dropLast_append_getLast hne]
  have hname : IsName (rel.names.getLast hne) := by
    have hmem : .down (rel.names.getLast hne) ∈ moving rel.steps := by
      rw [Path.moving_steps_eq_names hup]
      exact List.mem_map_of_mem (List.getLast_mem hne)
    obtain ⟨-, hv, -⟩ := resolve?_eq_some_iff.1 hres
    refine Path.isName_of_mem_steps hv ?_
    rw [Path.steps_join ht hrel]
    exact List.mem_append_right _ (List.mem_of_mem_filter hmem)
  rw [hplace] at hfree ⊢
  exact h.putFile hdir hname hfree (List.prefix_append ..) bytes

/-- **Writing within the output directory** changes nothing outside of it. -/
theorem confined_writeFile (bytes : List UInt8) :
    DiskM.Preserves (Confined d₀ root r) (writeFile (root.join rel) bytes) :=
  (confined_makeParents ht hroot hrel hup).bind fun _ =>
    .change fun _ _ h hw => confined_putFile ht hrel hup h hw

end

end Declutter
