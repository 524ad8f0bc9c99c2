import Declutter.Proofs.Disk.AddFile
import Declutter.Proofs.Output.Writing
import Declutter.Proofs.Path.Below

/-!
# Writing below a directory

The path `root` leads to the directory `r` (`Disk.Rooted`). If there is room for a file at some
names below `r`, then writing it to the path of `root` with these names adds it to the disk, and
nothing else happens (`Rooted.writeFile_below`). This holds for any `root`, also one with `..` or
links in it: the directories above the file are missing at most below `r`
(`Rooted.makeDirs_below`).
-/

namespace Declutter.Disk

variable {d : Disk} {root : Path} {r names : Place}

/-- The path `root` leads to the directory `r`. -/
structure Rooted (d : Disk) (root : Path) (r : Place) : Prop where
  wellFormed : d.WellFormed
  resolve : d.resolve? root = some r
  dir : d.entry? r = some .dir

namespace Rooted

theorem addFile (h : d.Rooted root r) (hroom : d.Room r names) (hne : names ≠ [])
    (hn : ∀ n ∈ names, IsName n) (bytes : List UInt8) : (d.addFile r names bytes).Rooted root r :=
  ⟨hroom.wellFormed h.wellFormed h.dir hne hn bytes, (hroom.keeps hne bytes).resolve? h.resolve,
    (hroom.keeps hne bytes).dir r h.dir⟩

theorem addDirs (h : d.Rooted root r) (hn : ∀ n ∈ names, IsName n) (hway : d.Passable r names) :
    (d.addDirs r names).Rooted root r :=
  ⟨h.wellFormed.addDirs h.dir hn, hway.keeps.resolve? h.resolve, hway.keeps.dir r h.dir⟩

theorem text (h : d.Rooted root r) : root.text ≠ [] := (resolve?_eq_some_iff.1 h.resolve).1

theorem isValid (h : d.Rooted root r) : root.isValid := (resolve?_eq_some_iff.1 h.resolve).2.1

theorem leads (h : d.Rooted root r) :
    ∃ m ≤ linkLimit, d.Leads (root.start d.workDir) (root.components.filterMap (·.step?)) m r := by
  obtain ⟨m, hm, hl⟩ := leads_steps h.resolve
  have hl := hl.moving
  rw [← Path.moving_components] at hl
  exact ⟨m, hm, leads_of_moving hl h.dir⟩

section
variable {x : Text}

theorem isDir_below (h : d.Rooted root r) (hn : ∀ n ∈ names, IsName n)
    (hdir : d.entry? (r ++ names) = some .dir) : d.isDir (root.below names) := by
  obtain ⟨m, hm, hl⟩ := h.leads
  refine isDir_iff.2 ⟨r ++ names, resolve?_of_leads (Path.text_below h.text hn)
    (Path.isValid_below h.text h.isValid hn) hm ?_ hdir, hdir⟩
  rw [Path.start_below h.text hn, Path.steps_below h.text hn]
  exact hl.append (leads_down h.wellFormed hdir)

/-- In a directory that is there, one can be made. -/
theorem makeDir_below (h : d.Rooted root r) (hn : ∀ n ∈ names ++ [x], IsName n)
    (hdir : d.entry? (r ++ names) = some .dir) (hnone : d.entry? (r ++ names ++ [x]) = none) :
    d.makeDir (root.below (names ++ [x])) = .ok (d.put (r ++ names ++ [x]) .dir) := by
  obtain ⟨m, hm, hl⟩ := h.leads
  have hsteps := Path.steps_below h.text hn
  rw [List.map_append, ← List.append_assoc] at hsteps
  refine makeDir_ok_iff.2 ⟨r ++ names, x, locate_ok_iff.2 ⟨Path.text_below h.text hn,
    Path.isValid_below h.text h.isValid hn, ⟨m, hm, ?_⟩, hdir, ?_⟩, hnone, rfl⟩
  · rw [Path.start_below h.text hn, hsteps, List.map_singleton, List.dropLast_concat]
    exact hl.append (leads_down h.wellFormed hdir)
  · rw [hsteps, List.map_singleton, List.getLast?_concat]

/-- In a directory that is missing, none can be made. -/
theorem ensureDir_below_missing (h : d.Rooted root r) (hn : ∀ n ∈ names ++ [x], IsName n)
    (hway : d.Passable r names)
    (hnone : d.entry? (r ++ names) = none) :
    d.ensureDir (root.below (names ++ [x])) = .error .notFound := by
  obtain ⟨m, hm, hl⟩ := h.leads
  have hsteps := Path.steps_below h.text hn
  rw [List.map_append, ← List.append_assoc] at hsteps
  have hwalk : d.walk true linkLimit (root.start d.workDir)
      (root.components.filterMap (·.step?) ++ names.map .down) = .error .notFound := by
    rw [hl.walk_append hm (.inr rfl)]
    exact walk_down_missing h.dir hway hnone
  have hmake : d.makeDir (root.below (names ++ [x])) = .error .notFound := by
    unfold makeDir locate
    rw [if_neg (Path.text_below h.text hn), Path.start_below h.text hn, hsteps,
      List.map_singleton, List.dropLast_concat, Path.isValid_below h.text h.isValid hn]
    simp [hwalk, bind, Except.bind]
  have hdir : d.isDir (root.below (names ++ [x])) = false := by
    refine Bool.eq_false_iff.2 fun hdir => ?_
    obtain ⟨q, hq, -⟩ := isDir_iff.1 hdir
    obtain ⟨k, hk, hlead⟩ := leads_steps hq
    rw [Path.start_below h.text hn, hsteps] at hlead
    obtain ⟨y, i, j, hfront, -, rfl⟩ := hlead.split
    rw [hfront.walk (by omega)] at hwalk
    cases hwalk
  unfold ensureDir
  rw [hmake, hdir]
  rfl

/-- **Directories below** are made as far as they are missing. -/
theorem makeDirsUp_below (h : d.Rooted root r) (hn : ∀ n ∈ names, IsName n)
    (hway : d.Passable r names) :
    DiskM.runOn d (makeDirsUp (root.components ++ names.map Component.name).reverse) =
      (.ok (), d.addDirs r names) := by
  induction names using List.reverseRecOn with
  | nil =>
    have hself : d.ensureDir (root.below []) = .ok d := by
      refine ensureDir_of_isDir (h.isDir_below (by simp) ?_)
      rw [List.append_nil, h.dir]
    obtain ⟨c, above, hcs⟩ := List.exists_cons_of_ne_nil
      (l := (root.components ++ ([] : Place).map Component.name).reverse)
      (by simpa using Path.components_ne_nil h.text)
    rw [hcs, runOn_makeDirsUp, ← hcs, List.reverse_reverse, ← Path.below, ensureAfter, hself]
    rfl
  | append_singleton names x ih =>
    have hnames : ∀ n ∈ names, IsName n := fun n hmem => hn n (List.mem_append_left _ hmem)
    have hway' : d.Passable r names := fun k hk => hway k (hk.trans (List.prefix_append ..))
    have hcs : (root.components ++ (names ++ [x]).map Component.name).reverse =
        .name x :: (root.components ++ names.map Component.name).reverse := by
      simp
    rw [hcs, runOn_makeDirsUp, ← hcs, List.reverse_reverse, ← Path.below, ensureAfter]
    rcases hway (names ++ [x]) (List.prefix_refl _) with hnone | hdir
    · -- The directory is made once those above it are there.
      have hnext : (d.addDirs r names).ensureDir (root.below (names ++ [x])) =
          .ok (d.addDirs r (names ++ [x])) := by
        refine ensureDir_of_makeDir ?_
        rw [addDirs_concat]
        refine (h.addDirs hnames hway').makeDir_below hn (entry?_addDirs_end h.dir names) ?_
        rw [entry?_addDirs, if_neg, List.append_assoc, hnone]
        rintro ⟨-, -, hpre⟩
        have hlen := hpre.length_le
        simp only [List.length_append, List.length_singleton] at hlen
        omega
      rcases hway' names (List.prefix_refl _) with hgone | hparent
      · simp only [h.ensureDir_below_missing hn hway' hgone, ih hnames hway', hnext]
      · rw [addDirs_eq_self h.wellFormed hparent] at hnext
        rw [hnext]
    · rw [ensureDir_of_isDir (h.isDir_below hn hdir), addDirs_eq_self h.wellFormed hdir]

theorem makeDirs_below (h : d.Rooted root r) (hn : ∀ n ∈ names, IsName n)
    (hway : d.Passable r names) :
    DiskM.runOn d (makeDirs (root.below names)) = (.ok (), d.addDirs r names) := by
  obtain ⟨c, above, hcs⟩ := List.exists_cons_of_ne_nil
    (l := (root.components ++ names.map Component.name).reverse)
    (by simp [Path.components_ne_nil h.text])
  have hmade := h.makeDirsUp_below hn hway
  rw [hcs, runOn_makeDirsUp, ← hcs, List.reverse_reverse, ← Path.below] at hmade
  rw [runOn_makeDirs d (Path.text_below h.text hn), Path.components_below h.text hn, hcs]
  exact hmade

theorem putFile_below (h : d.Rooted root r) (hne : names ≠ []) (hn : ∀ n ∈ names, IsName n)
    (hdir : d.entry? (r ++ names.dropLast) = some .dir) (hnone : d.entry? (r ++ names) = none)
    (bytes : List UInt8) :
    d.putFile (root.join ⟨[ '/' ].intercalate names⟩) bytes =
      .ok (d.put (r ++ names) (.file { bytes })) := by
  have hfree : d.Free (r ++ names) := .inl hnone
  have hwell : (d.put (r ++ names) (.file { bytes })).WellFormed := by
    rw [← List.dropLast_append_getLast hne, ← List.append_assoc] at hfree ⊢
    exact h.wellFormed.put hdir (hn _ (List.getLast_mem hne)) fun hc => absurd hc hfree.not_dir
  have hroot := (Keeps.put_file hfree { bytes }).resolve? h.resolve
  have hres := resolve?_join_names hwell hroot hne (entry?_put_self d hfree.ne_nil _) (by simp)
  refine putFile_eq_ok.2 ⟨_, (fileTarget_ok_iff h.wellFormed { bytes }).2 ⟨hfree, hres⟩, ?_⟩
  rw [rewritten, hnone]

/-- **Writing a file below a directory** adds it to the disk, if there is room for it. -/
theorem writeFile_below (h : d.Rooted root r) (hne : names ≠ []) (hn : ∀ n ∈ names, IsName n)
    (hroom : d.Room r names) (bytes : List UInt8) :
    DiskM.runOn d (writeFile (root.join ⟨[ '/' ].intercalate names⟩) bytes) =
      (.ok (), d.addFile r names bytes) := by
  have hfront : ∀ n ∈ names.dropLast, IsName n := fun n hmem => hn n (List.dropLast_subset _ hmem)
  unfold writeFile makeParents
  rw [Path.parent?_join_names h.text hne hn, DiskM.runOn_bind]
  simp only [h.makeDirs_below hfront hroom.way, DiskM.runOn_change,
    (h.addDirs hfront hroom.way).putFile_below hne hn (entry?_addDirs_end h.dir _)
      (hroom.absent_addDirs hne) bytes]
  rfl

end

end Rooted

end Declutter.Disk
