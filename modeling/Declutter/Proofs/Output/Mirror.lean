import Declutter.Proofs.Output.Writing

/-!
# What an output directory holds

`Mirror d₀ root r ws d`: the output directory `r` holds the files `ws`, each at the place that its
path leads to from `root`, and the directories above them, and nothing else (`treeEntry`). Where two
files have one place, the later is there. Writing another file keeps this (`Mirror.write`), since it
changes nothing but on the way to that file (`Confined.writeFile_written`).
-/

namespace Declutter

open Disk

variable {d₀ d d' : Disk} {root rel : Path} {r p q : Place} {bytes : List UInt8}

/-! ## One file -/

/-- A file is written at a place: directories may have been made on the way there, and nothing else
has changed. -/
structure Disk.Written (d : Disk) (p : Place) (bytes : List UInt8) (d' : Disk) : Prop where
  keeps : d.Keeps d'
  file : d'.entry? p = some (.file { bytes })
  other : ∀ q, ¬ q <+: p → d'.entry? q = d.entry? q

namespace Confined

section
variable (ht : root.text ≠ []) (hroot : .up ∉ root.components)
  (hrel : ¬ rel.isAbsolute) (hup : .up ∉ rel.components)

include ht hrel hup

theorem putFile_written (h : Confined d₀ root r d)
    (hw : d.putFile (root.join rel) bytes = .ok d') :
    d.Written (r ++ rel.names) bytes d' ∧ d'.resolve? (root.join rel) = some (r ++ rel.names) := by
  obtain ⟨-, hfree, -, rfl, hres⟩ := h.putFile_ok ht hrel hup hw
  refine ⟨⟨.put_file hfree _, entry?_put_self d hfree.ne_nil _, fun q hq => ?_⟩, hres⟩
  rw [entry?_put _ hfree.ne_nil, if_neg]
  rintro rfl
  exact hq (List.prefix_refl _)

include hroot

theorem makeParents_ok (h : Confined d₀ root r d) (hne : rel.names ≠ [])
    (hrun : DiskM.runOn d (makeParents (root.join rel)) = (.ok (), d')) :
    d.Keeps d' ∧ ∀ q, ¬ q <+: r ++ rel.names → d'.entry? q = d.entry? q := by
  have hconf := (confined_makeParents ht hroot hrel hup).of_runOn h hrun
  unfold makeParents at hrun
  split at hrun
  · cases hrun
    exact ⟨.refl d, fun _ _ => rfl⟩
  next parent hparent =>
  have hcomps : (root.join rel).components.dropLast =
      root.components ++ rel.names.dropLast.map .name := by
    rw [Path.components_join ht hrel, Path.inner_eq_names hup,
      List.dropLast_append_of_ne_nil (by simpa using hne), List.map_dropLast]
  rw [Path.parent?_eq_some hparent] at hrun
  rcases h.makeDirs_cases ht hroot hrel hup (List.dropLast_prefix _)
    (by rw [hcomps]; simp [Path.components_ne_nil ht]) with
    ⟨x, hx⟩ | ⟨q, n, names, hm, -, -, hx | ⟨e, made, -, hx⟩⟩
  · rw [hx] at hrun
    cases hrun
    exact ⟨.refl d, fun _ _ => rfl⟩
  · rw [hx] at hrun
    cases hrun
    -- the chain ends where the file will be
    have hend : q ++ n :: names = r ++ rel.names.dropLast := by
      obtain ⟨m, -, hl⟩ := hm.leads h.wellFormed
      refine h.eq_of_leads (hm.keeps h.wellFormed names) hconf.noLink hl ?_
      have hdown : ∀ l : List Text,
          moving ((l.map Component.name).filterMap (·.step?)) = l.map .down := by
        intro l
        induction l with
        | nil => rfl
        | cons n l ih => rw [List.map_cons, List.map_cons, ← ih]; rfl
      rw [hcomps, List.filterMap_append, moving_append, Path.moving_components, hdown]
    refine ⟨hm.keeps h.wellFormed names, fun x hx => ?_⟩
    rw [entry?_addDirs, if_neg]
    rintro ⟨-, -, hpre⟩
    rw [hend] at hpre
    exact hx (hpre.trans ((List.prefix_append_right_inj r).2 (List.dropLast_prefix _)))
  · rw [hx] at hrun
    cases hrun

/-- **A file that is written** within the output directory is where its path leads, and nothing
changes but on the way there. -/
theorem writeFile_written (h : Confined d₀ root r d)
    (hrun : DiskM.runOn d (writeFile (root.join rel) bytes) = (.ok (), d')) :
    rel.names ≠ [] ∧ d.Written (r ++ rel.names) bytes d' ∧
      d'.resolve? (root.join rel) = some (r ++ rel.names) := by
  obtain ⟨⟨⟩, d₁, hparents, hput⟩ := DiskM.runOn_bind_ok.1 hrun
  have hconf := (confined_makeParents ht hroot hrel hup).of_runOn h hparents
  have hput := DiskM.runOn_change_ok.1 hput
  obtain ⟨hw, hres⟩ := hconf.putFile_written ht hrel hup hput
  have hne : rel.names ≠ [] := by
    intro hc
    have hfile := hw.file
    rw [hc, List.append_nil, hw.keeps.dir _ hconf.dir] at hfile
    cases hfile
  obtain ⟨hk, hother⟩ := h.makeParents_ok ht hroot hrel hup hne hparents
  refine ⟨hne, ⟨hk.trans hw.keeps, hw.file, fun q hq => ?_⟩, hres⟩
  rw [hw.other q hq, hother q hq]

end

end Confined

/-! ## All files -/

/-- What stands at some names below a directory after files were written into it, the last of them
first. -/
def treeEntry (ws : List (Path × List UInt8)) (names : Place) : Option Entry :=
  ((ws.find? (·.1.names = names)).map fun w => .file { bytes := w.2 }).or
    (if ws.any (names <+: ·.1.names) then some .dir else none)

/-- The output directory `r` holds the files `ws`, of which the last was written first, the
directories above them, and nothing else. -/
structure Mirror (d₀ : Disk) (root : Path) (r : Place) (ws : List (Path × List UInt8)) (d : Disk) :
    Prop extends Confined d₀ root r d where
  tree : ∀ names, names ≠ [] → d.entry? (r ++ names) = treeEntry ws names
  ne_nil : ∀ w ∈ ws, w.1.names ≠ []
  resolve : ∀ w ∈ ws, d.resolve? (root.join w.1) = some (r ++ w.1.names)

namespace Mirror

variable {ws : List (Path × List UInt8)} {names : Place}

/-- An empty directory is above no other. -/
theorem eq_of_isPrefix (h : Mirror d₀ root r [] d) {i : Place}
    (hi : d.entry? i = some .dir) (hpre : r <+: i) : i = r := by
  obtain ⟨names, rfl⟩ := hpre
  by_contra hne
  have hnames : names ≠ [] := by
    rintro rfl
    exact hne (List.append_nil r)
  rw [h.tree names hnames] at hi
  cases hi

/-- **Step.** One more file is written. -/
theorem write (ht : root.text ≠ []) (hroot : .up ∉ root.components) (hrel : ¬ rel.isAbsolute)
    (hup : .up ∉ rel.components) (h : Mirror d₀ root r ws d)
    (hrun : DiskM.runOn d (writeFile (root.join rel) bytes) = (.ok (), d')) :
    Mirror d₀ root r ((rel, bytes) :: ws) d' := by
  obtain ⟨hne, hw, hres⟩ := h.toConfined.writeFile_written ht hroot hrel hup hrun
  have hconf := (confined_writeFile ht hroot hrel hup bytes).of_runOn h.toConfined hrun
  refine ⟨hconf, fun names hne => ?_, List.forall_mem_cons.2 ⟨hne, h.ne_nil⟩,
    List.forall_mem_cons.2 ⟨hres, fun w hmem => hw.keeps.resolve? (h.resolve w hmem)⟩⟩
  · by_cases heq : rel.names = names
    · rw [← heq, hw.file]
      simp [treeEntry]
    by_cases hpre : names <+: rel.names
    · have hdir : d'.entry? (r ++ names) = some .dir := by
        obtain ⟨t, ht⟩ := hpre
        have hfile := hw.file
        rw [← ht, ← List.append_assoc] at hfile
        refine hconf.wellFormed.dir_of_append ?_ hfile
        rintro rfl
        exact heq (by simpa using ht.symm)
      have hnone : ws.find? (·.1.names = names) = none := by
        cases hf : ws.find? (·.1.names = names) with
        | none => rfl
        | some w =>
          -- a file does not become a directory
          have hold : d.entry? (r ++ names) = some (.file { bytes := w.2 }) := by
            rw [h.tree names hne, treeEntry, hf]
            rfl
          obtain ⟨f, hf⟩ := hw.keeps.file _ _ hold
          rw [hdir] at hf
          cases hf
      rw [hdir]
      simp [treeEntry, heq, hnone, hpre]
    · rw [hw.other _ (by rwa [List.prefix_append_right_inj]), h.tree names hne, treeEntry,
        treeEntry, List.find?_cons_of_neg (by simpa using heq), List.any_cons,
        decide_eq_false hpre, Bool.false_or]

theorem entry?_file_iff (h : Mirror d₀ root r ws d) (hne : names ≠ []) {f : FileData} :
    d.entry? (r ++ names) = some (.file f) ↔
      ∃ w, ws.find? (·.1.names = names) = some w ∧ { bytes := w.2 } = f := by
  rw [h.tree names hne, treeEntry, Option.or_eq_some_iff, or_iff_left, Option.map_eq_some_iff]
  · simp
  · rintro ⟨-, hdir⟩
    split at hdir <;> cases hdir

theorem entry?_of_mem (h : Mirror d₀ root r ws d) {w : Path × List UInt8} (hw : w ∈ ws) :
    ∃ f, d.entry? (r ++ w.1.names) = some (.file f) := by
  obtain ⟨w', hfind⟩ := Option.isSome_iff_exists.1
    (List.find?_isSome (p := (·.1.names = w.1.names)).2 ⟨w, hw, by simp⟩)
  exact ⟨_, (h.entry?_file_iff (h.ne_nil w hw)).2 ⟨w', hfind, rfl⟩⟩

theorem entry?_dir_iff (h : Mirror d₀ root r ws d) (hne : names ≠ []) :
    d.entry? (r ++ names) = some .dir ↔ ∃ w ∈ ws, names <+: w.1.names ∧ names ≠ w.1.names := by
  constructor
  · intro hdir
    have hany : ∃ w ∈ ws, names <+: w.1.names := by
      rw [h.tree names hne, treeEntry, Option.or_eq_some_iff] at hdir
      rcases hdir with hdir | ⟨-, hdir⟩
      · obtain ⟨w, -, hw⟩ := Option.map_eq_some_iff.1 hdir
        cases hw
      · simpa using hdir
    obtain ⟨w, hw, hpre⟩ := hany
    refine ⟨w, hw, hpre, ?_⟩
    rintro rfl
    obtain ⟨f, hf⟩ := h.entry?_of_mem hw
    rw [hdir] at hf
    cases hf
  · rintro ⟨w, hw, ⟨t, ht⟩, hneq⟩
    obtain ⟨f, hf⟩ := h.entry?_of_mem hw
    rw [← ht, ← List.append_assoc] at hf
    refine h.wellFormed.dir_of_append ?_ hf
    rintro rfl
    exact hneq (by simpa using ht)

theorem read?_join (h : Mirror d₀ root r ws d) {w w' : Path × List UInt8} (hw : w ∈ ws)
    (hfind : ws.find? (·.1.names = w.1.names) = some w') :
    d.read? (root.join w.1) = some w'.2 := by
  have hentry := (h.entry?_file_iff (h.ne_nil w hw)).2 ⟨w', hfind, rfl⟩
  rw [read?, find?_eq_some_iff.2 ⟨_, h.resolve w hw, hentry⟩]
  rfl

end Mirror

end Declutter
