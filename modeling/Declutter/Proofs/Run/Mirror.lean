import Mathlib
import Declutter.Proofs.Ordered.Members
import Declutter.Proofs.Output.Mirror
import Declutter.Proofs.Run.Frame

/-!
# What a run leaves in its output directory

`run_mirror`: after a run, the output directory holds the scrubbed sources at their places, the
report, the directories above these, and nothing else. The sources have the texts that their bytes
on the disk spell (`loads_loadAll`). The directory is empty when it is made anew
(`mirror_recreate`), and after that every file is written once (`Mirror.scrubUnits`), whether or not
the failure of one source ends the others (`scrubInTurn_of_scrubApart`).
-/

namespace Declutter

open Disk

variable {c : Config} {d d' d₀ : Disk} {r : Place} {tree : OutputTree} {units : List SourceUnit}
  {ws : List (Path × List UInt8)}

/-- The file that a run writes for a source. -/
def Config.copyOf (c : Config) (u : SourceUnit) : Path × List UInt8 :=
  (u.relative, (c.scrub u.text).text.utf8)

/-! ## Sources -/

theorem runOn_scrubUnit_ok {u : SourceUnit} {ms : List AnnotatedMethod}
    (h : DiskM.runOn d (c.scrubUnit tree u) = (.ok ms, d')) :
    DiskM.runOn d (writeFile (tree.root.join u.relative) (c.scrub u.text).text.utf8) =
      (.ok (), d') := by
  obtain ⟨_, d₁, hwrite, h⟩ := DiskM.runOn_bind_ok.1 h
  obtain ⟨⟨⟩, d₂, hwrite, h'⟩ := DiskM.runOn_bind_ok.1 hwrite
  cases h
  cases h'
  exact DiskM.runOn_rename_ok.1 hwrite

theorem scrubInTurn_of_scrubApart {ms : List AnnotatedMethod}
    (h : DiskM.runOn d (c.scrubApart tree units) = (.ok ms, d')) :
    DiskM.runOn d (c.scrubInTurn tree units) = (.ok ms, d') := by
  obtain ⟨results, d₁, hattempt, h⟩ := DiskM.runOn_bind_ok.1 h
  obtain ⟨all, d₂, hall, h⟩ := DiskM.runOn_bind_ok.1 h
  exact DiskM.runOn_bind_ok.2 ⟨all, d₂, DiskM.runOn_mapM_of_attempt hattempt hall, h⟩

section
variable (ht : c.output.text ≠ []) (hup : .up ∉ c.output.components)
include ht hup

theorem mirror_recreate (hd : d.WellFormed)
    (h : DiskM.runOn d (OutputTree.recreate c.output c.input) = (.ok tree, d')) :
    ∃ r, Mirror d' c.output r [] d' := by
  have hc := cleared_cleared hd c.output
  obtain ⟨-, r, hconf, -⟩ := confined_recreate hd ht hup h
  obtain ⟨-, -, q, n, names, hm, rfl⟩ := OutputTree.recreate_ok_chain hd ht hup h
  obtain rfl : r = q ++ n :: names := by
    obtain ⟨m, -, hl⟩ := hm.leads hc.wellFormed
    obtain ⟨k, -, hr⟩ := hconf.leads
    rw [workDir_addDirs, hc.workDir] at hr
    exact hr.eq hl
  refine ⟨_, hconf, fun t hne => ?_, by simp, by simp⟩
  rw [hm.empty hc.wellFormed names hne]
  rfl

/-- **Run.** One source after the other is written. -/
theorem Mirror.scrubUnits (hu : ∀ u ∈ units, ¬ u.relative.isAbsolute ∧ .up ∉ u.relative.components)
    (h : Mirror d₀ c.output r ws d) {mss : List (List AnnotatedMethod)}
    (hrun : DiskM.runOn d (units.mapM (c.scrubUnit ⟨c.output⟩)) = (.ok mss, d')) :
    Mirror d₀ c.output r ((units.map c.copyOf).reverse ++ ws) d' := by
  induction units generalizing d ws mss with
  | nil =>
    cases hrun
    exact h
  | cons u units ih =>
    obtain ⟨ms, mss, d₁, rfl, hunit, hrun⟩ := DiskM.runOn_mapM_cons_ok.1 hrun
    obtain ⟨hrel, hrup⟩ := hu u (List.mem_cons_self ..)
    have hwrite := runOn_scrubUnit_ok hunit
    have hstep := h.write ht hup hrel hrup hwrite
    have hrest := ih (fun v hv => hu v (List.mem_cons_of_mem _ hv)) hstep hrun
    simpa [Config.copyOf] using hrest

end

/-! ## The run -/

/-- A run that does not fail, by its parts. -/
theorem run_ok_parts {format : ReportFormat} {summary : RunSummary}
    (h : DiskM.runOn d (c.run format) = (.ok summary, d')) :
    ∃ tree d₁ files d₂ ms,
      DiskM.runOn d (OutputTree.recreate c.output c.input) = (.ok tree, d₁) ∧
      c.findSources d₁ (some tree.root) c.input = .ok files ∧
      DiskM.runOn d₁ (c.scrubInTurn tree (d₁.loadAll files).1) = (.ok ms, d₂) ∧
      DiskM.runOn d₂ (writeText c.reportPath
        ((SymbolIndex.ofUnits c.lexicon (d₁.loadAll files).1).unused.render format)) =
          (.ok (), d') ∧
      summary = {
        found := files.length, written := (d₁.loadAll files).1.length,
        skipped := (d₁.loadAll files).2, annotated := ms,
        unused := (SymbolIndex.ofUnits c.lexicon (d₁.loadAll files).1).unused,
        outputRoot := tree.root, reportPath := c.reportPath } := by
  rw [runOn_run] at h
  split at h
  case isFalse => cases h
  split at h
  · cases h
  next tree d₁ hrecreate =>
  split at h
  · cases h
  next files hfiles =>
  obtain ⟨ms, d₂, hscrub, h⟩ := DiskM.runOn_bind_ok.1 h
  obtain ⟨⟨⟩, d₃, hreport, h⟩ := DiskM.runOn_bind_ok.1 h
  cases h
  refine ⟨tree, d₁, files, d₂, ms, hrecreate, hfiles, ?_, hreport, rfl⟩
  split at hscrub
  · exact scrubInTurn_of_scrubApart hscrub
  · exact hscrub

/-- What stands at some names below the output directory after a run that has loaded `units`. The
report goes before a source of the same names. -/
def Config.Leaves (c : Config) (units : List SourceUnit) (report : List UInt8) (names : Place) :
    Entry → Prop
  | .file data =>
    if names = c.report.names then data = { bytes := report }
    else ∃ u ∈ units, names = u.relative.names ∧ data = { bytes := (c.scrub u.text).text.utf8 }
  | .dir => ∃ target, (target = c.report.names ∨ ∃ u ∈ units, target = u.relative.names) ∧
    names <+: target ∧ names ≠ target
  | .link _ => False

/-- The output directory is `r`, and it holds what a run that has loaded `units` leaves there. -/
structure Config.Mirrors (c : Config) (units : List SourceUnit) (report : List UInt8) (r : Place)
    (d : Disk) : Prop where
  root : d.resolve? c.output = some r
  dir : d.entry? r = some .dir
  below : ∀ names e, names ≠ [] →
    (d.entry? (r ++ names) = some e ↔ c.Leaves units report names e)
  report : d.read? c.reportPath = some report
  source : ∀ u ∈ units, u.relative.names ≠ c.report.names →
    d.read? (c.output.join u.relative) = some (c.scrub u.text).text.utf8

section
variable {report : List UInt8} {names : Place}
  (hunique : ∀ u ∈ units, ∀ v ∈ units, u.relative.names = v.relative.names → u = v)
include hunique

/-- A source is found by its names among the files of a run, unless the report has these. -/
theorem find?_copyOf (report : List UInt8) {u : SourceUnit} (hu : u ∈ units)
    (hne : u.relative.names ≠ c.report.names) :
    ((c.report, report) :: (units.map c.copyOf).reverse).find? (·.1.names = u.relative.names) =
      some (c.copyOf u) := by
  refine find?_eq_some_of_unique ?_ (by simp [Config.copyOf]) fun w hw hnames => ?_
  · exact List.mem_cons_of_mem _ (List.mem_reverse.2 (List.mem_map_of_mem hu))
  · have hnames : w.1.names = u.relative.names := of_decide_eq_true hnames
    rcases List.mem_cons.1 hw with rfl | hw
    · exact absurd hnames.symm hne
    · obtain ⟨v, hv, rfl⟩ := List.mem_map.1 (List.mem_reverse.1 hw)
      rw [hunique v hv u hu hnames]

theorem Mirror.leaves_iff
    (h : Mirror d₀ c.output r ((c.report, report) :: (units.map c.copyOf).reverse) d)
    (hne : names ≠ []) (e : Entry) :
    d.entry? (r ++ names) = some e ↔ c.Leaves units report names e := by
  cases e with
  | link t =>
    have hlink := h.noLink (r ++ names) t (List.prefix_append ..)
    simp [Config.Leaves, hlink]
  | dir =>
    rw [h.entry?_dir_iff hne, Config.Leaves]
    simp [Config.copyOf]
  | file data =>
    rw [h.entry?_file_iff hne, Config.Leaves]
    split
    · next heq => simp [heq, eq_comm]
    next hneq =>
    constructor
    · rintro ⟨w, hfind, rfl⟩
      have hfound := List.find?_some hfind
      have hnames : w.1.names = names := of_decide_eq_true hfound
      rcases List.mem_cons.1 (List.mem_of_find?_eq_some hfind) with rfl | hw
      · exact absurd hnames.symm hneq
      · obtain ⟨u, hu, rfl⟩ := List.mem_map.1 (List.mem_reverse.1 hw)
        exact ⟨u, hu, hnames.symm, rfl⟩
    · rintro ⟨u, hu, rfl, rfl⟩
      exact ⟨c.copyOf u, find?_copyOf hunique report hu hneq, rfl⟩

theorem Mirror.read?_copyOf
    (h : Mirror d₀ c.output r ((c.report, report) :: (units.map c.copyOf).reverse) d)
    {u : SourceUnit} (hu : u ∈ units) (hne : u.relative.names ≠ c.report.names) :
    d.read? (c.output.join u.relative) = some (c.scrub u.text).text.utf8 := by
  have hfind := find?_copyOf hunique report hu hne
  exact h.read?_join (List.mem_of_find?_eq_some hfind) hfind

end

/-- **A run mirrors its sources.** After a run that does not fail, the output directory holds the
scrubbed text of every source that was found and could be read, the report, the directories above
these, and nothing else. What is scrubbed are the texts of the sources as they are on the disk, and
those that cannot be read are counted. -/
theorem run_mirror (hd : d.WellFormed) (hout : c.output.text ≠ [])
    (hup : .up ∉ c.output.components) (hrel : ¬ c.report.isAbsolute)
    (hrup : .up ∉ c.report.components) {format : ReportFormat} {summary : RunSummary}
    (h : DiskM.runOn d (c.run format) = (.ok summary, d')) :
    ∃ d₁ files i r, DiskM.runOn d (OutputTree.recreate c.output c.input) = (.ok ⟨c.output⟩, d₁) ∧
      c.findSources d₁ (some c.output) c.input = .ok files ∧
      d₁.resolve? c.input = some i ∧
      d₁.Loads i files (d₁.loadAll files).1 summary.skipped ∧
      summary.found = files.length ∧ summary.written = (d₁.loadAll files).1.length ∧
      summary.found = summary.written + summary.skipped ∧
      summary.unused = (SymbolIndex.ofUnits c.lexicon (d₁.loadAll files).1).unused ∧
      c.Mirrors (d₁.loadAll files).1 (summary.unused.render format).utf8 r d' := by
  obtain ⟨tree, d₁, files, d₂, ms, hrecreate, hfiles, hscrub, hreport, rfl⟩ := run_ok_parts h
  obtain ⟨rfl, hv, -⟩ := OutputTree.recreate_ok_chain hd hout hup hrecreate
  obtain ⟨r, hempty⟩ := mirror_recreate hout hup hd hrecreate
  obtain ⟨i, hinput, -⟩ := isDir_iff.1 (isDir_of_findSources hfiles)
  have hloads := loads_loadAll hempty.wellFormed hinput hfiles
  have hunique : ∀ u ∈ (d₁.loadAll files).1, ∀ v ∈ (d₁.loadAll files).1,
      u.relative.names = v.relative.names → u = v :=
    fun u hu v hv => unit_eq_of_names_eq hempty.wellFormed hfiles hu hv
  obtain ⟨mss, d₃, hscrub, hms⟩ := DiskM.runOn_bind_ok.1 hscrub
  cases hms
  have hsources := hempty.scrubUnits hout hup
    (fun u => loadAll_relative hempty.wellFormed hfiles) hscrub
  rw [List.append_nil] at hsources
  have hall := hsources.write hout hup hrel hrup (DiskM.runOn_rename_ok.1 hreport)
  obtain ⟨m, hm, hleads⟩ := hall.leads
  exact ⟨d₁, files, i, r, hrecreate, hfiles, hinput, hloads, rfl, rfl, hloads.length, rfl,
    { root := resolve?_of_leads hout hv hm hleads hall.dir
      dir := hall.dir
      below := fun names e hne => hall.leaves_iff hunique hne e
      report := hall.read?_join (List.mem_cons_self ..) (List.find?_cons_of_pos (by simp))
      source := fun u => hall.read?_copyOf hunique }⟩

/-- Two sources, one of them in a directory of its own, and a file from an earlier run. -/
def earlierDisk : Disk :=
  ((((((withWorkDir [['w']]).put [['w'], ['i']] .dir).put [['w'], ['i'], ['A', '.', 'c', 's']]
    (.file { bytes := [97, 47, 47, 98] })).put [['w'], ['i'], ['s']] .dir).put
      [['w'], ['i'], ['s'], ['B', '.', 'c', 's']] (.file { bytes := [98] })).put
        [['w'], ['o']] .dir).put [['w'], ['o'], ['C', '.', 'c', 's']] (.file { bytes := [99] })

/-- A third source cannot be read. -/
def sealedDisk : Disk :=
  earlierDisk.put [['w'], ['i'], ['s'], ['U', '.', 'c', 's']]
    (.file { bytes := [117], readable := false })

/-- The report has the names of a source. -/
def collidingConfig : Config :=
  { Config.standard with input := "i", output := "o", report := "s/B.cs" }

/-- The report on sources of which no type is unused. -/
def emptyReport : Text :=
  "Likely unused scripts (classes/structs only referenced where defined):\n\n".toList

/-- Of three sources two are read. The copy of one is written, the report takes the place of the
other, and the file from the earlier run is gone. -/
theorem run_mirror_sealedDisk :
    sealedDisk.WellFormed ∧ ∃ d' d₁,
      DiskM.runOn sealedDisk (collidingConfig.run .text) =
        (.ok { found := 3, written := 2, skipped := 1, annotated := [], unused := ⟨[]⟩,
               outputRoot := "o", reportPath := "o/s/B.cs" }, d') ∧
      d'.within [['w'], ['o']] = [([['A', '.', 'c', 's']], .file { bytes := [97] }),
        ([['s']], .dir), ([['s'], ['B', '.', 'c', 's']], .file { bytes := emptyReport.utf8 })] ∧
      DiskM.runOn sealedDisk (OutputTree.recreate "o" "i") = (.ok ⟨"o"⟩, d₁) ∧
      collidingConfig.findSources d₁ (some "o") "i" =
        .ok [⟨"i/A.cs", "A.cs"⟩, ⟨"i/s/B.cs", "s/B.cs"⟩, ⟨"i/s/U.cs", "s/U.cs"⟩] ∧
      d₁.Loads [['w'], ['i']]
        [⟨"i/A.cs", "A.cs"⟩, ⟨"i/s/B.cs", "s/B.cs"⟩, ⟨"i/s/U.cs", "s/U.cs"⟩]
        [⟨⟨"i/A.cs", "A.cs"⟩, "a//b".toList⟩, ⟨⟨"i/s/B.cs", "s/B.cs"⟩, ['b']⟩] 1 ∧
      collidingConfig.Mirrors
        [⟨⟨"i/A.cs", "A.cs"⟩, "a//b".toList⟩, ⟨⟨"i/s/B.cs", "s/B.cs"⟩, ['b']⟩]
        emptyReport.utf8 [['w'], ['o']] d' := by
  have hd : sealedDisk.WellFormed := by decide
  -- each run is evaluated once, and all that is asked of its disk with it
  have hafter : (DiskM.runOn sealedDisk (collidingConfig.run .text)).map id
      (fun d => (d.within [['w'], ['o']], d.resolve? "o")) =
      (.ok { found := 3, written := 2, skipped := 1, annotated := [], unused := ⟨[]⟩,
             outputRoot := "o", reportPath := "o/s/B.cs" },
        [([['A', '.', 'c', 's']], .file { bytes := [97] }), ([['s']], .dir),
          ([['s'], ['B', '.', 'c', 's']], .file { bytes := emptyReport.utf8 })],
        some [['w'], ['o']]) := by cbv
  have hbefore : (DiskM.runOn sealedDisk (OutputTree.recreate "o" "i")).map id
      (fun d => (collidingConfig.findSources d (some "o") "i", d.resolve? "i",
        (d.loadAll [⟨"i/A.cs", "A.cs"⟩, ⟨"i/s/B.cs", "s/B.cs"⟩, ⟨"i/s/U.cs", "s/U.cs"⟩]).1)) =
      (.ok ⟨"o"⟩, .ok [⟨"i/A.cs", "A.cs"⟩, ⟨"i/s/B.cs", "s/B.cs"⟩, ⟨"i/s/U.cs", "s/U.cs"⟩],
        some [['w'], ['i']],
        [⟨⟨"i/A.cs", "A.cs"⟩, "a//b".toList⟩, ⟨⟨"i/s/B.cs", "s/B.cs"⟩, ['b']⟩]) := by cbv
  have hreport : UnusedReport.render ⟨[]⟩ .text = emptyReport := by cbv
  rcases hrun : DiskM.runOn sealedDisk (collidingConfig.run .text) with ⟨_, d'⟩
  rw [hrun] at hafter
  simp only [Prod.map_apply, id_eq, Prod.mk.injEq] at hafter
  obtain ⟨rfl, hwithin, hresolve⟩ := hafter
  obtain ⟨d₁, files, i, r, hrecreate, hfiles, hi, hloads, -, -, -, -, hmirrors⟩ :=
    run_mirror hd (by decide) (by decide) (by decide) (by decide) hrun
  have hrecreate : DiskM.runOn sealedDisk (OutputTree.recreate "o" "i") = (.ok ⟨"o"⟩, d₁) :=
    hrecreate
  rw [hrecreate] at hbefore
  simp only [Prod.map_apply, id_eq, Prod.mk.injEq, true_and] at hbefore
  obtain ⟨hfound, hinput, hunits⟩ := hbefore
  obtain rfl := Except.ok.inj (hfiles.symm.trans hfound)
  obtain rfl := Option.some.inj (hi.symm.trans hinput)
  obtain rfl := Option.some.inj (hmirrors.root.symm.trans hresolve)
  rw [hunits] at hloads hmirrors
  rw [hreport] at hmirrors
  exact ⟨hd, d', d₁, rfl, hwithin, hrecreate, hfiles, hloads, hmirrors⟩

end Declutter
