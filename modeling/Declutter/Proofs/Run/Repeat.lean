import Mathlib
import Declutter.Proofs.Output.Again
import Declutter.Proofs.Output.Overlap
import Declutter.Proofs.Run.Mirror

/-!
# Runs that are repeated

`run_repeats`: a second run gives what the first one gave, and leaves the disk as it is. All that a
run reads of the disk is the new output directory and what is outside of it (`run_congr`), and that
is the same again once the files of the first run are cleared (`OutputTree.recreate_again`).

The exception is an input path that led through the old output directory, and leads to the new one
when that is made. The first run finds no sources there; the second one is refused
(`run_meets_itself`).
-/

namespace Declutter

open Disk

variable {c : Config} {d d' : Disk} {format : ReportFormat} {summary : RunSummary}

theorem isDir_of_run (h : DiskM.runOn d (c.run format) = (.ok summary, d')) :
    d.isDir c.input := by
  by_contra hdir
  rw [runOn_run, if_neg hdir] at h
  cases h

/-- A run depends on the disk only through the output directory that it makes. -/
theorem run_congr (hd : d.isDir c.input) (hd' : d'.isDir c.input)
    (h : DiskM.runOn d' (OutputTree.recreate c.output c.input) =
      DiskM.runOn d (OutputTree.recreate c.output c.input)) :
    DiskM.runOn d' (c.run format) = DiskM.runOn d (c.run format) := by
  rw [runOn_run, runOn_run, if_pos hd, if_pos hd', h]

/-- What writing keeps, a run keeps from the new output directory on. -/
theorem run_ok_writes (h : DiskM.runOn d (c.run format) = (.ok summary, d')) :
    ∃ d₁ files, DiskM.runOn d (OutputTree.recreate c.output c.input) = (.ok ⟨c.output⟩, d₁) ∧
      c.findSources d₁ (some c.output) c.input = .ok files ∧
      ∀ I : Disk → Prop, I d₁ →
        (∀ u ∈ (d₁.loadAll files).1,
          DiskM.Preserves I (writeText (c.output.join u.relative) (c.scrub u.text).text)) →
        (∀ s, DiskM.Preserves I (writeText c.reportPath s)) → I d' := by
  obtain ⟨tree, d₁, files, d₂, ms, hrecreate, hfiles, hscrub, hwrite, -⟩ := run_ok_parts h
  obtain rfl := OutputTree.tree_of_recreate hrecreate
  refine ⟨d₁, files, hrecreate, hfiles, fun I hI hunits hreport => ?_⟩
  exact (hreport _).of_runOn ((preserves_scrubInTurn hunits).of_runOn hI hscrub) hwrite

/-- A path that leads to the input directory without what the output path led to does not come to
lead to the new output directory. -/
theorem resolve?_ne_of_cleared {d₁ : Disk} {i : Place} (hd : d.WellFormed)
    (hout : c.output.text ≠ []) (hup : .up ∉ c.output.components)
    (h : DiskM.runOn d (OutputTree.recreate c.output c.input) = (.ok ⟨c.output⟩, d₁))
    (hcleared : (d.cleared c.output).isDir c.input) (hi : d₁.resolve? c.input = some i) :
    d₁.resolve? c.output ≠ some i := by
  intro hroot
  obtain ⟨i₀, hi₀, hdir⟩ := isDir_iff.1 hcleared
  have hc := cleared_cleared hd c.output
  obtain rfl : i = i₀ :=
    Option.some.inj (hi.symm.trans ((OutputTree.keeps_of_recreate hd h).resolve? hi₀))
  have hapart : ∀ x, d.resolve? c.output = some x → ¬ x <+: i := by
    intro x hx hpre
    have hover := (overlaps_iff hx (hc.keeps.resolve? hi₀)).2 hpre
    rw [(OutputTree.recreate_ok hd h).1] at hover
    cases hover
  exact OutputTree.recreate_not_above hd hout hup (hc.keeps.dir _ hdir) hapart h hroot
    (List.prefix_refl i)

/-- **Runs are repeatable.** A run on the disk that a run left gives the same summary and leaves the
same disk, unless the input path has come to lead to the output directory; then it is refused. The
input path does not come to lead there, if it leads to a directory without what the output path led
to before the first run. -/
theorem run_repeats (hd : d.WellFormed) (hout : c.output.text ≠ [])
    (hup : .up ∉ c.output.components) (hrel : ¬ c.report.isAbsolute)
    (hrup : .up ∉ c.report.components) (h : DiskM.runOn d (c.run format) = (.ok summary, d')) :
    DiskM.runOn d' (c.run format) =
      (if d'.resolve? c.input = d'.resolve? c.output then
        .error (.overlappingRoots c.input c.output) else .ok summary, d') ∧
    ((d.cleared c.output).isDir c.input → d'.resolve? c.input ≠ d'.resolve? c.output) := by
  obtain ⟨d₁, files, hrecreate, hfiles, hwrites⟩ := run_ok_writes h
  obtain ⟨-, hv, -⟩ := OutputTree.recreate_ok_chain hd hout hup hrecreate
  obtain ⟨r, hempty⟩ := mirror_recreate hout hup hd hrecreate
  obtain ⟨d₀, hd₀, hmake⟩ := OutputTree.makeDir_of_recreate hd hout hup hrecreate
  obtain ⟨m, hm, hleads⟩ := hempty.leads
  have hroot : d₁.resolve? c.output = some r := resolve?_of_leads hout hv hm hleads hempty.dir
  obtain ⟨i, hi, hidir⟩ := isDir_iff.1 (isDir_of_findSources hfiles)
  -- What is written later lies in the new directory, and takes nothing away.
  have hconf : Confined d₁ c.output r d' := by
    refine hwrites _ hempty.toConfined (fun u hu => ?_)
      (fun s => confined_writeText hout hup hrel hrup s)
    obtain ⟨hurel, huup⟩ := loadAll_relative hempty.wellFormed hfiles hu
    exact confined_writeText hout hup hurel huup _
  have hbase : d₁.SameBase d' := hwrites _ (.refl d₁)
    (fun u _ => (SameBase.writeFile _ _).rename _) (fun s => (SameBase.writeFile _ _).rename _)
  have hkeeps : d₁.Keeps d' := hwrites _ (.refl d₁)
    (fun u _ => (Keeps.writeFile _ _).rename _) (fun s => (Keeps.writeFile _ _).rename _)
  have hroot' : d'.resolve? c.output = some r := hkeeps.resolve? hroot
  have hi' : d'.resolve? c.input = some i := hkeeps.resolve? hi
  have hinput' : d'.isDir c.input := isDir_iff.2 ⟨i, hi', hkeeps.dir _ hidir⟩
  have hmeet : d'.overlaps c.output c.input ↔ i = r := by
    rw [overlaps_iff hroot' hi']
    exact ⟨hempty.eq_of_isPrefix hidir, fun heq => heq ▸ List.prefix_refl _⟩
  simp only [hroot', hi', Option.some_inj, ne_eq]
  refine ⟨?_, fun hcleared heq => ?_⟩
  · by_cases heq : i = r
    · rw [runOn_run, if_pos hinput', OutputTree.runOn_recreate, if_pos (hmeet.2 heq), if_pos heq]
    · have hapart : d'.overlaps c.output c.input = false :=
        Bool.eq_false_iff.2 fun hover => heq (hmeet.1 hover)
      have hagain := OutputTree.recreate_again hd₀ hmake hroot hbase hconf.dir hconf.same hapart
      rw [run_congr (isDir_of_run h) hinput' (hagain.trans hrecreate.symm), h, if_neg heq]
  · exact resolve?_ne_of_cleared hd hout hup hrecreate hcleared hi (heq ▸ hroot)

/-- The output directory lies in the input directory, and the report in a directory of its own. -/
def innerConfig : Config :=
  { Config.standard with input := ".", output := "o/x", report := "r/R.txt" }

theorem run_repeats_innerConfig :
    earlierDisk.WellFormed ∧ ∃ summary d',
      DiskM.runOn earlierDisk (innerConfig.run .text) = (.ok summary, d') ∧
      summary.found = 3 ∧
      DiskM.runOn d' (innerConfig.run .text) = (.ok summary, d') := by
  have hd : earlierDisk.WellFormed := by decide
  have hcleared : (earlierDisk.cleared innerConfig.output).isDir innerConfig.input := by cbv
  have hfound : (DiskM.runOn earlierDisk (innerConfig.run .text)).1.toOption.map (·.found) =
      some 3 := by cbv
  rcases hrun : DiskM.runOn earlierDisk (innerConfig.run .text) with ⟨e | summary, d'⟩
  · rw [hrun] at hfound
    cases hfound
  · obtain ⟨hagain, hmeet⟩ :=
      run_repeats hd (by decide) (by decide) (by decide) (by decide) hrun
    rw [hrun] at hfound
    rw [if_neg (hmeet hcleared)] at hagain
    exact ⟨hd, summary, d', rfl, Option.some.inj hfound, hagain⟩

/-- The output path is a link, and a directory of its name lies beside the one that it leads to. -/
def linkedDisk : Disk :=
  ((((withWorkDir [['w']]).put [['w'], ['r']] .dir).put [['w'], ['r'], ['d']] .dir).put
    [['w'], ['r'], ['o']] .dir).put [['w'], ['o']] (.link "r/d")

def linkedConfig : Config := { Config.standard with input := "o/../o", output := "o" }

/-- **A path through the link that the output directory replaces.** The input path leads to a
directory apart from the output directory before the first run, and to the output directory itself
before the second. -/
theorem run_meets_itself :
    linkedDisk.WellFormed ∧
      (DiskM.runOn linkedDisk (linkedConfig.run .text)).1.toOption.isSome ∧
      (DiskM.runOn (DiskM.runOn linkedDisk (linkedConfig.run .text)).2 (linkedConfig.run .text)).1 =
        .error (.overlappingRoots "o/../o" "o") := by
  refine ⟨by decide, ?_, ?_⟩ <;> cbv

end Declutter
