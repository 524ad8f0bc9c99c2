import Mathlib
import Declutter.Proofs.Output.Recreate
import Declutter.Proofs.Output.Writing
import Declutter.Proofs.Source.Loading
import Declutter.Run

/-!
# What a run leaves alone

`run_frame`: outside its output directory a run changes nothing, whatever comes of it, except that
it may make missing directories above that one. Making the directory anew is one part of this
(`recreate_frame`). It leaves an empty directory behind, to which all that is written later is
confined (`confined_recreate`, `confined_scrubUnits`).
-/

namespace Declutter

open Disk

variable {c : Config} {d d₀ : Disk} {r q : Place}

/-- A run by its parts: the checks, the output directory, the search, and then what is written. -/
theorem runOn_run (c : Config) (format : ReportFormat) (d : Disk) :
    DiskM.runOn d (c.run format) =
      if d.isDir c.input then
        match DiskM.runOn d (OutputTree.recreate c.output c.input) with
        | (.error e, d₁) => (.error e, d₁)
        | (.ok tree, d₁) =>
          match c.findSources d₁ (some tree.root) c.input with
          | .error e => (.error e, d₁)
          | .ok files =>
            let units := (d₁.loadAll files).1
            let unused := (SymbolIndex.ofUnits c.lexicon units).unused
            DiskM.runOn d₁ do
              let annotated ←
                (if c.parallel then c.scrubApart tree units else c.scrubInTurn tree units)
              writeText c.reportPath (unused.render format)
              return { found := files.length, written := units.length,
                       skipped := (d₁.loadAll files).2, annotated, unused,
                       outputRoot := tree.root, reportPath := c.reportPath }
      else (.error (.missingInput c.input), d) := by
  unfold Config.run
  rw [DiskM.runOn_get_bind]
  cases d.isDir c.input with
  | false =>
    simp only [Bool.not_false, if_true, Bool.false_eq_true, if_false]
    rw [DiskM.runOn_bind, DiskM.runOn_throw]
  | true =>
    simp only [Bool.not_true, Bool.false_eq_true, if_false, if_true]
    rw [DiskM.runOn_bind]
    rcases DiskM.runOn d (OutputTree.recreate c.output c.input) with ⟨e | tree, d₁⟩
    · rfl
    dsimp only
    rw [DiskM.runOn_get_bind, DiskM.runOn_bind, DiskM.runOn_ofExcept]
    cases c.findSources d₁ (some tree.root) c.input with
    | error e => rfl
    | ok files =>
      simp only
      rcases d₁.loadAll files with ⟨units, skipped⟩
      cases c.parallel
      · simp only [Bool.false_eq_true, if_false]
      · simp only [if_true]

/-- The new output directory is empty, and it lies where the old one was or at its site. -/
theorem confined_recreate (hd : d.WellFormed) (ht : c.output.text ≠ [])
    (hup : .up ∉ c.output.components) {d₁ : Disk} {tree : OutputTree}
    (h : DiskM.runOn d (OutputTree.recreate c.output c.input) = (.ok tree, d₁)) :
    tree = ⟨c.output⟩ ∧ ∃ r, Confined d₁ c.output r d₁ ∧ ∀ q, d.Outside c.output q → ¬ r <+: q := by
  have hc := cleared_cleared hd c.output
  obtain ⟨rfl, hv, r, n, names, hm, rfl⟩ := OutputTree.recreate_ok_chain hd ht hup h
  have hdir := Missing.entry?_chain (d.cleared c.output) r n (List.prefix_refl (n :: names))
  have honly : ∀ q e, r ++ n :: names <+: q →
      Disk.entry? ((d.cleared c.output).addDirs r (n :: names)) q = some e → e = .dir := by
    rintro q e ⟨rest, rfl⟩ he
    by_cases hrest : rest = []
    · rw [hrest, List.append_nil, hdir] at he
      exact (Option.some.inj he).symm
    · rw [hm.empty hc.wellFormed names hrest] at he
      cases he
  refine ⟨rfl, r ++ n :: names, ⟨hc.wellFormed.addDirs hm.dir (hm.isName hv), ?_, hdir,
    fun q t hq he => ?_, fun q f hq he => ?_, fun _ _ => rfl⟩, fun q hq hpre => ?_⟩
  · rw [workDir_addDirs, hc.workDir]
    exact hm.leads hc.wellFormed
  · cases honly q _ hq he
  · cases honly q _ hq he
  · have hrn : r ++ [n] <+: q := by
      refine .trans ?_ hpre
      rw [List.prefix_append_right_inj, List.cons_prefix_cons]
      exact ⟨rfl, List.nil_prefix⟩
    obtain ⟨-, hsite⟩ := hc.chain hd hm hq hrn
    exact hq.1 (hsite ▸ hpre)

/-! ## What is written after the search -/

section
variable {I : Disk → Prop} {root : Path} {units : List SourceUnit}

/-- What writing the files of sources keeps, scrubbing them keeps. -/
theorem preserves_scrubInTurn
    (h : ∀ u ∈ units, DiskM.Preserves I (writeText (root.join u.relative) (c.scrub u.text).text)) :
    DiskM.Preserves I (c.scrubInTurn ⟨root⟩ units) :=
  (DiskM.Preserves.mapM fun u hu =>
    ((h u hu).bind fun _ => .pure _).bind fun _ => .pure _).bind fun _ => .pure _

theorem preserves_scrubApart
    (h : ∀ u ∈ units, DiskM.Preserves I (writeText (root.join u.relative) (c.scrub u.text).text)) :
    DiskM.Preserves I (c.scrubApart ⟨root⟩ units) :=
  (DiskM.Preserves.mapM fun u hu =>
    DiskM.Preserves.attempt (((h u hu).bind fun _ => .pure _).bind fun _ => .pure _)).bind fun _ =>
      (DiskM.Preserves.mapM fun _ _ => .ofExcept _).bind fun _ => .pure _

end

section
variable (ht : c.output.text ≠ []) (hup : .up ∉ c.output.components)
include ht hup

theorem confined_writeText {rel : Path} (hrel : ¬ rel.isAbsolute) (hrup : .up ∉ rel.components)
    (s : Text) : DiskM.Preserves (Confined d₀ c.output r) (writeText (c.output.join rel) s) :=
  (confined_writeFile ht hup hrel hrup _).rename _

/-- Scrubbing sources into the output directory, in either way, stays within it. -/
theorem confined_scrubUnits {units : List SourceUnit}
    (hu : ∀ u ∈ units, ¬ u.relative.isAbsolute ∧ .up ∉ u.relative.components) :
    DiskM.Preserves (Confined d₀ c.output r)
      (if c.parallel then c.scrubApart ⟨c.output⟩ units else c.scrubInTurn ⟨c.output⟩ units) := by
  have hwrite : ∀ u ∈ units, DiskM.Preserves (Confined d₀ c.output r)
      (writeText (c.output.join u.relative) (c.scrub u.text).text) :=
    fun u hm => confined_writeText ht hup (hu u hm).1 (hu u hm).2 _
  split
  · exact preserves_scrubApart hwrite
  · exact preserves_scrubInTurn hwrite

end

/-- **The frame of a run.** Outside the output directory every entry stays as it is, whatever comes
of the run, and none comes into being but missing directories above the output directory. -/
theorem run_frame (hd : d.WellFormed) (hout : c.output.text ≠ [])
    (hup : .up ∉ c.output.components) (hrel : ¬ c.report.isAbsolute)
    (hrup : .up ∉ c.report.components) (format : ReportFormat) (hq : d.Outside c.output q) :
    Disk.entry? (DiskM.runOn d (c.run format)).2 q = d.entry? q ∨
      d.entry? q = none ∧ Disk.entry? (DiskM.runOn d (c.run format)).2 q = some .dir ∧
        q <+: d.site c.output := by
  have hframe := OutputTree.recreate_frame hd hout hup c.input hq
  rw [runOn_run]
  split
  case isFalse => exact .inl rfl
  rcases h : DiskM.runOn d (OutputTree.recreate c.output c.input) with ⟨x | tree, d₁⟩
  · rw [h] at hframe; exact hframe
  rw [h] at hframe
  obtain ⟨rfl, r, hconf, hr⟩ := confined_recreate hd hout hup h
  simp only
  cases hfiles : c.findSources d₁ (some c.output) c.input with
  | error x => exact hframe
  | ok files =>
    -- What is written after the search is written within the new directory.
    have hunits : ∀ u ∈ (d₁.loadAll files).1,
        ¬ u.relative.isAbsolute ∧ .up ∉ u.relative.components :=
      fun u => loadAll_relative hconf.wellFormed hfiles
    simp only
    generalize hx : DiskM.runOn d₁ _ = x
    have hrest : Confined d₁ c.output r x.2 := by
      rw [← hx]
      exact ((confined_scrubUnits hout hup hunits).bind fun _ =>
        (confined_writeText hout hup hrel hrup _).bind fun _ => .pure _) d₁ hconf
    rw [hrest.same q (hr q hq)]
    exact hframe

/-- A working directory with one source in it, and a link from there to an empty directory. -/
def storeDisk : Disk :=
  ((((withWorkDir [['w']]).put [['w'], ['i']] .dir).put [['w'], ['i'], ['A', '.', 'c', 's']]
    (.file { bytes := [65] })).put [['w'], ['l']] (.link "/s/")).put [['s']] .dir

/-- The source survives a run whose output directory is to be made in a missing directory behind the
link. -/
theorem run_frame_storeDisk :
    storeDisk.WellFormed ∧ storeDisk.Outside "l/made/out" [['w'], ['i'], ['A', '.', 'c', 's']] ∧
      Disk.entry? (DiskM.runOn storeDisk
        (Config.run { Config.standard with input := "i", output := "l/made/out" } .text)).2
          [['w'], ['i'], ['A', '.', 'c', 's']] = some (.file { bytes := [65] }) := by
  have hd : storeDisk.WellFormed := by decide
  have hsite : storeDisk.site "l/made/out" = [['s'], ['m', 'a', 'd', 'e'], ['o', 'u', 't']] := by
    cbv
  have hgone : storeDisk.resolve? "l/made/out" = none := by cbv
  have hq : storeDisk.Outside "l/made/out" [['w'], ['i'], ['A', '.', 'c', 's']] := by
    refine ⟨?_, fun r hr => ?_⟩
    · rw [hsite]; decide
    · rw [hgone] at hr; cases hr
  have he : storeDisk.entry? [['w'], ['i'], ['A', '.', 'c', 's']] =
      some (.file { bytes := [65] }) := by decide
  refine ⟨hd, hq, ?_⟩
  rcases run_frame (c := { Config.standard with input := "i", output := "l/made/out" }) hd
    (by decide) (by decide) (by decide) (by decide) .text hq with h | ⟨h, -⟩
  · rw [h, he]
  · rw [he] at h; cases h

end Declutter
