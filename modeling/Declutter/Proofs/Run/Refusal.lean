import Mathlib
import Declutter.Proofs.Output.Overlap
import Declutter.Proofs.Run.Frame

/-!
# Runs that are refused

A run is refused if its input is no directory, or if its output directory is the input directory or
above it (`Failure.isRefusal`). `run_refused`: this leaves the disk as it was, with one exception.
The input is looked for a second time, after the output directory was made anew. If its path led
through what was in the old one, it is lost by then (`Config.LosesInput`), and the run is refused
when the old output is gone. `run_lost_input` is a case of this.

Once the sources are found, a run fails only because a file cannot be written (`scrubUnits_error`,
`writeText_error`).
-/

namespace Declutter

open Disk

variable {c : Config} {d d' : Disk} {e : Failure}

/-! ## Failures while writing -/

theorem writeText_error {p : Path} {s : Text}
    (h : (DiskM.runOn d (writeText p s)).1 = .error e) : e = .write p := by
  rw [writeText, DiskM.runOn_rename] at h
  split at h
  · cases h
  · cases h
    rfl

theorem scrubUnit_error {tree : OutputTree} {u : SourceUnit}
    (h : (DiskM.runOn d (c.scrubUnit tree u)).1 = .error e) :
    e = .write (tree.root.join u.relative) := by
  rcases DiskM.runOn_bind_error.1 (Prod.ext h rfl) with h | ⟨_, _, -, h⟩
  · rcases DiskM.runOn_bind_error.1 h with h | ⟨_, _, -, h⟩
    · exact writeText_error (by rw [h])
    · cases h
  · cases h

/-- Scrubbing sources, in either way, fails only where one of them cannot be written. -/
theorem scrubUnits_error {tree : OutputTree} {units : List SourceUnit}
    (h : DiskM.runOn d (if c.parallel then c.scrubApart tree units else c.scrubInTurn tree units) =
      (.error e, d')) : ∃ u ∈ units, e = .write (tree.root.join u.relative) := by
  split at h
  · rcases DiskM.runOn_bind_error.1 h with h | ⟨results, d₁, hresults, h⟩
    · obtain ⟨u, -, d₁, h⟩ := DiskM.runOn_mapM_error h
      rw [DiskM.runOn_attempt] at h
      cases h
    rcases DiskM.runOn_bind_error.1 h with h | ⟨_, _, -, h⟩
    · -- the failure that ends the run is that of an attempt
      obtain ⟨x, hx, d₂, hfail⟩ := DiskM.runOn_mapM_error h
      obtain ⟨u, hu, d₃, hunit⟩ := DiskM.mem_of_runOn_mapM hresults hx
      rw [DiskM.runOn_ofExcept] at hfail
      rw [DiskM.runOn_attempt] at hunit
      cases hunit
      exact ⟨u, hu, scrubUnit_error hfail⟩
    · cases h
  · rcases DiskM.runOn_bind_error.1 h with h | ⟨_, _, -, h⟩
    · obtain ⟨u, hu, d₁, hfail⟩ := DiskM.runOn_mapM_error h
      exact ⟨u, hu, scrubUnit_error hfail⟩
    · cases h

/-! ## Refusals -/

/-- The failures of a run that was not to be started with its input and output directories. -/
def Failure.isRefusal : Failure → Bool
  | .missingInput _ | .overlappingRoots .. => true
  | _ => false

/-- The input is lost when the output directory is made anew: its path led to a directory, and leads
to none when the old output directory is gone, nor when the new one is there. -/
structure Config.LosesInput (c : Config) (d d' : Disk) : Prop where
  before : d.isDir c.input
  recreated : DiskM.runOn d (OutputTree.recreate c.output c.input) = (.ok ⟨c.output⟩, d')
  cleared : ¬ (d.cleared c.output).isDir c.input
  after : ¬ d'.isDir c.input

theorem losesInput_of_recreate (hd : d.WellFormed) {tree : OutputTree} (hinput : d.isDir c.input)
    (h : DiskM.runOn d (OutputTree.recreate c.output c.input) = (.ok tree, d'))
    (hgone : ¬ d'.isDir c.input) : c.LosesInput d d' := by
  obtain rfl := OutputTree.tree_of_recreate h
  refine ⟨hinput, h, fun hcleared => hgone ?_, hgone⟩
  have hkeeps := OutputTree.keeps_of_recreate hd h
  obtain ⟨i, hi, hdir⟩ := isDir_iff.1 hcleared
  exact isDir_iff.2 ⟨i, hkeeps.resolve? hi, hkeeps.dir i hdir⟩

/-- **What a refused run leaves.** The disk is as it was, unless the input was lost; and a run that
loses its input is always refused, with another disk than before. -/
theorem run_refused (hd : d.WellFormed) (c : Config) (format : ReportFormat) (d' : Disk) :
    (∀ e : Failure, e.isRefusal → DiskM.runOn d (c.run format) = (.error e, d') →
      d' = d ∨ e = .missingInput c.input ∧ c.LosesInput d d') ∧
    (c.LosesInput d d' →
      DiskM.runOn d (c.run format) = (.error (.missingInput c.input), d') ∧ d' ≠ d) := by
  rw [runOn_run]
  refine ⟨fun e he h => ?_, fun hl => ⟨?_, ?_⟩⟩
  · split at h
    case isFalse =>
      cases h
      exact .inl rfl
    case isTrue hinput =>
    split at h
    · next hrecreate =>
      cases h
      rcases OutputTree.recreate_error hrecreate with ⟨-, rfl⟩ | rfl
      · exact .inl rfl
      · cases he
    next tree d₁ hrecreate =>
    split at h
    · next hfiles =>
      cases h
      obtain ⟨rfl, hgone⟩ := findSources_error_iff.1 hfiles
      exact .inr ⟨rfl, losesInput_of_recreate hd hinput hrecreate hgone⟩
    next files hfiles =>
    -- from here on, only a file that cannot be written ends the run
    rcases DiskM.runOn_bind_error.1 h with h | ⟨ms, d₂, -, h⟩
    · obtain ⟨u, -, rfl⟩ := scrubUnits_error h
      cases he
    rcases DiskM.runOn_bind_error.1 h with h | ⟨_, _, -, h⟩
    · obtain rfl := writeText_error (congrArg Prod.fst h)
      cases he
    · cases h
  · rw [if_pos hl.before, hl.recreated]
    have hfiles : c.findSources d' (some c.output) c.input = .error (.missingInput c.input) :=
      findSources_error_iff.2 ⟨rfl, hl.after⟩
    simp only [hfiles]
  · rintro rfl
    exact hl.after hl.before

/-- A source directory beside the output directory of an earlier run, which has a directory in
it. -/
def detourDisk : Disk :=
  (((withWorkDir [['w']]).put [['w'], ['i']] .dir).put [['w'], ['o']] .dir).put
    [['w'], ['o'], ['s']] .dir

/-- The input path goes through the output directory. -/
def detourConfig : Config := { Config.standard with input := "o/s/../../i", output := "o" }

/-- The detour loses the input, but not if the run is refused before that. -/
theorem run_refused_detourDisk :
    detourDisk.WellFormed ∧ detourConfig.LosesInput detourDisk
        (DiskM.runOn detourDisk (detourConfig.run .text)).2 ∧
      DiskM.runOn detourDisk (Config.run { detourConfig with output := "." } .text) =
        (.error (.overlappingRoots "o/s/../../i" "."), detourDisk) := by
  have hd : detourDisk.WellFormed := by decide
  have hlost : (DiskM.runOn detourDisk (detourConfig.run .text)).1 =
      .error (.missingInput detourConfig.input) := by cbv
  have hgone : Disk.entry? (DiskM.runOn detourDisk (detourConfig.run .text)).2
      [['w'], ['o'], ['s']] = none := by cbv
  have hover : (DiskM.runOn detourDisk (Config.run { detourConfig with output := "." } .text)).1 =
      .error (.overlappingRoots "o/s/../../i" ".") := by cbv
  refine ⟨hd, ?_, ?_⟩
  · rcases (run_refused hd detourConfig .text _).1 _ rfl (Prod.ext hlost rfl) with h | h
    · exact absurd (congrArg (Disk.entry? · [['w'], ['o'], ['s']]) h) (by rw [hgone]; decide)
    · exact h.2
  · rcases (run_refused hd { detourConfig with output := "." } .text _).1 _ rfl
      (Prod.ext hover rfl) with h | h
    · exact Prod.ext hover h
    · cases h.1

/-- **A detour through the old output directory.** The input directory is there before the run and
after it, but its path leads nowhere when what was in the output directory is gone. -/
theorem run_lost_input :
    detourDisk.WellFormed ∧
      (DiskM.runOn detourDisk (detourConfig.run .text)).1 =
        .error (.missingInput detourConfig.input) ∧
      Disk.entry? (DiskM.runOn detourDisk (detourConfig.run .text)).2 [['w'], ['i']] = some .dir ∧
      (DiskM.runOn detourDisk (detourConfig.run .text)).2 ≠ detourDisk := by
  refine ⟨by decide, by cbv, by cbv, fun h => ?_⟩
  have hgone : Disk.entry? (DiskM.runOn detourDisk (detourConfig.run .text)).2
      [['w'], ['o'], ['s']] = none := by cbv
  rw [h] at hgone
  cases hgone

end Declutter
