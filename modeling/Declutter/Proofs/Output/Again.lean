import Declutter.Proofs.Disk.Equality
import Declutter.Proofs.Output.Recreate

/-!
# An output directory that is made twice

`recreate_again`: an output directory was made by a single `makeDir` on a disk that had all the
directories above it. Whatever came to be in it since then goes when it is made anew, and then the
disk is the one that it was on the day it was made.
-/

namespace Declutter

open Disk

variable {d d₁ d' : Disk} {a root input : Path} {parent r : Place} {name : Text}

/-- A directory that is made is where its path leads. -/
theorem Disk.eq_of_makeDir (hl : d.locate d.workDir a = .ok (parent, some (.down name)))
    (hnone : d.entry? (parent ++ [name]) = none)
    (hr : (d.put (parent ++ [name]) .dir).resolve? a = some r) : r = parent ++ [name] := by
  obtain ⟨-, -, ⟨m, -, hleads⟩, hparent, hlast⟩ := locate_ok_iff.1 hl
  have hkeeps : d.Keeps (d.put (parent ++ [name]) .dir) := .put_of_none (by simp) hnone _
  have hself := entry?_put_self d (p := parent ++ [name]) (by simp) .dir
  obtain ⟨k, -, hr⟩ := leads_steps hr
  rw [← List.dropLast_append_getLast? _ hlast.symm] at hr
  exact hr.eq ((hleads.mono hkeeps).append (.down_dir (hkeeps.dir _ hparent) hself))

/-- On a disk with more, a path has its last name in the same directory. -/
theorem Disk.Keeps.locate (h : d.Keeps d') {last : Option Step}
    (hl : d.locate d.workDir a = .ok (parent, last)) :
    d'.locate d'.workDir a = .ok (parent, last) := by
  obtain ⟨ht, hv, ⟨m, hm, hleads⟩, hparent, hlast⟩ := locate_ok_iff.1 hl
  refine locate_ok_iff.2 ⟨ht, hv, ⟨m, hm, ?_⟩, h.dir _ hparent, hlast⟩
  rw [h.workDir]
  exact hleads.mono h

/-- The emptied directory has nothing in it. -/
theorem Disk.within_emptied (d : Disk) (hr : r ≠ []) :
    (d.eraseIf fun q => r.isPrefixOf q && q != r).within r = [] := by
  apply List.eq_nil_iff_forall_not_mem.2
  rintro ⟨names, e⟩ hmem
  obtain ⟨hnames, hentry⟩ := mem_within.1 hmem
  have htest := (eq_some_of_eraseIf hentry).2 (by simp [hr])
  simp [hnames] at htest

/-- **A directory that was added** is removed with all that is in it. -/
theorem Disk.AddedAt.removeDirs (h : d.AddedAt (parent ++ [name]) d')
    (hl : d.locate d.workDir a = .ok (parent, some (.down name)))
    (hdir : d'.entry? (parent ++ [name]) = some .dir) :
    DiskM.runOn d' (removeDirs a) = (.ok (), d) := by
  generalize hr : parent ++ [name] = r at *
  have hne : r ≠ [] := by simp [← hr]
  have hlookup : d'.lookup false a = .ok r := by
    rw [← hr]
    exact lookup_false_of_locate (h.keeps.locate hl) (hr ▸ hdir)
  have hemptied : d.AddedAt r (d'.eraseIf fun q => r.isPrefixOf q && q != r) := by
    refine h.eraseIf fun q hq => ?_
    simp only [Bool.and_eq_true, List.isPrefixOf_iff_prefix] at hq
    exact ⟨fun hnil => hne (List.prefix_nil.1 (hnil ▸ hq.1)), hq.1⟩
  have hgone : (d'.eraseIf fun q => r.isPrefixOf q && q != r).eraseIf (· == r) = d := by
    refine (hemptied.eraseIf fun q hq => ?_).eq fun q hq => ?_
    · obtain rfl : q = r := by simpa using hq
      exact ⟨hne, List.prefix_refl _⟩
    · have hnil : q ≠ [] := fun hc => hne (List.prefix_nil.1 (hc ▸ hq))
      rw [entry?_eraseIf _ _ hnil, entry?_eraseIf _ _ hnil]
      by_cases hqr : q = r <;> simp [hqr, hq]
  have hstill : Disk.entry? (d'.eraseIf fun q => r.isPrefixOf q && q != r) r = some .dir := by
    rw [entry?_eraseIf _ _ hne, if_neg (by simp), hdir]
  have hremove : (d'.eraseIf fun q => r.isPrefixOf q && q != r).removeDir a = .ok d := by
    unfold removeDir
    rw [hemptied.keeps.locate hl]
    simp only [hr, hstill, within_emptied d' hne, if_true, hgone]
  unfold Disk.removeDirs
  rw [DiskM.runOn_get_bind, DiskM.runOn_bind, DiskM.runOn_ofExcept, hlookup]
  simp only [hdir, DiskM.runOn_bind, DiskM.runOn_set, DiskM.runOn_change, hremove]

/-- **Made once more**, an output directory is as it was when it was made, and so is the disk. -/
theorem OutputTree.recreate_again (hd : d.WellFormed) (hmake : d.makeDir root = .ok d₁)
    (hr : d₁.resolve? root = some r) (hbase : d₁.SameBase d') (hdir : d'.entry? r = some .dir)
    (hsame : ∀ q, ¬ r <+: q → d'.entry? q = d₁.entry? q)
    (hapart : d'.overlaps root input = false) :
    DiskM.runOn d' (recreate root input) = (.ok ⟨root⟩, d₁) := by
  obtain ⟨parent, name, hl, hnone, hd₁⟩ := makeDir_ok_iff.1 hmake
  obtain rfl : r = parent ++ [name] := eq_of_makeDir hl hnone (hd₁ ▸ hr)
  have hadded : d.AddedAt (parent ++ [name]) d' := by
    refine AddedAt.trans ?_ hbase hsame
    rw [hd₁]
    exact .put hd (by simp) hnone .dir
  have hremoved := hadded.removeDirs hl hdir
  have hmade : DiskM.runOn d (makeDirs root) = (.ok (), d₁) := by
    rw [runOn_makeDirs d (locate_ok_iff.1 hl).1, ensureAfter, ensureDir_of_makeDir hmake]
  have hfound : (d'.find? root).isSome := by
    have hlookup := lookup_false_of_locate (hadded.keeps.locate hl) hdir
    rw [find?_eq_some_iff.2 ⟨_, resolve?_of_lookup_false hlookup hdir, hdir⟩]
    rfl
  rw [runOn_recreate, if_neg (by simp [hapart]), if_pos hfound, hremoved]
  simp only [hmade]

end Declutter
